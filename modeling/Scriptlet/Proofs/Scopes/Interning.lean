import Mathlib.Data.List.Forall2
import Scriptlet.Proofs.Analysis.Preservation
import Scriptlet.Proofs.Scopes.WellFormed
/-!
# Interning of function types

A function type is kept in the global scope under the structural name of its signature.
Since that name determines the signature, whatever type bears it is the type of that
signature.  Variables and native functions live under names of the same scope, and one of
them may bear a structural name, too: then it takes the place of the type.
-/

namespace Scriptlet

namespace Forest

/-- The structural name of a signature, made of the names of its types. -/
def NamesFunction (forest : Forest) (arguments : List SymbolId) (result : Option SymbolId)
    (name : String) : Prop :=
  ∃ names resultName, List.Forall₂ forest.Names arguments names ∧
    Option.Rel forest.Names result resultName ∧ name = functionTypeName names resultName

/-- Something that is no type bears the structural name of the signature. -/
def Taken (forest : Forest) (arguments : List SymbolId) (result : Option SymbolId) : Prop :=
  ∃ symbol ∈ forest.global.symbols, symbol.variant.isType = false ∧
    forest.NamesFunction arguments result symbol.name

/-- The types that stand under the names by which they are found. -/
inductive Interned (forest : Forest) : Symbol → Prop where
  | primitive (kind : Primitive.Kind) : Interned forest kind.typeSymbol
  | function {id : SymbolId} {name : String} {arguments : List SymbolId}
      {result : Option SymbolId} : forest.NamesFunction arguments result name →
      Interned forest ⟨id, name, .function arguments result⟩

structure Interning (forest : Forest) : Prop where
  wellFormed : forest.WellFormed
  primitives : ∀ kind : Primitive.Kind, kind.typeSymbol ∈ forest.global.symbols
  interned : ∀ symbol ∈ forest.global.symbols, symbol.variant.isType = true →
    forest.Interned symbol
  typeName : ∀ {id name}, forest.Names id name → TypeName name

variable {forest grown : Forest} {arguments others : List SymbolId} {result other : Option SymbolId}
  {name name' : String}

/-! ## Structural names -/

private theorem optionRel_mono {result : Option SymbolId} {resultName : Option String}
    (hext : forest.Extends grown) (h : Option.Rel forest.Names result resultName) :
    Option.Rel grown.Names result resultName := by
  cases h with
  | none => exact .none
  | some hname => exact .some (hname.mono hext)

theorem NamesFunction.mono (hext : forest.Extends grown)
    (h : forest.NamesFunction arguments result name) :
    grown.NamesFunction arguments result name := by
  obtain ⟨names, resultName, harguments, hresult, hname⟩ := h
  exact ⟨names, resultName, harguments.imp fun _ _ h => h.mono hext, optionRel_mono hext hresult,
    hname⟩

theorem Interned.mono (hext : forest.Extends grown) {symbol : Symbol}
    (h : forest.Interned symbol) : grown.Interned symbol := by
  cases h with
  | primitive kind => exact .primitive kind
  | function hname => exact .function (hname.mono hext)

theorem exists_namesFunction (harguments : ∀ id ∈ arguments, forest.IsType id)
    (hresult : ∀ id, result = some id → forest.IsType id) :
    ∃ name, forest.NamesFunction arguments result name := by
  have hnames : ∃ names, List.Forall₂ forest.Names arguments names := by
    induction arguments with
    | nil => exact ⟨[], .nil⟩
    | cons id ids ih =>
        rw [List.forall_mem_cons] at harguments
        obtain ⟨name, hname⟩ := harguments.1
        obtain ⟨names, hnames⟩ := ih harguments.2
        exact ⟨name :: names, .cons hname hnames⟩
  have hresultName : ∃ resultName, Option.Rel forest.Names result resultName := by
    cases result with
    | none => exact ⟨none, .none⟩
    | some id =>
        obtain ⟨name, hname⟩ := hresult id rfl
        exact ⟨some name, .some hname⟩
  obtain ⟨names, hnames⟩ := hnames
  obtain ⟨resultName, hresultName⟩ := hresultName
  exact ⟨_, names, resultName, hnames, hresultName, rfl⟩

private theorem find?_key_of_mem {κ : Type} [DecidableEq κ] {key : Symbol → κ}
    {symbols : List Symbol} (hkey : ∀ a ∈ symbols, ∀ b ∈ symbols, key a = key b → a = b)
    {symbol : Symbol} (hmem : symbol ∈ symbols) :
    symbols.find? (fun other => key other = key symbol) = some symbol := by
  cases hfind : symbols.find? (fun other => key other = key symbol) with
  | none =>
      have := List.find?_eq_none.1 hfind symbol hmem
      simp at this
  | some found =>
      have hsame : key found = key symbol := by simpa using List.find?_some hfind
      rw [hkey found (List.mem_of_find?_eq_some hfind) symbol hmem hsame]

namespace WellFormed

theorem global_mem (h : forest.WellFormed) : forest.global ∈ forest.scopes :=
  mem_of_get? h.global_eq

theorem global_eq_of_name (h : forest.WellFormed) {a b : Symbol}
    (ha : a ∈ forest.global.symbols) (hb : b ∈ forest.global.symbols) (heq : a.name = b.name) :
    a = b :=
  List.inj_on_of_nodup_map (h.named _ h.global_mem) ha hb heq

theorem global_eq_of_id (h : forest.WellFormed) {a b : Symbol}
    (ha : a ∈ forest.global.symbols) (hb : b ∈ forest.global.symbols) (heq : a.id = b.id) :
    a = b :=
  (h.identified _ h.global_mem _ h.global_mem a ha b hb heq).1

theorem find?_global (h : forest.WellFormed) {symbol : Symbol}
    (hmem : symbol ∈ forest.global.symbols) : forest.global.find? symbol.name = some symbol :=
  find?_key_of_mem (fun _ ha _ hb => h.global_eq_of_name ha hb) hmem

theorem get?_global (h : forest.WellFormed) {symbol : Symbol}
    (hmem : symbol ∈ forest.global.symbols) : forest.global.get? symbol.id = some symbol :=
  find?_key_of_mem (fun _ ha _ hb => h.global_eq_of_id ha hb) hmem

theorem typeSymbol_eq_ok (h : forest.WellFormed) {symbol : Symbol}
    (hmem : symbol ∈ forest.global.symbols) (htype : symbol.variant.isType = true) :
    forest.typeSymbol symbol.id = .ok symbol := by
  rw [typeSymbol, h.get?_global hmem]
  simp [htype]

theorem typeSymbol_ne_ok (h : forest.WellFormed) {symbol : Symbol}
    (hmem : symbol ∈ forest.global.symbols) (htype : symbol.variant.isType = false)
    (found : Symbol) : forest.typeSymbol symbol.id ≠ .ok found := by
  rw [typeSymbol, h.get?_global hmem]
  simp [htype]

theorem names_unique (h : forest.WellFormed) {id : SymbolId} (hname : forest.Names id name)
    (hname' : forest.Names id name') : name = name' := by
  obtain ⟨symbol, hmem, hid, rfl, -⟩ := hname
  obtain ⟨symbol', hmem', hid', rfl, -⟩ := hname'
  rw [h.global_eq_of_id hmem hmem' (hid.trans hid'.symm)]

theorem names_inj (h : forest.WellFormed) {id id' : SymbolId} (hname : forest.Names id name)
    (hname' : forest.Names id' name) : id = id' := by
  obtain ⟨symbol, hmem, rfl, hsymbol, -⟩ := hname
  obtain ⟨symbol', hmem', rfl, hsymbol', -⟩ := hname'
  rw [h.global_eq_of_name hmem hmem' (hsymbol.trans hsymbol'.symm)]

theorem namesFunction_unique (h : forest.WellFormed)
    (hname : forest.NamesFunction arguments result name)
    (hname' : forest.NamesFunction arguments result name') : name = name' := by
  obtain ⟨names, resultName, hnames, hresult, rfl⟩ := hname
  obtain ⟨names', resultName', hnames', hresult', rfl⟩ := hname'
  have hunique : Relator.RightUnique forest.Names := fun _ _ _ => h.names_unique
  rw [hunique.forall₂ hnames hnames']
  cases hresult with
  | none =>
      cases hresult'
      rfl
  | some hresult =>
      cases hresult' with
      | some hresult' => rw [h.names_unique hresult hresult']

end WellFormed

/-! ## The types of a forest -/

namespace Interning

theorem typeNames (h : forest.Interning) {names : List String}
    (hnames : List.Forall₂ forest.Names arguments names) : ∀ name ∈ names, TypeName name := by
  induction hnames with
  | nil => simp
  | cons hhead _ ih => exact List.forall_mem_cons.2 ⟨h.typeName hhead, ih⟩

theorem typeName_result (h : forest.Interning) {resultName : Option String}
    (hresult : Option.Rel forest.Names result resultName) :
    ∀ name, resultName = some name → TypeName name := by
  intro name hname
  cases hresult with
  | none => cases hname
  | some hresult =>
      cases hname
      exact h.typeName hresult

private theorem typeName_function (h : forest.Interning)
    (hname : forest.NamesFunction arguments result name) : TypeName name := by
  obtain ⟨names, resultName, hnames, hresult, rfl⟩ := hname
  exact .function (h.typeNames hnames) (h.typeName_result hresult)

/-- A structural name determines the signature. -/
theorem namesFunction_inj (h : forest.Interning)
    (hname : forest.NamesFunction arguments result name)
    (hname' : forest.NamesFunction others other name) : arguments = others ∧ result = other := by
  obtain ⟨names, resultName, hnames, hresult, rfl⟩ := hname
  obtain ⟨names', resultName', hnames', hresult', heq⟩ := hname'
  obtain ⟨rfl, rfl⟩ := TypeName.functionTypeName_inj (h.typeNames hnames) (h.typeNames hnames')
    (h.typeName_result hresult) (h.typeName_result hresult') heq
  have hunique : Relator.LeftUnique forest.Names := fun _ _ _ => h.wellFormed.names_inj
  refine ⟨hunique.forall₂ hnames hnames', ?_⟩
  cases hresult with
  | none =>
      cases hresult'
      rfl
  | some hresult =>
      cases hresult' with
      | some hresult' => rw [h.wellFormed.names_inj hresult hresult']

/-- Of the symbols that bear structural names, there is one for each signature. -/
theorem id_eq_iff (h : forest.Interning) {a b : Symbol} (ha : a ∈ forest.global.symbols)
    (hb : b ∈ forest.global.symbols) (hname : forest.NamesFunction arguments result a.name)
    (hname' : forest.NamesFunction others other b.name) :
    a.id = b.id ↔ arguments = others ∧ result = other := by
  constructor
  · intro hid
    rw [h.wellFormed.global_eq_of_id ha hb hid] at hname
    exact h.namesFunction_inj hname hname'
  · rintro ⟨rfl, rfl⟩
    rw [h.wellFormed.global_eq_of_name ha hb (h.wellFormed.namesFunction_unique hname hname')]

/-- A type that bears a structural name is the type of the signature. -/
theorem function_of_name (h : forest.Interning)
    (hname : forest.NamesFunction arguments result name) {symbol : Symbol}
    (hmem : symbol ∈ forest.global.symbols) (hsymbol : symbol.name = name)
    (htype : symbol.variant.isType = true) : symbol.variant = .function arguments result := by
  rw [← hsymbol] at hname
  cases h.interned symbol hmem htype with
  | primitive kind =>
      obtain ⟨names, resultName, -, -, hlabel⟩ := hname
      have hchars := congrArg (fun name => name.toList.head?) hlabel
      rw [TypeName.toList_functionTypeName] at hchars
      cases kind <;> simp [Primitive.Kind.typeSymbol, Primitive.Kind.label] at hchars
  | function hname' =>
      obtain ⟨rfl, rfl⟩ := h.namesFunction_inj hname' hname
      rfl

/-! ## Growth -/

private theorem global_withScope (h : forest.WellFormed) (name : String) (parent : ScopeId) :
    (forest.withScope name parent).global = forest.global := by
  rw [Forest.global, get?_withScope_of_ne (h.numbered.ne_nextScope h.global_eq), ← Forest.global]

theorem withScope (h : forest.Interning) (name : String) {parent : ScopeId} {scope : Scope}
    (hparent : forest.get? parent = some scope) : (forest.withScope name parent).Interning := by
  have hglobal := global_withScope h.wellFormed name parent
  have hext := h.wellFormed.numbered.extends_withScope name parent
  refine ⟨h.wellFormed.withScope name hparent, ?_, ?_, ?_⟩
  · rw [hglobal]
    exact h.primitives
  · rw [hglobal]
    exact fun symbol hmem htype => (h.interned symbol hmem htype).mono hext
  · intro id name' hname
    rw [Names, hglobal] at hname
    exact h.typeName hname

private theorem mem_global_withSymbol (h : forest.WellFormed) {id : ScopeId} {symbol a : Symbol}
    (ha : a ∈ (forest.withSymbol id symbol).global.symbols) :
    a ∈ forest.global.symbols ∨ a = symbol := by
  rw [Forest.global, get?_withSymbol, h.global_eq, Option.map_some, Option.getD_some] at ha
  rcases Scope.mem_pushAt.1 ha with ha | ⟨-, rfl⟩
  · exact .inl ha
  · exact .inr rfl

theorem withSymbol (h : forest.Interning) {id : ScopeId} {scope : Scope}
    (hget : forest.get? id = some scope) {name : String} (hfree : scope.find? name = none)
    {variant : Symbol.Variant}
    (hvariant : variant.isType = true → ∃ arguments result,
      variant = .function arguments result ∧ forest.NamesFunction arguments result name) :
    (forest.withSymbol id (forest.newSymbol name variant)).Interning := by
  have hext : forest.Extends (forest.withSymbol id (forest.newSymbol name variant)) :=
    extends_withSymbol _ _
  refine ⟨h.wellFormed.withSymbol hget hfree variant,
    fun kind => hext.global_subset (h.primitives kind), ?_, ?_⟩
  · intro symbol hmem htype
    rcases mem_global_withSymbol h.wellFormed hmem with hmem | rfl
    · exact (h.interned symbol hmem htype).mono hext
    · obtain ⟨arguments, result, rfl, hname⟩ := hvariant htype
      exact .function (hname.mono hext)
  · rintro identity name' ⟨symbol, hmem, hid, hname', htype⟩
    rcases mem_global_withSymbol h.wellFormed hmem with hmem | rfl
    · exact h.typeName ⟨symbol, hmem, hid, hname', htype⟩
    · obtain ⟨arguments, result, rfl, hname⟩ := hvariant htype
      rw [← hname']
      exact h.typeName_function hname

end Interning

private theorem interning_initial : Forest.initial.Interning where
  wellFormed := wellFormed_initial
  primitives := sound_initial.primitives
  interned := by
    intro symbol hmem _
    obtain ⟨kind, -, rfl⟩ := List.mem_map.1 hmem
    exact .primitive kind
  typeName := by
    rintro id name ⟨symbol, hmem, -, rfl, -⟩
    obtain ⟨kind, -, rfl⟩ := List.mem_map.1 hmem
    exact .primitive kind

end Forest

/-! ## Acts on the scopes -/

namespace Scoping

open Act (Preserves)

structure Interns (base : Forest) (s : Scoping) : Prop where
  grown : s.Grown base
  interning : s.forest.Interning

variable {base : Forest} {s : Scoping}

theorem interns_initial : Scoping.initial.Interns .initial :=
  ⟨grown_initial, Forest.interning_initial⟩

theorem Interns.self (hs : s.Interns base) : s.Interns s.forest :=
  ⟨hs.grown.self, hs.interning⟩

theorem Interns.unlogged (hs : s.Interns base) (log : List ScopeEvent) :
    ({ s with log := log } : Scoping).Interns base :=
  ⟨⟨hs.grown.wellFormed, hs.grown.grown, hs.grown.cursor⟩, hs.interning⟩

theorem interns_enter (id : ScopeId) : Preserves (Interns base) (enter id) :=
  fun s hs => ⟨grown_enter id s hs.grown, @forest_enter Forest.Interning id s hs.interning⟩

theorem interns_leave : Preserves (Interns base) leave :=
  fun s hs => ⟨grown_leave s hs.grown, @forest_leave Forest.Interning s hs.interning⟩

theorem interns_plant (name : String) (parent : ScopeId) :
    Preserves (Interns base) (plant name (some parent)) := by
  intro s hs
  refine ⟨grown_plant name parent s hs.grown, ?_⟩
  cases hget : s.forest.get? parent with
  | none =>
      obtain ⟨failure, hon⟩ := on_plant_unknown hget name
      rw [hon]
      exact hs.interning
  | some scope =>
      rw [on_plant hget]
      exact hs.interning.withScope name hget

theorem interns_declare (name : String) {variant : Symbol.Variant}
    (hvariant : variant.isType = false) (span : Span) :
    Preserves (Interns base) (declare name variant span) := by
  intro s hs
  refine ⟨grown_declare name variant span s hs.grown, ?_⟩
  obtain ⟨scope, hscope⟩ := hs.grown.cursor
  cases hfind : scope.find? name with
  | some existing =>
      obtain ⟨diagnostic, hon, -⟩ := on_declare_taken hscope hfind variant span
      rw [hon]
      exact hs.interning
  | none =>
      rw [on_declare hscope hfind]
      rw [← Forest.id_of_get? hscope] at hscope
      exact hs.interning.withSymbol hscope hfind fun htype => by simp [hvariant] at htype

/-! ## Interning a type -/

private theorem typeName_ensures (id : SymbolId) (s : Scoping) :
    (typeName id).Ensures s (fun name t => t = s ∧ s.forest.Names id name) (fun _ t => t = s) := by
  unfold typeName Act.Ensures
  cases hsymbol : s.forest.typeSymbol id with
  | error failure => rw [Act.on_bind_of_error (by rw [on_typeSymbol, hsymbol])]
  | ok symbol =>
      rw [Act.on_bind_of_ok (by rw [on_typeSymbol, hsymbol]), Act.on_pure]
      unfold Forest.typeSymbol at hsymbol
      split at hsymbol
      · next found hfound =>
          split at hsymbol
          · next htype =>
              cases hsymbol
              exact ⟨rfl, symbol, List.mem_of_find?_eq_some hfound,
                by simpa using List.find?_some hfound, rfl, htype⟩
          · cases hsymbol
      · cases hsymbol

theorem mapM_typeName_ensures (ids : List SymbolId) (s : Scoping) :
    (ids.mapM typeName).Ensures s (fun names t => t = s ∧ List.Forall₂ s.forest.Names ids names)
      (fun _ t => t = s) := by
  induction ids with
  | nil => exact Act.ensures_pure ⟨rfl, .nil⟩
  | cons id ids ih =>
      rw [List.mapM_cons]
      refine (typeName_ensures id s).bind (fun _ _ h => h) ?_
      rintro name _ ⟨rfl, hname⟩
      refine ih.bind (fun _ _ h => h) ?_
      rintro names _ ⟨rfl, hnames⟩
      exact Act.ensures_pure ⟨rfl, .cons hname hnames⟩

theorem mapM_typeName_option_ensures (id : Option SymbolId) (s : Scoping) :
    (id.mapM typeName).Ensures s (fun name t => t = s ∧ Option.Rel s.forest.Names id name)
      (fun _ t => t = s) := by
  cases id with
  | none => exact Act.ensures_pure ⟨rfl, .none⟩
  | some id =>
      change (typeName id >>= fun name => pure (some name)).Ensures s _ _
      refine (typeName_ensures id s).bind (fun _ _ h => h) ?_
      rintro name _ ⟨rfl, hname⟩
      exact Act.ensures_pure ⟨rfl, .some hname⟩

/-- Interning a signature looks for its structural name in the global scope, and adds the type if
nothing bears that name. -/
theorem functionType_ensures_named (arguments : List SymbolId) (result : Option SymbolId)
    (s : Scoping) :
    (functionType arguments result).Ensures s
      (fun symbol t => ∃ name, s.forest.NamesFunction arguments result name ∧
        (s.forest.global.find? name = some symbol ∧ t = s ∨
          s.forest.global.find? name = none ∧
          symbol = s.forest.newSymbol name (.function arguments result) ∧
          t = s.inserted s.forest.global name (.function arguments result) "type"))
      (fun _ t => t = s) := by
  unfold functionType
  refine (mapM_typeName_ensures arguments s).bind (fun _ _ h => h) ?_
  rintro names _ ⟨rfl, hnames⟩
  refine (mapM_typeName_option_ensures result _).bind (fun _ _ h => h) ?_
  rintro resultName t ⟨rfl, hresult⟩
  have hname : t.forest.NamesFunction arguments result (functionTypeName names resultName) :=
    ⟨names, resultName, hnames, hresult, rfl⟩
  unfold Act.Ensures
  rw [Act.on_bind_of_ok (Act.on_get t)]
  dsimp only
  cases hfind : t.forest.global.find? (functionTypeName names resultName) with
  | some existing => exact ⟨_, hname, .inl ⟨hfind, rfl⟩⟩
  | none =>
      simp only [on_insert hfind]
      exact ⟨_, hname, .inr ⟨hfind, rfl, rfl⟩⟩

theorem interns_functionType (arguments : List SymbolId) (result : Option SymbolId) :
    Preserves (Interns base) (functionType arguments result) := by
  intro s hs
  apply Act.Ensures.state
  refine (functionType_ensures_named arguments result s).mono ?_ (fun _ _ h => h ▸ hs)
  rintro symbol _ ⟨name, hname, ⟨-, rfl⟩ | ⟨hfree, -, rfl⟩⟩
  · exact hs
  · have hglobal := hs.interning.wellFormed.global_eq
    refine ⟨hs.grown.inserted hglobal hfree _ _, ?_⟩
    rw [← Forest.id_of_get? hglobal] at hglobal
    exact hs.interning.withSymbol hglobal hfree fun _ => ⟨arguments, result, rfl, hname⟩

private theorem on_typeName_of_names (hs : s.forest.WellFormed) {id : SymbolId} {name : String}
    (h : s.forest.Names id name) : (typeName id).on s = (.ok name, s) := by
  obtain ⟨symbol, hmem, rfl, rfl, htype⟩ := h
  unfold typeName
  rw [Act.on_bind_of_ok (by rw [on_typeSymbol, hs.typeSymbol_eq_ok hmem htype]), Act.on_pure]

theorem exists_on_functionType (hs : s.forest.WellFormed) {arguments : List SymbolId}
    {result : Option SymbolId} {name : String}
    (h : s.forest.NamesFunction arguments result name) :
    ∃ symbol t, (functionType arguments result).on s = (.ok symbol, t) := by
  obtain ⟨names, resultName, hnames, hresult, rfl⟩ := h
  have harguments : (arguments.mapM typeName).on s = (.ok names, s) := by
    induction hnames with
    | nil => rfl
    | cons hhead _ ih =>
        rw [List.mapM_cons, Act.on_bind_of_ok (on_typeName_of_names hs hhead),
          Act.on_bind_of_ok ih, Act.on_pure]
  have hresultName : (result.mapM typeName).on s = (.ok resultName, s) := by
    cases hresult with
    | none => rfl
    | some hname => exact Act.on_map_of_ok (on_typeName_of_names hs hname) some
  unfold functionType
  rw [Act.on_bind_of_ok harguments, Act.on_bind_of_ok hresultName, Act.on_bind_of_ok (Act.on_get s)]
  dsimp only
  cases hfind : s.forest.global.find? (functionTypeName names resultName) with
  | some existing => exact ⟨existing, s, rfl⟩
  | none =>
      simp only [on_insert hfind]
      exact ⟨_, _, rfl⟩

/-- What interning a signature yields bears its structural name; it is the type of the signature
unless the name is taken. -/
theorem Interns.functionType (hs : s.Interns base) {arguments : List SymbolId}
    {result : Option SymbolId} {symbol : Symbol} {t : Scoping}
    (h : (functionType arguments result).on s = (.ok symbol, t)) :
    symbol ∈ t.forest.global.symbols ∧ t.forest.NamesFunction arguments result symbol.name ∧
      (¬ s.forest.Taken arguments result → symbol.variant = .function arguments result) ∧
      (s.forest.Taken arguments result → symbol.variant.isType = false) := by
  have hformed := hs.interning.wellFormed
  have hensures := functionType_ensures_named arguments result s
  unfold Act.Ensures at hensures
  rw [h] at hensures
  obtain ⟨name, hname, ⟨hfind, rfl⟩ | ⟨hfree, rfl, rfl⟩⟩ := hensures
  · have hmem := List.mem_of_find?_eq_some hfind
    have hsymbol : symbol.name = name := by simpa using List.find?_some hfind
    refine ⟨hmem, hsymbol ▸ hname, fun htaken => ?_, ?_⟩
    · cases htype : symbol.variant.isType with
      | true => exact hs.interning.function_of_name hname hmem hsymbol htype
      | false => exact absurd ⟨symbol, hmem, htype, hsymbol ▸ hname⟩ htaken
    · rintro ⟨other, hother, htype, hname'⟩
      have hsame := hformed.namesFunction_unique hname' hname
      rwa [hformed.global_eq_of_name hmem hother (hsymbol.trans hsame.symm)]
  · have hglobal := hformed.global_eq
    have hid := Forest.id_of_get? hglobal
    have hext : s.forest.Extends (s.inserted s.forest.global name (.function arguments result)
        "type").forest := Forest.extends_withSymbol _ _
    refine ⟨?_, hname.mono hext, fun _ => rfl, ?_⟩
    · rw [inserted, hid, Forest.global, Forest.get?_withSymbol_self hglobal, Option.getD_some]
      exact List.mem_append_right _ (List.mem_singleton_self _)
    · rintro ⟨other, hother, -, hname'⟩
      have hfound := hformed.find?_global hother
      rw [hformed.namesFunction_unique hname' hname, hfree] at hfound
      cases hfound

end Scoping

end Scriptlet
