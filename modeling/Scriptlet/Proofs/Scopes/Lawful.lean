import Mathlib.Data.List.Forall2
import Mathlib.Data.List.Nodup
import Scriptlet.Proofs.Scopes.Forest
import Scriptlet.Proofs.Scopes.TypeName
/-!
# Lawful forests

Identities belong to one symbol each, types live in the global scope under the
names of types, and variables and native functions have known types.  Then the
name of a type determines the type, and equal signatures share one function type.
-/

namespace Scriptlet

theorem Primitive.Kind.label_inj {kind other : Primitive.Kind} (h : kind.label = other.label) :
    kind = other := by
  cases kind <;> cases other <;> first | rfl | exact absurd h (by decide)

namespace Forest

def Names (forest : Forest) (id : SymbolId) (name : String) : Prop :=
  ∃ symbol ∈ forest.global.symbols,
    symbol.id = id ∧ symbol.name = name ∧ symbol.variant.isType = true

def IsType (forest : Forest) (id : SymbolId) : Prop :=
  ∃ name, forest.Names id name

def IsFunction (forest : Forest) (id : SymbolId) (arguments : List SymbolId)
    (result : Option SymbolId) : Prop :=
  ∃ symbol ∈ forest.global.symbols,
    symbol.id = id ∧ symbol.variant = .function arguments result

/-- The symbols that may stand in a scope of a lawful forest: in the global scope, what is no type
is not named like a function type. -/
inductive Suits (forest : Forest) : ScopeId → Symbol → Prop where
  | primitive (kind : Primitive.Kind) : Suits forest globalId kind.typeSymbol
  | function {id : SymbolId} {arguments : List SymbolId} {names : List String}
      {result : Option Primitive.Kind} :
      List.Forall₂ forest.Names arguments names →
      (∀ name ∈ names, TypeName name) →
      Suits forest globalId ⟨id, functionTypeName names (result.map Primitive.Kind.label),
        .function arguments (result.map Primitive.Kind.typeId)⟩
  | native {scope : ScopeId} {id type : SymbolId} {name : String} {arguments : List SymbolId}
      {result : Option SymbolId} :
      forest.IsFunction type arguments result →
      (scope = globalId → name.toList.head? ≠ some '<') →
      Suits forest scope ⟨id, name, .native type⟩
  | var {scope : ScopeId} {id type : SymbolId} {name : String} :
      forest.IsType type → (scope = globalId → name.toList.head? ≠ some '<') →
      Suits forest scope ⟨id, name, .var type⟩

/-- Forests in which types can be told by their names and symbols by their identities. -/
structure Lawful (forest : Forest) : Prop where
  numbered : Numbered forest.scopes
  global : ∃ scope, forest.get? globalId = some scope ∧ scope.parent = none
  repl : ∃ scope, forest.get? replId = some scope ∧ scope.parent = some globalId
  named : ∀ scope ∈ forest.scopes, (scope.symbols.map Symbol.name).Nodup
  identified : ∀ scope ∈ forest.scopes, ∀ other ∈ forest.scopes, ∀ a ∈ scope.symbols,
    ∀ b ∈ other.symbols, a.id = b.id → a = b ∧ scope = other
  minted : ∀ scope ∈ forest.scopes, ∀ a ∈ scope.symbols, a.id.number < forest.nextSymbol
  suits : ∀ scope ∈ forest.scopes, ∀ a ∈ scope.symbols, forest.Suits scope.id a
  primitives : ∀ kind : Primitive.Kind, kind.typeSymbol ∈ forest.global.symbols

/-! ## Growth keeps types -/

theorem Extends.global_subset {forest grown : Forest} (h : Extends forest grown) :
    forest.global.symbols ⊆ grown.global.symbols := by
  unfold global
  cases hget : forest.get? globalId with
  | none => simp
  | some scope =>
      obtain ⟨scope', hget', -, hsymbols⟩ := h globalId scope hget
      rw [hget']
      exact hsymbols.subset

theorem Names.mono {forest grown : Forest} (hext : Extends forest grown) {id : SymbolId}
    {name : String} (h : forest.Names id name) : grown.Names id name := by
  obtain ⟨symbol, hmem, hrest⟩ := h
  exact ⟨symbol, hext.global_subset hmem, hrest⟩

theorem IsType.mono {forest grown : Forest} (hext : Extends forest grown) {id : SymbolId}
    (h : forest.IsType id) : grown.IsType id := by
  obtain ⟨name, hname⟩ := h
  exact ⟨name, hname.mono hext⟩

theorem IsFunction.mono {forest grown : Forest} (hext : Extends forest grown) {id : SymbolId}
    {arguments : List SymbolId} {result : Option SymbolId}
    (h : forest.IsFunction id arguments result) : grown.IsFunction id arguments result := by
  obtain ⟨symbol, hmem, hrest⟩ := h
  exact ⟨symbol, hext.global_subset hmem, hrest⟩

theorem IsFunction.isType {forest : Forest} {id : SymbolId} {arguments : List SymbolId}
    {result : Option SymbolId} (h : forest.IsFunction id arguments result) :
    forest.IsType id := by
  obtain ⟨symbol, hmem, hid, hvariant⟩ := h
  exact ⟨symbol.name, symbol, hmem, hid, rfl, by rw [hvariant]; rfl⟩

theorem Suits.mono {forest grown : Forest} (hext : Extends forest grown) {scope : ScopeId}
    {symbol : Symbol} (h : forest.Suits scope symbol) : grown.Suits scope symbol := by
  cases h with
  | primitive kind => exact .primitive kind
  | function harguments hnames =>
      exact .function (harguments.imp fun _ _ h => h.mono hext) hnames
  | native htype hname => exact .native (htype.mono hext) hname
  | var htype hname => exact .var (htype.mono hext) hname

/-! ## Types of a lawful forest -/

namespace Lawful

variable {forest : Forest}

theorem global_eq (h : forest.Lawful) : forest.get? globalId = some forest.global := by
  obtain ⟨scope, hget, -⟩ := h.global
  rw [hget, Forest.global, hget]
  rfl

theorem global_mem (h : forest.Lawful) : forest.global ∈ forest.scopes :=
  mem_of_get? h.global_eq

theorem global_suits (h : forest.Lawful) {symbol : Symbol}
    (hsymbol : symbol ∈ forest.global.symbols) : forest.Suits globalId symbol := by
  have hsuits := h.suits _ h.global_mem symbol hsymbol
  rwa [id_of_get? h.global_eq] at hsuits

theorem eq_of_name (h : forest.Lawful) {scope : Scope} (hscope : scope ∈ forest.scopes)
    {a b : Symbol} (ha : a ∈ scope.symbols) (hb : b ∈ scope.symbols) (heq : a.name = b.name) :
    a = b :=
  List.inj_on_of_nodup_map (h.named scope hscope) ha hb heq

theorem isType_typeId (h : forest.Lawful) (kind : Primitive.Kind) : forest.IsType kind.typeId :=
  ⟨kind.label, kind.typeSymbol, h.primitives kind, rfl, rfl, rfl⟩

theorem typeName (h : forest.Lawful) {id : SymbolId} {name : String}
    (hname : forest.Names id name) : TypeName name := by
  obtain ⟨symbol, hmem, -, rfl, htype⟩ := hname
  cases h.global_suits hmem with
  | primitive kind => exact .primitive kind
  | function _ hnames => exact .function hnames fun _ => TypeName.of_label
  | native => simp [Symbol.Variant.isType] at htype
  | var => simp [Symbol.Variant.isType] at htype

theorem typeNames (h : forest.Lawful) {ids : List SymbolId} {names : List String}
    (hnames : List.Forall₂ forest.Names ids names) : ∀ name ∈ names, TypeName name := by
  induction hnames with
  | nil => simp
  | cons hhead _ ih => exact List.forall_mem_cons.2 ⟨h.typeName hhead, ih⟩

theorem names_inj (h : forest.Lawful) {id id' : SymbolId} {name : String}
    (hname : forest.Names id name) (hname' : forest.Names id' name) : id = id' := by
  obtain ⟨symbol, hmem, rfl, hsymbol, -⟩ := hname
  obtain ⟨symbol', hmem', rfl, hsymbol', -⟩ := hname'
  rw [h.eq_of_name h.global_mem hmem hmem' (hsymbol.trans hsymbol'.symm)]

private theorem forall₂_names_inj (h : forest.Lawful) {ids ids' : List SymbolId}
    {names : List String} (hnames : List.Forall₂ forest.Names ids names)
    (hnames' : List.Forall₂ forest.Names ids' names) : ids = ids' := by
  have hunique : Relator.LeftUnique forest.Names := fun _ _ _ => h.names_inj
  exact hunique.forall₂ hnames hnames'

theorem get?_global (h : forest.Lawful) {symbol : Symbol}
    (hmem : symbol ∈ forest.global.symbols) : forest.global.get? symbol.id = some symbol := by
  cases hfind : forest.global.get? symbol.id with
  | none =>
      have := List.find?_eq_none.1 hfind symbol hmem
      simp at this
  | some other =>
      have hother : other.id = symbol.id := by simpa using List.find?_some hfind
      rw [(h.identified _ h.global_mem _ h.global_mem other (List.mem_of_find?_eq_some hfind)
        symbol hmem hother).1]

theorem typeSymbol_of_names (h : forest.Lawful) {id : SymbolId} {name : String}
    (hname : forest.Names id name) :
    ∃ symbol ∈ forest.global.symbols, forest.typeSymbol id = .ok symbol ∧ symbol.id = id ∧
      symbol.name = name := by
  obtain ⟨symbol, hmem, rfl, rfl, htype⟩ := hname
  refine ⟨symbol, hmem, ?_, rfl, rfl⟩
  rw [typeSymbol, h.get?_global hmem]
  simp [htype]

theorem isFunction_iff_typeSymbol (h : forest.Lawful) {id : SymbolId} {arguments : List SymbolId}
    {result : Option SymbolId} :
    forest.IsFunction id arguments result ↔
      ∃ symbol, forest.typeSymbol id = .ok symbol ∧
        symbol.variant = .function arguments result := by
  constructor
  · rintro ⟨symbol, hmem, rfl, hvariant⟩
    refine ⟨symbol, ?_, hvariant⟩
    rw [typeSymbol, h.get?_global hmem]
    simp [hvariant, Symbol.Variant.isType]
  · rintro ⟨symbol, hsymbol, hvariant⟩
    unfold typeSymbol at hsymbol
    cases hget : forest.global.get? id with
    | none => simp [hget] at hsymbol
    | some found =>
        have hfound : found = symbol := by
          rw [hget] at hsymbol
          by_cases htype : found.variant.isType = true
          · simpa [htype] using hsymbol
          · simp [htype] at hsymbol
        subst hfound
        exact ⟨found, List.mem_of_find?_eq_some hget, by simpa using List.find?_some hget,
          hvariant⟩

theorem isFunction_inj (h : forest.Lawful) {id : SymbolId} {arguments arguments' : List SymbolId}
    {result result' : Option SymbolId} (hf : forest.IsFunction id arguments result)
    (hf' : forest.IsFunction id arguments' result') :
    arguments = arguments' ∧ result = result' := by
  obtain ⟨symbol, hmem, hid, hvariant⟩ := hf
  obtain ⟨symbol', hmem', hid', hvariant'⟩ := hf'
  obtain ⟨rfl, -⟩ := h.identified _ h.global_mem _ h.global_mem symbol hmem symbol' hmem'
    (hid.trans hid'.symm)
  simpa using hvariant.symm.trans hvariant'

theorem not_isFunction_typeId (h : forest.Lawful) (kind : Primitive.Kind)
    {arguments : List SymbolId} {result : Option SymbolId} :
    ¬ forest.IsFunction kind.typeId arguments result := by
  rintro ⟨symbol, hmem, hid, hvariant⟩
  obtain ⟨rfl, -⟩ := h.identified _ h.global_mem _ h.global_mem symbol hmem kind.typeSymbol
    (h.primitives kind) hid
  simp [Primitive.Kind.typeSymbol] at hvariant

theorem parts_of_isFunction (h : forest.Lawful) {id : SymbolId} {arguments : List SymbolId}
    {result : Option SymbolId} (hf : forest.IsFunction id arguments result) :
    (∃ names, List.Forall₂ forest.Names arguments names) ∧
      ∃ kind : Option Primitive.Kind, result = kind.map Primitive.Kind.typeId := by
  obtain ⟨symbol, hmem, -, hvariant⟩ := hf
  cases h.global_suits hmem with
  | primitive kind => simp [Primitive.Kind.typeSymbol] at hvariant
  | @function _ arguments names kind harguments =>
      simp only [Symbol.Variant.function.injEq] at hvariant
      obtain ⟨rfl, rfl⟩ := hvariant
      exact ⟨⟨names, harguments⟩, kind, rfl⟩
  | native => simp at hvariant
  | var => simp at hvariant

theorem isType_parameters (h : forest.Lawful) {id : SymbolId} {arguments : List SymbolId}
    {result : Option SymbolId} (hf : forest.IsFunction id arguments result) :
    ∀ argument ∈ arguments, forest.IsType argument := by
  obtain ⟨⟨names, hnames⟩, -⟩ := h.parts_of_isFunction hf
  clear hf
  induction hnames with
  | nil => simp
  | cons hhead _ ih => exact List.forall_mem_cons.2 ⟨⟨_, hhead⟩, ih⟩

/-- Whatever bears the structural name of a signature is the type of that
signature. -/
theorem function_of_name (h : forest.Lawful) {arguments : List SymbolId} {names : List String}
    {result : Option Primitive.Kind} (harguments : List.Forall₂ forest.Names arguments names)
    {symbol : Symbol} (hmem : symbol ∈ forest.global.symbols)
    (hname : symbol.name = functionTypeName names (result.map Primitive.Kind.label)) :
    symbol.variant = .function arguments (result.map Primitive.Kind.typeId) := by
  have hfirst : symbol.name.toList.head? = some '<' := by
    rw [hname, TypeName.toList_functionTypeName]
    rfl
  have hnames := h.typeNames harguments
  cases h.global_suits hmem with
  | primitive kind =>
      cases kind <;> simp [Primitive.Kind.typeSymbol, Primitive.Kind.label] at hfirst
  | @function _ arguments' names' result' harguments' hnames' =>
      obtain ⟨rfl, hlabel⟩ := TypeName.functionTypeName_inj hnames' hnames
        (fun _ => TypeName.of_label) (fun _ => TypeName.of_label) hname
      have hkind : result' = result := Option.map_injective (fun _ _ => Primitive.Kind.label_inj) hlabel
      rw [hkind, h.forall₂_names_inj harguments' harguments]
  | native _ hhead => exact absurd hfirst (hhead rfl)
  | var _ hhead => exact absurd hfirst (hhead rfl)

/-! ## Look-up in a lawful forest -/

theorem lookupId_of_visible (h : forest.Lawful) {id : ScopeId} {scope : Scope}
    (hget : forest.get? id = some scope) {symbol : Symbol} (hvisible : forest.Visible id symbol) :
    forest.lookupId id symbol.id = .ok (some symbol) :=
  Forest.lookupId_of_visible h.identified hget hvisible

theorem isType_of_type? (h : forest.Lawful) {scope : Scope} (hscope : scope ∈ forest.scopes)
    {symbol : Symbol} (hsymbol : symbol ∈ scope.symbols) {type : SymbolId}
    (htype : symbol.variant.type? = some type) : forest.IsType type := by
  have hsuits := h.suits scope hscope symbol hsymbol
  generalize scope.id = id at hsuits
  cases hsuits with
  | primitive kind => simp [Primitive.Kind.typeSymbol, Symbol.Variant.type?] at htype
  | function => simp [Symbol.Variant.type?] at htype
  | native hfunction =>
      simp only [Symbol.Variant.type?, Option.some.injEq] at htype
      exact htype ▸ hfunction.isType
  | var hvar =>
      simp only [Symbol.Variant.type?, Option.some.injEq] at htype
      exact htype ▸ hvar

end Lawful

end Forest

end Scriptlet
