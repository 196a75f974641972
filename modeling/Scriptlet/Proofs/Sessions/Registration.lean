import Scriptlet.Proofs.Sessions.Coverage
/-!
# Soundness of registration

Registering a native function at the root of a sound session leaves it sound.
The new symbol gets the function type of the signature, and the value that it is
bound to is of that type.  What is in view at the top level stays covered.
-/

namespace Scriptlet.Session

variable {ν : Type} {book : Value ν → Prop} {s : Session ν}

/-! ## What is in view at the top level -/

/-- The symbols that the statements of a source see. -/
def topView (s : Session ν) : Env :=
  (Forest.chainIn s.scoping.forest.scopes Forest.replId).map Scope.symbols

theorem topView_eq (hs : s.scoping.forest.Sound) {repl : Scope}
    (hrepl : s.scoping.forest.get? Forest.replId = some repl) :
    s.topView = [repl.symbols, s.scoping.forest.global.symbols] := by
  obtain ⟨scope, hscope, hparent⟩ := hs.repl
  rw [hrepl, Option.some.injEq] at hscope
  rw [← hscope] at hparent
  obtain ⟨root, hroot, hnone⟩ := hs.global
  have hglobal : s.scoping.forest.global = root := by
    rw [Forest.global, hroot]
    rfl
  rw [topView, Forest.chainIn_of_get? hs.numbered hrepl, hparent, Option.elim_some,
    Forest.chainIn_of_get? hs.numbered hroot, hnone, hglobal]
  rfl

/-- What is in view at the top level is covered in one state if it was in the
other, and the top level has the same symbols of its own. -/
structure KeepsTop (s t : Session ν) : Prop where
  covers : ∀ excused, s.Covers excused s.topView → t.Covers excused t.topView
  repl : t.scoping.forest.get? Forest.replId = s.scoping.forest.get? Forest.replId

theorem KeepsTop.trans {t u : Session ν} (h : s.KeepsTop t) (h' : t.KeepsTop u) : s.KeepsTop u :=
  ⟨fun excused hs => h'.covers excused (h.covers excused hs), h'.repl.trans h.repl⟩

theorem Later.keepsTop {t : Session ν} (hlater : s.Later t)
    (hforest : t.scoping.forest = s.scoping.forest) : s.KeepsTop t := by
  refine ⟨?_, by rw [hforest]⟩
  intro excused h
  rw [topView, hforest]
  exact h.later hlater

/-- A symbol that was added to the global scope has a value, or is a type. -/
theorem Later.keepsTop_withSymbol {t : Session ν} (hlater : s.Later t)
    (hs : s.scoping.forest.Sound) (ht : t.scoping.forest.Sound) {symbol : Symbol}
    (hforest : t.scoping.forest = s.scoping.forest.withSymbol Forest.globalId symbol)
    (hsymbol : ∀ type, symbol.variant.type? = some type → (t.valueOf? symbol.id).isSome) :
    s.KeepsTop t := by
  have hkept : t.scoping.forest.get? Forest.replId = s.scoping.forest.get? Forest.replId := by
    rw [hforest, Forest.get?_withSymbol_of_ne (by decide)]
  refine ⟨?_, hkept⟩
  intro excused h
  obtain ⟨repl, hrepl, -⟩ := hs.repl
  have hglobal : t.scoping.forest.global.symbols =
      s.scoping.forest.global.symbols ++ [symbol] := by
    rw [Forest.global, hforest, Forest.get?_withSymbol_self hs.lawful.global_eq]
    rfl
  have hbefore := h.later hlater
  rw [topView_eq hs hrepl, Covers, List.forall_mem_cons, List.forall_mem_singleton] at hbefore
  rw [topView_eq ht (hkept.trans hrepl), Covers, List.forall_mem_cons,
    List.forall_mem_singleton, hglobal]
  refine ⟨hbefore.1, ?_⟩
  intro other hother type htype
  rcases List.mem_append.1 hother with hother | hother
  · exact hbefore.2 other hother type htype
  · rw [List.mem_singleton.1 hother] at htype ⊢
    exact .inl (hsymbol type htype)

/-! ## Registering -/

def resultKind (name : String) : Option String → Act (Session ν) (Option Primitive.Kind)
  | none => pure none
  | some type =>
    match Primitive.Kind.named? type with
    | some kind => pure (some kind)
    | none => throw (.host (.nonPrimitiveResult name type))

theorem resultKind_ensures (name : String) (result : Option String) :
    (resultKind name result).Ensures s (fun _ t => t = s) (fun _ t => t = s) := by
  unfold resultKind Act.Ensures
  cases result with
  | none => rfl
  | some type =>
      dsimp only
      cases Primitive.Kind.named? type with
      | none => rfl
      | some kind => rfl

def enlist (name : String) (handle : ν) (kind : Option Primitive.Kind) (type : Symbol) :
    Act (Session ν) Symbol := do
  let symbol ← onScopes (Scoping.declare name (.native type.id) Span.unknown)
  bind symbol.id (← fresh (.native name handle kind))
  record (.registered name type.name)
  return symbol

theorem register_eq (name : String) (arguments : List String) (result : Option String)
    (handle : ν) :
    register name arguments result handle = (do
      let argumentTypes ← onScopes (arguments.mapM Scoping.typeNamed)
      let kind ← resultKind name result
      let resultType ← onScopes (kind.mapM fun kind => Scoping.typeNamed kind.label)
      let type ← onScopes
        (Scoping.functionType (argumentTypes.map Symbol.id) (resultType.map Symbol.id))
      enlist name handle kind type) := by
  unfold register enlist resultKind
  cases result with
  | none => rfl
  | some type =>
      congr 1
      funext argumentTypes
      dsimp only
      cases Primitive.Kind.named? type with
      | none => rfl
      | some kind => rfl

theorem on_resultType (hs : s.scoping.forest.Lawful) (kind : Option Primitive.Kind) :
    (kind.mapM fun kind => Scoping.typeNamed kind.label).on s.scoping =
      (.ok (kind.map Primitive.Kind.typeSymbol), s.scoping) := by
  cases kind with
  | none => rfl
  | some kind => exact Act.on_map_of_ok (Scoping.on_typeNamed_label hs kind) some

theorem Sound.boundTo?_newSymbol (hs : s.Sound book) (name : String) (variant : Symbol.Variant) :
    s.boundTo? (s.scoping.forest.newSymbol name variant).id = none := by
  cases hkey : s.boundTo? (s.scoping.forest.newSymbol name variant).id with
  | none => rfl
  | some key =>
      obtain ⟨symbol, type, stored, ⟨scope, hscope, hmem⟩, hid, -⟩ := hs.bound _ _ hkey
      have hlt := hs.forest.minted scope hscope symbol hmem
      rw [hid] at hlt
      exact absurd hlt (Nat.lt_irrefl _)

private theorem enlisted (hs : s.Sound book) {scoping : Scoping} (hgrows : s.scoping.Grows scoping)
    {symbol : Symbol} {type : SymbolId} {parameters : List SymbolId}
    {kind : Option Primitive.Kind} (hsymbol : symbol ∈ scoping.forest.global.symbols)
    (hvariant : symbol.variant = .native type) (hunbound : s.boundTo? symbol.id = none)
    (htype : scoping.forest.IsFunction type parameters (kind.map Primitive.Kind.typeId))
    (handle : ν) :
    ∃ book', Proceeds book book' s
      (((s.rescoped scoping).noted [] (s.nextValue + 1)).bound symbol.id
        ⟨⟨s.nextValue⟩, .native symbol.name handle kind⟩) := by
  have hgrown := hs.proceeds_rescoped hgrows
  have hminted := hgrown.sound.follows_minted (.native symbol.name handle kind)
  have hdeclares : ((s.rescoped scoping).noted [] (s.nextValue + 1)).Declares symbol :=
    ⟨_, hgrows.sound.lawful.global_mem, hsymbol⟩
  have hunbound' : ((s.rescoped scoping).noted [] (s.nextValue + 1)).valueOf? symbol.id = none := by
    have hnone : ((s.rescoped scoping).noted [] (s.nextValue + 1)).boundTo? symbol.id = none :=
      hunbound
    rw [valueOf?, hnone]
    rfl
  have hlater := hminted.sound.later_bound (.inr rfl) fun _ _ _ _ _ => hunbound'
  refine ⟨_, hgrows.cursor, (hgrown.later.trans hminted.later).trans hlater,
    fun v hv => hminted.book v (hgrown.book v hv), ?_⟩
  refine hminted.sound.bind hdeclares (by rw [hvariant]; rfl) (.inr rfl) hlater ?_
  exact .native ⟨symbol, hsymbol, rfl, hvariant, _, valueOf?_bound_self _ _ _, rfl⟩ htype

private theorem enlist_ensures (hs : s.Sound book) (hcursor : s.scoping.cursor = Forest.globalId)
    {name : String} (hname : name.toList.head? ≠ some '<') (handle : ν)
    {kind : Option Primitive.Kind} {type : Symbol} {parameters : List SymbolId}
    (htype : s.scoping.forest.IsFunction type.id parameters (kind.map Primitive.Kind.typeId)) :
    (enlist name handle kind type).Ensures s
      (fun _ t => (∃ book', Proceeds book book' s t) ∧ s.KeepsTop t)
      (fun _ t => (∃ book', Proceeds book book' s t) ∧ s.KeepsTop t) := by
  have hglobal : s.scoping.forest.get? s.scoping.cursor = some s.scoping.forest.global := by
    rw [hcursor]
    exact hs.forest.lawful.global_eq
  have hid := Forest.id_of_get? hglobal
  unfold enlist Act.Ensures
  cases hfind : s.scoping.forest.global.find? name with
  | some existing =>
      obtain ⟨diagnostic, hon, -⟩ :=
        Scoping.on_declare_taken hglobal hfind (.native type.id) Span.unknown
      rw [Act.on_bind_of_error (on_onScopes hon)]
      have hproceeds := hs.proceeds_rescoped (.refl hs.forest)
      exact ⟨⟨book, hproceeds⟩, hproceeds.later.keepsTop rfl⟩
  | none =>
      have hon := Scoping.on_declare hglobal hfind (.native type.id) Span.unknown
      have hfits : s.scoping.forest.Fits s.scoping.cursor
          (s.scoping.forest.newSymbol name (.native type.id)) := by
        rw [hcursor]
        exact .native htype hname
      have hgrows : s.scoping.Grows
          (s.scoping.inserted s.scoping.forest.global name (.native type.id)
            (Symbol.Variant.native type.id).sort) := by
        rw [Scoping.inserted, hid]
        exact ⟨hs.forest.withSymbol hglobal hfind hfits, Forest.extends_withSymbol _ _, rfl⟩
      have hdeclared : s.scoping.forest.newSymbol name (.native type.id) ∈
          (s.scoping.inserted s.scoping.forest.global name (.native type.id)
            (Symbol.Variant.native type.id).sort).forest.global.symbols := by
        rw [Scoping.inserted, hid, Forest.global, ← hcursor,
          Forest.get?_withSymbol_self hglobal, Option.getD_some]
        exact List.mem_append_right _ (List.mem_singleton_self _)
      obtain ⟨book', hproceeds⟩ := enlisted hs hgrows hdeclared rfl
        (hs.boundTo?_newSymbol name _) (htype.mono hgrows.grown) handle
      rw [Act.on_bind_of_ok (on_onScopes hon), Act.on_bind_of_ok (on_fresh _ _),
        Act.on_bind_of_ok (on_bind _ _ _), Act.on_bind_of_ok (on_record _ _)]
      have hrecorded := hproceeds.sound.follows_event (.registered name type.name) (by simp)
      have hafter := hproceeds.trans hrecorded.proceeds
      refine ⟨⟨book', hafter⟩, hafter.later.keepsTop_withSymbol hs.forest hafter.sound.forest
        (by rw [← hcursor, ← hid]; rfl) ?_⟩
      intro _ _
      exact Option.isSome_iff_exists.2 ⟨_, valueOf?_bound_self _ _ _⟩

theorem register_ensures (hs : s.Sound book) (hcursor : s.scoping.cursor = Forest.globalId)
    {name : String} (hname : ReadsAsName name) (arguments : List String) (result : Option String)
    (handle : ν) :
    (register name arguments result handle).Ensures s
      (fun _ t => (∃ book', Proceeds book book' s t) ∧ s.KeepsTop t)
      (fun _ t => (∃ book', Proceeds book book' s t) ∧ s.KeepsTop t) := by
  rw [register_eq]
  have hlook := onScopes_ensures (Scoping.mapM_typeNamed_ensures arguments s.scoping)
  have h₁ := hs.proceeds_rescoped (.refl hs.forest)
  refine hlook.bind ?_ ?_
  · rintro _ _ ⟨scoping, rfl, rfl⟩
    exact ⟨⟨book, h₁⟩, h₁.later.keepsTop rfl⟩
  rintro argumentTypes _ ⟨scoping, rfl, rfl, hnames⟩
  refine (resultKind_ensures name result).bind ?_ ?_
  · rintro _ _ rfl
    exact ⟨⟨book, h₁⟩, h₁.later.keepsTop rfl⟩
  rintro kind _ rfl
  have h₂ := h₁.trans (h₁.sound.proceeds_rescoped (.refl hs.forest))
  unfold Act.Ensures
  rw [Act.on_bind_of_ok (on_onScopes (on_resultType h₁.sound.forest.lawful kind)), Option.map_map]
  have htype := onScopes_ensures (Scoping.functionType_ensures h₂.sound.forest hnames kind)
  refine htype.bind ?_ ?_
  · rintro _ _ ⟨scoping, -, hfalse⟩
    exact hfalse.elim
  rintro type _ ⟨scoping, rfl, hgrows, hfunction, hadded⟩
  have h₃ := h₂.trans (h₂.sound.proceeds_rescoped hgrows)
  have hkept : s.KeepsTop
      (((s.rescoped s.scoping).rescoped (s.rescoped s.scoping).scoping).rescoped scoping) := by
    rcases hadded with hforest | ⟨added, hadded, hforest⟩
    · exact h₃.later.keepsTop hforest
    · apply h₃.later.keepsTop_withSymbol hs.forest h₃.sound.forest hforest
      intro type htype
      rw [hadded] at htype
      simp at htype
  have henlist := enlist_ensures h₃.sound (h₃.cursor.trans hcursor) hname.head_ne handle hfunction
  refine henlist.mono ?_ ?_
  · rintro _ t ⟨⟨book', hproceeds⟩, hkept'⟩
    exact ⟨⟨book', h₃.trans hproceeds⟩, hkept.trans hkept'⟩
  · rintro _ t ⟨⟨book', hproceeds⟩, hkept'⟩
    exact ⟨⟨book', h₃.trans hproceeds⟩, hkept.trans hkept'⟩

end Scriptlet.Session
