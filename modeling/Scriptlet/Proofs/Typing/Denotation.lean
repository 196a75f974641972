import Scriptlet.Proofs.Analysis.Resolution
import Scriptlet.Proofs.Typing.Rules
/-!
# Types that identities stand for

In a lawful forest the identity of a type stands for one structural type, and a
structural type has at most one identity, since function types are shared by
signature.  So the symbols that are visible from a scope show frames of names,
and two types are equal if and only if their identities are.
-/

namespace Scriptlet

/-- The type that an identity stands for. -/
inductive Forest.Denotes (forest : Forest) : SymbolId → Ty → Prop where
  | primitive (kind : Primitive.Kind) : Denotes forest kind.typeId (.primitive kind)
  | function {id : SymbolId} {arguments : List SymbolId} {parameters : List Ty}
      {result : Option Primitive.Kind} :
      forest.IsFunction id arguments (result.map Primitive.Kind.typeId) →
      arguments.length = parameters.length →
      (∀ pair ∈ arguments.zip parameters, Denotes forest pair.1 pair.2) →
      Denotes forest id (.function parameters result)

inductive Forest.Presents (forest : Forest) : Symbol.Variant → Entry → Prop where
  | primitive : Presents forest .primitive .type
  | function {arguments : List SymbolId} {result : Option SymbolId} :
      Presents forest (.function arguments result) .type
  | var {id : SymbolId} {type : Ty} :
      forest.Denotes id type → Presents forest (.var id) (.var type)
  | native {id : SymbolId} {type : Ty} :
      forest.Denotes id type → Presents forest (.native id) (.native type)

def Forest.Lists (forest : Forest) (symbol : Symbol) (listed : String × Entry) : Prop :=
  symbol.name = listed.1 ∧ forest.Presents symbol.variant listed.2

def Forest.Shows (forest : Forest) (env : Env) (frames : Frames) : Prop :=
  List.Forall₂ (List.Forall₂ forest.Lists) env frames

/-- The frames of what is visible from the cursor. -/
def Scoping.Shows (s : Scoping) (frames : Frames) : Prop :=
  s.forest.Shows s.view frames

variable {forest grown : Forest}

/-! ## Growth keeps what identities stand for -/

theorem Forest.Denotes.mono (hext : forest.Extends grown) {id : SymbolId} {type : Ty}
    (h : forest.Denotes id type) : grown.Denotes id type := by
  induction h with
  | primitive kind => exact .primitive kind
  | function hfunction hlength _ ih => exact .function (hfunction.mono hext) hlength ih

theorem Forest.Presents.mono (hext : forest.Extends grown) {variant : Symbol.Variant}
    {entry : Entry} (h : forest.Presents variant entry) : grown.Presents variant entry := by
  cases h with
  | primitive => exact .primitive
  | function => exact .function
  | var htype => exact .var (htype.mono hext)
  | native htype => exact .native (htype.mono hext)

theorem Forest.Lists.mono (hext : forest.Extends grown) {symbol : Symbol}
    {listed : String × Entry} (h : forest.Lists symbol listed) : grown.Lists symbol listed :=
  ⟨h.1, h.2.mono hext⟩

theorem Forest.Shows.mono (hext : forest.Extends grown) {env : Env} {frames : Frames}
    (h : forest.Shows env frames) : grown.Shows env frames :=
  h.imp fun _ _ hframe => hframe.imp fun _ _ hsymbol => hsymbol.mono hext

/-! ## One type for each identity -/

theorem Primitive.Kind.typeId_inj {kind other : Primitive.Kind} (h : kind.typeId = other.typeId) :
    kind = other := by
  cases kind <;> cases other <;> first | rfl | exact absurd h (by decide)

theorem Primitive.Kind.map_typeId_inj {result other : Option Primitive.Kind}
    (h : result.map typeId = other.map typeId) : result = other :=
  Option.map_injective (fun _ _ => typeId_inj) h

theorem Forest.Denotes.cases_id {id : SymbolId} {type : Ty} (h : forest.Denotes id type) :
    (∃ kind : Primitive.Kind, id = kind.typeId ∧ type = .primitive kind) ∨
      ∃ arguments parameters result,
        forest.IsFunction id arguments (result.map Primitive.Kind.typeId) ∧
        List.Forall₂ forest.Denotes arguments parameters ∧ type = .function parameters result := by
  cases h with
  | primitive kind => exact .inl ⟨kind, rfl, rfl⟩
  | @function _ arguments parameters result hfunction hlength harguments =>
      have hall : List.Forall₂ forest.Denotes arguments parameters :=
        List.forall₂_iff_zip.2 ⟨hlength, fun hpair => harguments _ hpair⟩
      exact .inr ⟨arguments, parameters, result, hfunction, hall, rfl⟩

private theorem forall₂_right_unique {α β : Type} {related : α → β → Prop} {items : List α}
    {left right : List β}
    (hleft : List.Forall₂ (fun item other => ∀ another, related item another → other = another)
      items left)
    (hright : List.Forall₂ related items right) : left = right := by
  induction hleft generalizing right with
  | nil =>
      cases hright
      rfl
  | cons hhead _ ih =>
      cases hright with
      | cons hhead' htail => rw [hhead _ hhead', ih htail]

namespace Forest.Lawful

theorem denotes_unique (h : forest.Lawful) {id : SymbolId} {type other : Ty}
    (hid : forest.Denotes id type) (hid' : forest.Denotes id other) : type = other := by
  induction hid generalizing other with
  | primitive kind =>
      rcases hid'.cases_id with ⟨kind', heq, rfl⟩ | ⟨_, _, _, hfunction, -⟩
      · rw [Primitive.Kind.typeId_inj heq]
      · exact absurd hfunction (h.not_isFunction_typeId kind)
  | function hfunction hlength _ ih =>
      rcases hid'.cases_id with ⟨kind, rfl, -⟩ | ⟨_, _, _, hfunction', hall, rfl⟩
      · exact absurd hfunction (h.not_isFunction_typeId kind)
      · obtain ⟨rfl, hresult⟩ := h.isFunction_inj hfunction hfunction'
        rw [Primitive.Kind.map_typeId_inj hresult]
        have hunique := List.forall₂_iff_zip.2 ⟨hlength, fun hpair other => @ih _ hpair other⟩
        rw [forall₂_right_unique hunique hall]

theorem rel_denotes_unique (h : forest.Lawful) {found : Option SymbolId} {type other : Option Ty}
    (htype : Option.Rel forest.Denotes found type)
    (hother : Option.Rel forest.Denotes found other) : type = other := by
  cases htype with
  | none =>
      cases hother
      rfl
  | some hid =>
      cases hother with
      | some hid' => rw [h.denotes_unique hid hid']

theorem names_unique (h : forest.Lawful) {id : SymbolId} {name other : String}
    (hname : forest.Names id name) (hother : forest.Names id other) : name = other := by
  obtain ⟨symbol, hmem, hid, rfl, -⟩ := hname
  obtain ⟨symbol', hmem', hid', rfl, -⟩ := hother
  rw [(h.identified _ h.global_mem _ h.global_mem symbol hmem symbol' hmem'
    (hid.trans hid'.symm)).1]

/-- A function type is named after its signature. -/
theorem name_of_function (h : forest.Lawful) {symbol : Symbol}
    (hmem : symbol ∈ forest.global.symbols) {arguments : List SymbolId}
    {result : Option Primitive.Kind}
    (hvariant : symbol.variant = .function arguments (result.map Primitive.Kind.typeId)) :
    ∃ names, List.Forall₂ forest.Names arguments names ∧
      symbol.name = functionTypeName names (result.map Primitive.Kind.label) := by
  cases h.global_suits hmem with
  | @function _ _ names kind hnames =>
      simp only [Symbol.Variant.function.injEq] at hvariant
      obtain ⟨rfl, hresult⟩ := hvariant
      rw [Primitive.Kind.map_typeId_inj hresult] at *
      exact ⟨names, hnames, rfl⟩
  | primitive kind => simp [Primitive.Kind.typeSymbol] at hvariant
  | native => simp at hvariant
  | var => simp at hvariant

private theorem function_unique (h : forest.Lawful) {id other : SymbolId}
    {arguments : List SymbolId} {result : Option Primitive.Kind}
    (hid : forest.IsFunction id arguments (result.map Primitive.Kind.typeId))
    (hother : forest.IsFunction other arguments (result.map Primitive.Kind.typeId)) :
    id = other := by
  obtain ⟨symbol, hmem, rfl, hvariant⟩ := hid
  obtain ⟨symbol', hmem', rfl, hvariant'⟩ := hother
  obtain ⟨names, hnames, hname⟩ := h.name_of_function hmem hvariant
  obtain ⟨names', hnames', hname'⟩ := h.name_of_function hmem' hvariant'
  have hunique : Relator.RightUnique forest.Names := fun _ _ _ => h.names_unique
  rw [← hunique.forall₂ hnames hnames', ← hname] at hname'
  rw [h.eq_of_name h.global_mem hmem hmem' hname'.symm]

/-- A type has one identity. -/
theorem denotes_injective (h : forest.Lawful) {id other : SymbolId} {type : Ty}
    (hid : forest.Denotes id type) (hid' : forest.Denotes other type) : id = other := by
  induction hid generalizing other with
  | primitive kind =>
      cases hid'
      rfl
  | @function _ arguments parameters _ hfunction hlength _ ih =>
      rcases hid'.cases_id with ⟨_, -, heq⟩ | ⟨arguments', _, _, hfunction', hall, heq⟩
      · simp at heq
      · obtain ⟨rfl, rfl⟩ := Ty.function.inj heq
        have hunique := List.forall₂_iff_zip.2 ⟨hlength, fun hpair other => @ih _ hpair other⟩
        rw [← forall₂_right_unique hunique.flip hall.flip] at hfunction'
        exact h.function_unique hfunction hfunction'

private theorem exists_denotes_all {ids : List SymbolId} {names : List String}
    (hnames : List.Forall₂ forest.Names ids names)
    (h : ∀ name ∈ names, ∀ {id}, forest.Names id name → ∃ type, forest.Denotes id type) :
    ∃ types, List.Forall₂ forest.Denotes ids types := by
  induction hnames with
  | nil => exact ⟨[], .nil⟩
  | cons hhead _ ih =>
      rw [List.forall_mem_cons] at h
      obtain ⟨type, htype⟩ := h.1 hhead
      obtain ⟨types, htypes⟩ := ih h.2
      exact ⟨type :: types, .cons htype htypes⟩

/-- A type that is named stands for a type. -/
theorem exists_denotes_of_name (h : forest.Lawful) {name : String} (hname : TypeName name)
    {id : SymbolId} (hid : forest.Names id name) : ∃ type, forest.Denotes id type := by
  -- Nothing orders the identities of types, but a function type's name contains its arguments'.
  induction hname generalizing id with
  | primitive kind =>
      have hkind : forest.Names kind.typeId kind.label :=
        ⟨kind.typeSymbol, h.primitives kind, rfl, rfl, rfl⟩
      rw [h.names_inj hid hkind]
      exact ⟨_, .primitive kind⟩
  | @function arguments result harguments hresult ih =>
      obtain ⟨symbol, hmem, rfl, hsymbol, htype⟩ := hid
      cases h.global_suits hmem with
      | primitive kind =>
          have hfirst := congrArg String.toList hsymbol
          rw [TypeName.toList_functionTypeName] at hfirst
          cases kind <;> simp [Primitive.Kind.typeSymbol, Primitive.Kind.label] at hfirst
      | @function _ ids names kind hnames hall =>
          obtain ⟨rfl, -⟩ := TypeName.functionTypeName_inj hall harguments
            (fun _ => TypeName.of_label) hresult hsymbol
          obtain ⟨types, htypes⟩ := exists_denotes_all hnames ih
          obtain ⟨hlength, hpairs⟩ := List.forall₂_iff_zip.1 htypes
          exact ⟨_, .function ⟨_, hmem, rfl, rfl⟩ hlength fun pair hpair => hpairs hpair⟩
      | native => simp [Symbol.Variant.isType] at htype
      | var => simp [Symbol.Variant.isType] at htype

private theorem exists_denotes (h : forest.Lawful) {id : SymbolId} (hid : forest.IsType id) :
    ∃ type, forest.Denotes id type := by
  obtain ⟨name, hname⟩ := hid
  exact h.exists_denotes_of_name (h.typeName hname) hname

/-! ## Frames -/

private theorem exists_presents (h : forest.Lawful) {scope : Scope} (hscope : scope ∈ forest.scopes)
    {symbol : Symbol} (hsymbol : symbol ∈ scope.symbols) :
    ∃ entry, forest.Presents symbol.variant entry := by
  cases hvariant : symbol.variant with
  | primitive => exact ⟨_, .primitive⟩
  | function => exact ⟨_, .function⟩
  | var id =>
      obtain ⟨type, htype⟩ := h.exists_denotes (h.isType_of_type? hscope hsymbol
        (by rw [hvariant]; rfl))
      exact ⟨_, .var htype⟩
  | native id =>
      obtain ⟨type, htype⟩ := h.exists_denotes (h.isType_of_type? hscope hsymbol
        (by rw [hvariant]; rfl))
      exact ⟨_, .native htype⟩

private theorem presents_unique (h : forest.Lawful) {variant : Symbol.Variant} {entry other : Entry}
    (hentry : forest.Presents variant entry) (hother : forest.Presents variant other) :
    entry = other := by
  cases hentry with
  | primitive =>
      cases hother
      rfl
  | function =>
      cases hother
      rfl
  | var htype =>
      cases hother with
      | var htype' => rw [h.denotes_unique htype htype']
  | native htype =>
      cases hother with
      | native htype' => rw [h.denotes_unique htype htype']

private theorem lists_unique (h : forest.Lawful) {symbol : Symbol} {listed other : String × Entry}
    (hlisted : forest.Lists symbol listed) (hother : forest.Lists symbol other) :
    listed = other :=
  Prod.ext (hlisted.1.symm.trans hother.1) (h.presents_unique hlisted.2 hother.2)

theorem shows_unique (h : forest.Lawful) {env : Env} {frames other : Frames}
    (hframes : forest.Shows env frames) (hother : forest.Shows env other) : frames = other := by
  have hlists : Relator.RightUnique forest.Lists := fun _ _ _ => h.lists_unique
  exact hlists.forall₂.forall₂ hframes hother

end Forest.Lawful

private theorem exists_forall₂ {α β : Type} {related : α → β → Prop} {items : List α}
    (h : ∀ item ∈ items, ∃ other, related item other) :
    ∃ others, List.Forall₂ related items others := by
  induction items with
  | nil => exact ⟨[], .nil⟩
  | cons item items ih =>
      rw [List.forall_mem_cons] at h
      obtain ⟨other, hother⟩ := h.1
      obtain ⟨others, hothers⟩ := ih h.2
      exact ⟨other :: others, .cons hother hothers⟩

/-- What is visible from the cursor in a lawful forest shows some frames. -/
theorem Scoping.exists_shows {s : Scoping} (h : s.forest.Lawful) : ∃ frames, s.Shows frames := by
  apply exists_forall₂
  intro frame hframe
  obtain ⟨scope, hscope, rfl⟩ := mem_view hframe
  apply exists_forall₂
  intro symbol hsymbol
  obtain ⟨entry, hentry⟩ := h.exists_presents hscope hsymbol
  exact ⟨(symbol.name, entry), rfl, hentry⟩

/-! ## Names in frames -/

def Forest.Finds (forest : Forest) : Option Symbol → Option Entry → Prop :=
  Option.Rel fun symbol entry => forest.Presents symbol.variant entry

theorem Forest.finds_frame {frame : List Symbol} {listed : List (String × Entry)}
    (h : List.Forall₂ forest.Lists frame listed) (name : String) :
    forest.Finds (frame.find? fun symbol => symbol.name = name) (listed.lookup name) := by
  induction h with
  | nil => exact .none
  | @cons symbol pair _ _ hhead _ ih =>
      obtain ⟨other, entry⟩ := pair
      obtain ⟨hname, hpresents⟩ := hhead
      subst hname
      by_cases heq : symbol.name = name
      · rw [List.find?_cons_of_pos (by simpa using heq), heq, List.lookup_cons_self]
        exact .some hpresents
      · rw [List.find?_cons_of_neg (by simpa using heq), List.lookup_cons,
          beq_eq_false_iff_ne.2 (Ne.symm heq)]
        exact ih

theorem Forest.Shows.finds {env : Env} {frames : Frames} (h : forest.Shows env frames)
    (name : String) : forest.Finds (env.resolve name) (frames.find? name) := by
  induction h with
  | nil => exact .none
  | @cons frame listed _ _ hhead _ ih =>
      rw [Env.resolve, Frames.find?, List.findSome?_cons, List.findSome?_cons]
      have hfound := finds_frame hhead name
      generalize (frame.find? fun symbol => symbol.name = name) = found at hfound ⊢
      generalize listed.lookup name = entry at hfound ⊢
      cases hfound with
      | some hpresents => exact .some hpresents
      | none => exact ih

theorem Forest.Presents.type? {variant : Symbol.Variant} {entry : Entry}
    (h : forest.Presents variant entry) :
    Option.Rel forest.Denotes variant.type? entry.type? := by
  cases h with
  | primitive => exact .none
  | function => exact .none
  | var htype => exact .some htype
  | native htype => exact .some htype

end Scriptlet
