import Scriptlet.Proofs.Act.Preservation
import Scriptlet.Proofs.Scopes.Cursor
/-!
# Ordered scopes

Whatever is done to the scopes, they are numbered in the order of their creation,
no identity is given to two symbols, and the cursor stands on one of them.  Names,
types and the place of the cursor do not matter here.
-/

namespace Scriptlet.Scoping

open Act (Preserves)

/-- The scopes have grown in their order from those of the given forest, the next symbol is a new
one, and the cursor stands on one of the scopes. -/
structure Ordered (base : Forest) (s : Scoping) : Prop where
  numbered : Forest.Numbered s.forest.scopes
  grown : base.Extends s.forest
  minted : ∀ scope ∈ s.forest.scopes, ∀ symbol ∈ scope.symbols,
    symbol.id.number < s.forest.nextSymbol
  cursor : ∃ scope, s.forest.get? s.cursor = some scope

variable {base : Forest} {s : Scoping}

theorem ordered_initial : Scoping.initial.Ordered .initial :=
  ⟨Forest.sound_initial.numbered, .refl _, Forest.sound_initial.minted, _, rfl⟩

namespace Ordered

/-- Growth may be counted from any later state on. -/
theorem self (hs : s.Ordered base) : s.Ordered s.forest :=
  ⟨hs.numbered, .refl _, hs.minted, hs.cursor⟩

theorem exists_repl (hs : s.Ordered .initial) :
    ∃ repl, s.forest.get? Forest.replId = some repl ∧ repl.parent = some Forest.globalId := by
  obtain ⟨repl, hrepl, hparent, -⟩ := hs.grown Forest.replId _ rfl
  exact ⟨repl, hrepl, hparent⟩

theorem exists_global (hs : s.Ordered .initial) :
    ∃ global, s.forest.get? Forest.globalId = some global ∧ global.parent = none := by
  obtain ⟨global, hglobal, hparent, -⟩ := hs.grown Forest.globalId _ rfl
  exact ⟨global, hglobal, hparent⟩

theorem moved (hs : s.Ordered base) {t : Scoping} {scope : Scope} (hforest : t.forest = s.forest)
    (hscope : s.forest.get? t.cursor = some scope) : t.Ordered base := by
  refine ⟨?_, ?_, ?_, scope, ?_⟩ <;> rw [hforest]
  exacts [hs.numbered, hs.grown, hs.minted, hscope]

theorem planted (hs : s.Ordered base) (name : String) {parent : Option ScopeId}
    (hparent : ∀ known, parent = some known → ∃ scope, s.forest.get? known = some scope) :
    ({ s with forest := { s.forest with
        scopes := ⟨s.forest.nextScope, name, parent, []⟩ :: s.forest.scopes } } :
      Scoping).Ordered base := by
  have hext : s.forest.Extends { s.forest with
      scopes := ⟨s.forest.nextScope, name, parent, []⟩ :: s.forest.scopes } := by
    intro id scope hget
    refine ⟨scope, ?_, rfl, List.prefix_rfl⟩
    have hne := (hs.numbered.ne_nextScope hget).symm
    rw [Forest.get?, List.find?_cons_of_neg (by simpa using hne)]
    exact hget
  obtain ⟨scope, hscope⟩ := hs.cursor
  obtain ⟨scope', hscope', -⟩ := hext _ scope hscope
  refine ⟨⟨rfl, ?_, hs.numbered⟩, hs.grown.trans hext, ?_, scope', hscope'⟩
  · intro known hknown
    obtain ⟨above, habove⟩ := hparent known hknown
    have hbound := hs.numbered.number_mem (Forest.mem_of_get? habove)
    rwa [Forest.id_of_get? habove] at hbound
  · intro scope hmem symbol hsymbol
    rcases List.mem_cons.1 hmem with rfl | hmem
    · simp at hsymbol
    · exact hs.minted scope hmem symbol hsymbol

theorem inserted (hs : s.Ordered base) (scope : Scope) (name : String) (variant : Symbol.Variant)
    (sort : String) : (s.inserted scope name variant sort).Ordered base := by
  have hext : s.forest.Extends (s.inserted scope name variant sort).forest :=
    Forest.extends_withSymbol _ _
  obtain ⟨current, hcurrent⟩ := hs.cursor
  obtain ⟨current', hcurrent', -⟩ := hext _ current hcurrent
  exact ⟨hs.numbered.withSymbol _ _, hs.grown.trans hext,
    Forest.minted_withSymbol scope.id name variant hs.minted, current', hcurrent'⟩

end Ordered

/-! ## Acts -/

theorem ordered_enter (id : ScopeId) : Preserves (Ordered base) (enter id) := by
  intro s hs
  cases hget : s.forest.get? id with
  | none =>
      rw [on_enter_unknown hget]
      exact hs
  | some scope =>
      rw [on_enter hget]
      exact hs.moved rfl hget

theorem ordered_leave : Preserves (Ordered base) leave := by
  intro s hs
  obtain ⟨scope, hscope⟩ := hs.cursor
  cases hparent : scope.parent with
  | none =>
      rw [on_leave_root hscope hparent]
      exact hs
  | some parent =>
      obtain ⟨above, habove⟩ := Forest.exists_parent hs.numbered hscope hparent
      rw [on_leave hscope hparent]
      exact hs.moved rfl habove

theorem on_plant_unknown {parent : ScopeId} (h : s.forest.get? parent = none) (name : String) :
    ∃ failure, (plant name (some parent)).on s = (.error failure, s) := by
  have hcontains : s.forest.contains parent = false := by rw [Forest.contains, h]; rfl
  unfold plant
  rw [Act.on_bind_of_ok (Act.on_get s)]
  simp only [Forest.plant, hcontains]
  exact ⟨_, rfl⟩

theorem ordered_plant (name : String) (parent : Option ScopeId) :
    Preserves (Ordered base) (plant name parent) := by
  intro s hs
  cases parent with
  | none => exact hs.planted name (by simp)
  | some known =>
      cases hget : s.forest.get? known with
      | none =>
          obtain ⟨failure, hon⟩ := on_plant_unknown hget name
          rw [hon]
          exact hs
      | some scope =>
          rw [on_plant hget]
          refine hs.planted name ?_
          rintro _ ⟨⟩
          exact ⟨scope, hget⟩

theorem on_insert_taken {scope : Scope} {name : String} {existing : Symbol}
    (h : scope.find? name = some existing) (variant : Symbol.Variant) (sort : String)
    (s : Scoping) : ∃ failure, (insert scope name variant sort).on s = (.error failure, s) := by
  have hrefused : ∃ failure, s.forest.insert scope name variant sort = .error failure :=
    ⟨_, by rw [Forest.insert, h]⟩
  obtain ⟨failure, hrefused⟩ := hrefused
  refine ⟨failure, ?_⟩
  unfold insert
  rw [Act.on_bind_of_ok (Act.on_get s), Act.on_bind_of_error (by
    rw [Act.on_ofExcept, hrefused])]

theorem ordered_insert (scope : Scope) (name : String) (variant : Symbol.Variant)
    (sort : String) : Preserves (Ordered base) (insert scope name variant sort) := by
  intro s hs
  cases hfind : scope.find? name with
  | none =>
      rw [on_insert hfind]
      exact hs.inserted scope name variant sort
  | some existing =>
      obtain ⟨failure, hon⟩ := on_insert_taken hfind variant sort s
      rw [hon]
      exact hs

theorem preserves_current (kept : Scoping → Prop) : Preserves kept current :=
  .get fun _ hs => hs

theorem ordered_declare (name : String) (variant : Symbol.Variant) (span : Span) :
    Preserves (Ordered base) (declare name variant span) := by
  refine (preserves_current _).bind fun scope => ?_
  cases scope.find? name with
  | some existing => exact .throw _
  | none => exact ordered_insert scope name variant _

end Scriptlet.Scoping
