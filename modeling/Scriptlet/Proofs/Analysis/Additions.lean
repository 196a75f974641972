import Scriptlet.Proofs.Analysis.Preservation
/-!
# Additions of the analysis

The analysis never takes back what it did to the scopes.  The scopes that it adds are those
of blocks, and as long as the others are kept, what is visible from these stays the same.
-/

namespace Scriptlet

open Act (Preserves)

namespace Scoping

variable {s t : Scoping} {id : ScopeId} {scope : Scope}

theorem Kept.chain (h : s.Kept t) (hs : Forest.Numbered s.forest.scopes)
    (ht : Forest.Numbered t.forest.scopes) (hget : s.forest.get? id = some scope) :
    t.forest.chain id = s.forest.chain id := by
  rw [Forest.chain_of_get? hget, Forest.chain_of_get? (h id scope hget),
    Forest.chainIn_congr hs ht hget fun below above _ => h below above]

theorem Kept.lookup (h : s.Kept t) (hs : Forest.Numbered s.forest.scopes)
    (ht : Forest.Numbered t.forest.scopes) (hget : s.forest.get? id = some scope) (name : String) :
    t.forest.lookup id name = s.forest.lookup id name := by
  unfold Forest.lookup
  rw [h.chain hs ht hget]

theorem Kept.of_forest {u : Scoping} (h : s.Kept t) (hforest : u.forest = t.forest) :
    s.Kept u := by
  rw [Kept, hforest]
  exact h

def AddsBlocks (s t : Scoping) : Prop :=
  ∀ id scope, t.forest.get? id = some scope → s.forest.get? id = none → scope.name = "block"

theorem AddsBlocks.of_forest {u : Scoping} (h : s.AddsBlocks t) (hforest : u.forest = t.forest) :
    s.AddsBlocks u := by
  rw [AddsBlocks, hforest]
  exact h

private theorem addsBlocks_enter (id : ScopeId) : Preserves s.AddsBlocks (enter id) := by
  refine .get fun t ht => ?_
  cases t.forest.get? id with
  | none => exact ht
  | some scope => exact ht.of_forest rfl

private theorem addsBlocks_leave : Preserves s.AddsBlocks leave := by
  refine (preserves_current _).bind fun scope => ?_
  cases scope.parent with
  | none => exact .throw _
  | some parent => exact fun _ ht => ht.of_forest rfl

private theorem addsBlocks_plant (parent : ScopeId) :
    Preserves s.AddsBlocks (plant "block" (some parent)) := by
  intro t ht
  cases hget : t.forest.get? parent with
  | none =>
      obtain ⟨failure, hon⟩ := on_plant_unknown hget "block"
      rw [hon]
      exact ht
  | some above =>
      rw [on_plant hget]
      intro id scope hscope hnew
      by_cases hid : id = t.forest.nextScope
      · rw [hid, Forest.get?_withScope_self, Option.some.injEq] at hscope
        rw [← hscope]
      · rw [Forest.get?_withScope_of_ne hid] at hscope
        exact ht id scope hscope hnew

private theorem addsBlocks_declare (name : String) (variant : Symbol.Variant) (span : Span) :
    Preserves s.AddsBlocks (declare name variant span) := by
  refine (preserves_current _).bind fun current => ?_
  cases hfind : current.find? name with
  | some existing => exact .throw _
  | none =>
      intro t ht
      simp only [on_insert hfind]
      intro id scope hscope hnew
      rw [inserted, Forest.get?_withSymbol, Option.map_eq_some_iff] at hscope
      obtain ⟨old, hold, rfl⟩ := hscope
      have hname := ht id old hold hnew
      unfold Scope.pushAt
      split <;> exact hname

theorem upholds_addsBlocks (s : Scoping) : Upholds s.AddsBlocks where
  plant := addsBlocks_plant
  enter := addsBlocks_enter
  leave := addsBlocks_leave
  declare name type span := addsBlocks_declare name (.var type) span

end Scoping

end Scriptlet
