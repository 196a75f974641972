import Scriptlet.Annotated.Analysis
import Scriptlet.Proofs.Analysis.Resolution
/-!
# Blocks

A block is analysed in a new scope below the one at the cursor.  Leaving it
brings the cursor back, and the scopes that were there before the block are what
they were, whatever its statements did in the new one.
-/

namespace Scriptlet

namespace Scoping

structure Placed (s : Scoping) : Prop where
  numbered : Forest.Numbered s.forest.scopes
  cursor : ∃ scope, s.forest.get? s.cursor = some scope

/-- The scopes grew in their order, and the cursor did not move. -/
structure Steady (s t : Scoping) : Prop where
  numbered : Forest.Numbered t.forest.scopes
  grown : s.forest.Extends t.forest
  cursor : t.cursor = s.cursor

def Local (s t : Scoping) : Prop :=
  ∀ id scope, id ≠ s.cursor → s.forest.get? id = some scope → t.forest.get? id = some scope

def Kept (s t : Scoping) : Prop :=
  ∀ id scope, s.forest.get? id = some scope → t.forest.get? id = some scope

variable {s t u : Scoping}

theorem Placed.steady (h : s.Placed) : s.Steady s :=
  ⟨h.numbered, Forest.Extends.refl _, rfl⟩

theorem Steady.trans (h : s.Steady t) (h' : t.Steady u) : s.Steady u :=
  ⟨h'.numbered, h.grown.trans h'.grown, h'.cursor.trans h.cursor⟩

theorem Steady.placed (h : s.Steady t) (hs : s.Placed) : t.Placed := by
  obtain ⟨scope, hscope⟩ := hs.cursor
  obtain ⟨scope', hscope', -⟩ := h.grown _ scope hscope
  exact ⟨h.numbered, scope', h.cursor ▸ hscope'⟩

theorem Kept.refl (s : Scoping) : s.Kept s :=
  fun _ _ h => h

theorem Kept.local (h : s.Kept t) : s.Local t :=
  fun id scope _ hget => h id scope hget

theorem Local.trans (h : s.Local t) (h' : t.Local u) (hcursor : t.cursor = s.cursor) :
    s.Local u :=
  fun id scope hne hget => h' id scope (hcursor ▸ hne) (h id scope hne hget)

theorem steady_inserted (hs : s.Placed) (scope : Scope) (name : String)
    (variant : Symbol.Variant) (sort : String) :
    s.Steady (s.inserted scope name variant sort) :=
  ⟨hs.numbered.withSymbol _ _, Forest.extends_withSymbol _ _, rfl⟩

theorem local_inserted {scope : Scope} (hscope : s.forest.get? s.cursor = some scope)
    (name : String) (variant : Symbol.Variant) (sort : String) :
    s.Local (s.inserted scope name variant sort) := by
  intro id other hne hget
  rw [inserted, Forest.id_of_get? hscope]
  dsimp only
  rw [Forest.get?_withSymbol_of_ne hne, hget]

end Scoping

namespace Analysis

variable {s t : Scoping}

def opened (s : Scoping) : Scoping :=
  { forest := s.forest.withScope "block" s.cursor
    cursor := s.forest.nextScope
    log := .entered s.forest.nextScope "block" :: s.log }

theorem placed_opened (hs : s.Placed) : (opened s).Placed := by
  obtain ⟨scope, hscope⟩ := hs.cursor
  exact ⟨hs.numbered.withScope hscope, _, Forest.get?_withScope_self _ _⟩

private theorem kept_opened (hs : s.Placed) : s.Kept (opened s) := by
  intro id scope hget
  rw [opened, Forest.get?_withScope_of_ne (hs.numbered.ne_nextScope hget), hget]

theorem on_enter_opened (s : Scoping) :
    (Scoping.enter s.forest.nextScope).on
      { s with forest := s.forest.withScope "block" s.cursor } = (.ok (), opened s) := by
  rw [Scoping.on_enter (Forest.get?_withScope_self _ _)]
  rfl

theorem on_analyse_block (hs : s.Placed) (statements : List Tree) (token : Option Token) :
    (analyse (.block statements token)).on s =
      (do
        let nodes ← Act.closing Scoping.leave (analyseAll statements)
        return (⟨.block nodes s.forest.nextScope token, none⟩ : Analysed)).on (opened s) := by
  obtain ⟨scope, hscope⟩ := hs.cursor
  rw [analyse, Act.on_bind_of_ok (Act.on_get s), Act.on_bind_of_ok (Scoping.on_plant hscope),
    Act.on_bind_of_ok (on_enter_opened s)]

private theorem view_of_parent_kept (hs : s.Placed) (hn : Forest.Numbered t.forest.scopes)
    (hkept : s.Kept t) {scope : Scope} (hscope : t.forest.get? t.cursor = some scope)
    (hparent : scope.parent = some s.cursor) : t.view = scope.symbols :: s.view := by
  obtain ⟨outer, houter⟩ := hs.cursor
  rw [Scoping.view_of_parent hn hscope hparent, Scoping.view,
    Forest.chainIn_congr hs.numbered hn houter fun id other _ => hkept id other]

theorem view_opened (hs : s.Placed) : (opened s).view = [] :: s.view :=
  view_of_parent_kept hs (placed_opened hs).numbered (kept_opened hs)
    (Forest.get?_withScope_self _ _) rfl

/-- Leaving a block after its statements moves the cursor back. -/
theorem leave_opened (hs : s.Placed) (hsteady : (opened s).Steady t)
    (hlocal : (opened s).Local t) :
    ∃ u scope, Scoping.leave.on t = (.ok (), u) ∧ u.forest = t.forest ∧ s.Steady u ∧ s.Kept u ∧
      u.forest.get? s.forest.nextScope = some scope ∧ scope.parent = some s.cursor ∧
      t.view = scope.symbols :: s.view := by
  obtain ⟨scope, hget, hparent, -⟩ :=
    hsteady.grown s.forest.nextScope _ (Forest.get?_withScope_self _ _)
  have hcurrent : t.forest.get? t.cursor = some scope := by
    rw [hsteady.cursor]
    exact hget
  have hkept : s.Kept t := by
    intro id other hother
    exact hlocal id other (hs.numbered.ne_nextScope hother) (kept_opened hs id other hother)
  have hleave := Scoping.on_leave hcurrent hparent
  refine ⟨_, scope, hleave, rfl, ?_, hkept, hget, hparent, ?_⟩
  · exact ⟨hsteady.numbered, (hs.numbered.extends_withScope _ _).trans hsteady.grown, rfl⟩
  · exact view_of_parent_kept hs hsteady.numbered hkept hcurrent hparent

end Analysis

end Scriptlet
