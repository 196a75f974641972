import Scriptlet.Proofs.Scopes.Ordered
/-!
# Well-formed forests

One scope, the global one, is the root of all: every other scope has a parent that
was there before it, so every chain of parents comes to the global scope.  Names are
distinct within a scope and identities in the whole forest.  A forest keeps its
scopes, under their names and parents, and the symbols in them.
-/

namespace Scriptlet

structure Scope.GrowsTo (scope grown : Scope) : Prop where
  id : grown.id = scope.id
  name : grown.name = scope.name
  parent : grown.parent = scope.parent
  symbols : scope.symbols <+: grown.symbols

theorem Scope.GrowsTo.refl (scope : Scope) : scope.GrowsTo scope :=
  ⟨rfl, rfl, rfl, List.prefix_rfl⟩

theorem Scope.GrowsTo.trans {scope grown later : Scope} (h : scope.GrowsTo grown)
    (h' : grown.GrowsTo later) : scope.GrowsTo later :=
  ⟨h'.id.trans h.id, h'.name.trans h.name, h'.parent.trans h.parent, h.symbols.trans h'.symbols⟩

theorem Scope.growsTo_pushAt (scope : Scope) (id : ScopeId) (symbol : Symbol) :
    scope.GrowsTo (scope.pushAt id symbol) := by
  unfold pushAt
  split
  · exact ⟨rfl, rfl, rfl, List.prefix_append _ _⟩
  · exact .refl scope

namespace Forest

/-- The forest has one root, and names and identities are distinct. -/
structure WellFormed (forest : Forest) : Prop where
  numbered : Numbered forest.scopes
  global : ∃ scope, forest.get? globalId = some scope ∧ scope.parent = none
  rooted : ∀ scope ∈ forest.scopes, scope.parent = none → scope.id = globalId
  named : ∀ scope ∈ forest.scopes, (scope.symbols.map Symbol.name).Nodup
  identified : ∀ scope ∈ forest.scopes, ∀ other ∈ forest.scopes, ∀ a ∈ scope.symbols,
    ∀ b ∈ other.symbols, a.id = b.id → a = b ∧ scope = other
  minted : ∀ scope ∈ forest.scopes, ∀ a ∈ scope.symbols, a.id.number < forest.nextSymbol

/-- Every scope of the forest is in the other one, perhaps with more symbols. -/
def GrowsTo (forest grown : Forest) : Prop :=
  ∀ scope ∈ forest.scopes, ∃ scope' ∈ grown.scopes, scope.GrowsTo scope'

variable {forest grown later : Forest}

/-! ## Growth -/

theorem GrowsTo.refl (forest : Forest) : forest.GrowsTo forest :=
  fun scope hscope => ⟨scope, hscope, .refl scope⟩

theorem GrowsTo.trans (h : forest.GrowsTo grown) (h' : grown.GrowsTo later) :
    forest.GrowsTo later := by
  intro scope hscope
  obtain ⟨scope', hscope', hgrows⟩ := h scope hscope
  obtain ⟨scope'', hscope'', hgrows'⟩ := h' scope' hscope'
  exact ⟨scope'', hscope'', hgrows.trans hgrows'⟩

theorem GrowsTo.extends (h : forest.GrowsTo grown) (hn : Numbered grown.scopes) :
    forest.Extends grown := by
  intro id scope hget
  obtain ⟨scope', hscope', hgrows⟩ := h scope (mem_of_get? hget)
  have hget' := get?_of_mem hn hscope'
  rw [hgrows.id, id_of_get? hget] at hget'
  exact ⟨scope', hget', hgrows.parent, hgrows.symbols⟩

private theorem growsTo_withScope (forest : Forest) (name : String) (parent : ScopeId) :
    forest.GrowsTo (forest.withScope name parent) :=
  fun scope hscope => ⟨scope, List.mem_cons_of_mem _ hscope, .refl scope⟩

private theorem growsTo_withSymbol (forest : Forest) (id : ScopeId) (symbol : Symbol) :
    forest.GrowsTo (forest.withSymbol id symbol) :=
  fun scope hscope =>
    ⟨scope.pushAt id symbol, List.mem_map_of_mem hscope, scope.growsTo_pushAt id symbol⟩

/-! ## Chains and look-up -/

theorem wellFormed_initial : Forest.initial.WellFormed :=
  ⟨sound_initial.numbered, sound_initial.global, by decide, sound_initial.named,
    sound_initial.identified, sound_initial.minted⟩

namespace WellFormed

theorem global_eq (h : forest.WellFormed) : forest.get? globalId = some forest.global := by
  obtain ⟨scope, hget, -⟩ := h.global
  rw [Forest.global, hget, Option.getD_some]

/-- Every scope but the global one has a parent, which was there before it. -/
theorem exists_older_parent (h : forest.WellFormed) {scope : Scope} (hscope : scope ∈ forest.scopes)
    (hid : scope.id ≠ globalId) :
    ∃ above ∈ forest.scopes, scope.parent = some above.id ∧
      above.id.number < scope.id.number := by
  cases hparent : scope.parent with
  | none => exact absurd (h.rooted scope hscope hparent) hid
  | some parent =>
      obtain ⟨above, habove⟩ := exists_parent h.numbered (get?_of_mem h.numbered hscope) hparent
      have hlt := (h.numbered.parent_lt hscope hparent).2
      refine ⟨above, mem_of_get? habove, ?_, ?_⟩
      · rw [id_of_get? habove]
      · rwa [id_of_get? habove]

/-- The chain of a scope goes from each scope to its parent and comes to the global scope. -/
theorem exists_chain (h : forest.WellFormed) {id : ScopeId} {scope : Scope}
    (hget : forest.get? id = some scope) :
    ∃ rest, chainIn forest.scopes id = scope :: rest ∧
      (scope :: rest).IsChain (fun below above => below.parent = some above.id) ∧
      (scope :: rest).getLast? = some forest.global := by
  induction hnumber : id.number using Nat.strongRecOn generalizing id scope with
  | _ number ih =>
      rw [chainIn_of_get? h.numbered hget]
      cases hparent : scope.parent with
      | none =>
          have hid := h.rooted scope (mem_of_get? hget) hparent
          rw [id_of_get? hget] at hid
          subst hid
          rw [h.global_eq] at hget
          obtain rfl := Option.some.inj hget
          exact ⟨[], rfl, .singleton _, rfl⟩
      | some parent =>
          obtain ⟨above, habove⟩ := exists_parent h.numbered hget hparent
          have hlt := (h.numbered.parent_lt (mem_of_get? hget) hparent).2
          rw [id_of_get? hget, hnumber] at hlt
          obtain ⟨rest, hchain, hlinked, hlast⟩ := ih parent.number hlt habove rfl
          refine ⟨above :: rest, ?_, .cons_cons ?_ hlinked, ?_⟩
          · rw [Option.elim_some, hchain]
          · rw [hparent, id_of_get? habove]
          · rw [List.getLast?_cons_cons]
            exact hlast

/-- A symbol that is found by its identity is found in every grown forest. -/
theorem lookupId_of_growsTo (h : forest.WellFormed) (h' : grown.WellFormed)
    (hgrows : forest.GrowsTo grown) {id : ScopeId} {identity : SymbolId} {symbol : Symbol}
    (hfound : forest.lookupId id identity = .ok (some symbol)) :
    grown.lookupId id identity = .ok (some symbol) := by
  cases hget : forest.get? id with
  | none => simp [lookupId, chain, Forest.get, hget, bind, Except.bind] at hfound
  | some scope =>
      rw [lookupId_of_get? hget, Except.ok.injEq] at hfound
      obtain ⟨owner, howner, hsymbol⟩ := List.exists_of_findSome?_eq_some hfound
      have hidentity : symbol.id = identity := by simpa using List.find?_some hsymbol
      have hvisible : forest.Visible id symbol :=
        ⟨owner, howner, List.mem_of_find?_eq_some hsymbol⟩
      have hext := hgrows.extends h'.numbered
      obtain ⟨scope', hget', -⟩ := hext id scope hget
      rw [← hidentity]
      exact lookupId_of_visible h'.identified hget'
        (hext.visible h.numbered h'.numbered hget hvisible)

/-! ## Growth keeps a forest well formed -/

theorem withScope (h : forest.WellFormed) (name : String) {parent : ScopeId} {scope : Scope}
    (hparent : forest.get? parent = some scope) : (forest.withScope name parent).WellFormed := by
  refine ⟨h.numbered.withScope hparent, ?_, ?_, ?_, ?_, ?_⟩
  · obtain ⟨g, hget, hroot⟩ := h.global
    exact ⟨g, by rw [get?_withScope_of_ne (h.numbered.ne_nextScope hget), hget], hroot⟩
  · intro s hs hnone
    rcases List.mem_cons.1 hs with rfl | hs
    · simp at hnone
    · exact h.rooted s hs hnone
  · intro s hs
    rcases mem_withScope hs with hs | hnil
    · exact h.named s hs
    · simp [hnil]
  · intro s hs t ht a ha b hb
    rcases mem_withScope hs with hs | hnil
    · rcases mem_withScope ht with ht | hnil
      · exact h.identified s hs t ht a ha b hb
      · simp [hnil] at hb
    · simp [hnil] at ha
  · intro s hs a ha
    rcases mem_withScope hs with hs | hnil
    · exact h.minted s hs a ha
    · simp [hnil] at ha

theorem withSymbol (h : forest.WellFormed) {id : ScopeId} {scope : Scope}
    (hget : forest.get? id = some scope) {name : String} (hfree : scope.find? name = none)
    (variant : Symbol.Variant) :
    (forest.withSymbol id (forest.newSymbol name variant)).WellFormed := by
  refine ⟨h.numbered.withSymbol _ _, ?_, ?_, named_withSymbol h.numbered hget hfree variant h.named,
    identified_withSymbol h.numbered hget name variant h.minted h.identified,
    minted_withSymbol id name variant h.minted⟩
  · obtain ⟨g, hget, hroot⟩ := h.global
    obtain ⟨g', hget', hparent', -⟩ := extends_withSymbol id _ _ g hget
    exact ⟨g', hget', hparent'.trans hroot⟩
  · intro s hs hnone
    obtain ⟨old, hold, rfl⟩ := List.mem_map.1 hs
    rw [Scope.pushAt_parent] at hnone
    rw [Scope.pushAt_id]
    exact h.rooted old hold hnone

end WellFormed

end Forest

namespace Scoping

open Act (Preserves)

/-- The scopes are well formed and have grown from those of the given forest, and the cursor stands
on one of them. -/
structure Grown (base : Forest) (s : Scoping) : Prop where
  wellFormed : s.forest.WellFormed
  grown : base.GrowsTo s.forest
  cursor : ∃ scope, s.forest.get? s.cursor = some scope

variable {base : Forest} {s : Scoping}

theorem grown_initial : Scoping.initial.Grown .initial :=
  ⟨Forest.wellFormed_initial, .refl _, _, rfl⟩

theorem Grown.self (hs : s.Grown base) : s.Grown s.forest :=
  ⟨hs.wellFormed, .refl _, hs.cursor⟩

theorem Grown.moved (hs : s.Grown base) {t : Scoping} {scope : Scope}
    (hforest : t.forest = s.forest)
    (hscope : s.forest.get? t.cursor = some scope) : t.Grown base := by
  refine ⟨?_, ?_, scope, ?_⟩ <;> rw [hforest]
  exacts [hs.wellFormed, hs.grown, hscope]

theorem Grown.inserted (hs : s.Grown base) {id : ScopeId} {scope : Scope}
    (hget : s.forest.get? id = some scope) {name : String} (hfree : scope.find? name = none)
    (variant : Symbol.Variant) (sort : String) :
    (s.inserted scope name variant sort).Grown base := by
  have hid := Forest.id_of_get? hget
  subst hid
  obtain ⟨current, hcurrent⟩ := hs.cursor
  obtain ⟨current', hcurrent', -⟩ := Forest.extends_withSymbol scope.id
    (s.forest.newSymbol name variant) _ current hcurrent
  exact ⟨hs.wellFormed.withSymbol hget hfree variant,
    hs.grown.trans (s.forest.growsTo_withSymbol _ _), current', hcurrent'⟩

theorem grown_enter (id : ScopeId) : Preserves (Grown base) (enter id) := by
  intro s hs
  cases hget : s.forest.get? id with
  | none =>
      rw [on_enter_unknown hget]
      exact hs
  | some scope =>
      rw [on_enter hget]
      exact hs.moved rfl hget

theorem grown_leave : Preserves (Grown base) leave := by
  intro s hs
  obtain ⟨scope, hscope⟩ := hs.cursor
  cases hparent : scope.parent with
  | none =>
      rw [on_leave_root hscope hparent]
      exact hs
  | some parent =>
      obtain ⟨above, habove⟩ := Forest.exists_parent hs.wellFormed.numbered hscope hparent
      rw [on_leave hscope hparent]
      exact hs.moved rfl habove

theorem grown_plant (name : String) (parent : ScopeId) :
    Preserves (Grown base) (plant name (some parent)) := by
  intro s hs
  cases hget : s.forest.get? parent with
  | none =>
      obtain ⟨failure, hon⟩ := on_plant_unknown hget name
      rw [hon]
      exact hs
  | some scope =>
      obtain ⟨current, hcurrent⟩ := hs.cursor
      have hne := hs.wellFormed.numbered.ne_nextScope hcurrent
      rw [on_plant hget]
      exact ⟨hs.wellFormed.withScope name hget,
        hs.grown.trans (s.forest.growsTo_withScope name parent), current,
        (Forest.get?_withScope_of_ne hne).trans hcurrent⟩

theorem grown_declare (name : String) (variant : Symbol.Variant) (span : Span) :
    Preserves (Grown base) (declare name variant span) := by
  intro s hs
  obtain ⟨scope, hscope⟩ := hs.cursor
  cases hfind : scope.find? name with
  | some existing =>
      obtain ⟨diagnostic, hon, -⟩ := on_declare_taken hscope hfind variant span
      rw [hon]
      exact hs
  | none =>
      rw [on_declare hscope hfind]
      exact hs.inserted hscope hfind variant _

end Scoping

end Scriptlet
