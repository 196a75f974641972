import Scriptlet.Proofs.Scopes.Sound
/-!
# Growing a forest

The two ways in which a forest grows: a new scope below an existing one, and a
new symbol in an existing scope.  Both keep a lawful forest lawful and a sound one
sound.
-/

namespace Scriptlet

def Scope.pushAt (scope : Scope) (id : ScopeId) (symbol : Symbol) : Scope :=
  if scope.id = id then scope.push symbol else scope

@[simp] theorem Scope.pushAt_id (scope : Scope) (id : ScopeId) (symbol : Symbol) :
    (scope.pushAt id symbol).id = scope.id := by
  unfold pushAt
  split <;> rfl

@[simp] theorem Scope.pushAt_parent (scope : Scope) (id : ScopeId) (symbol : Symbol) :
    (scope.pushAt id symbol).parent = scope.parent := by
  unfold pushAt
  split <;> rfl

theorem Scope.mem_pushAt {scope : Scope} {id : ScopeId} {symbol a : Symbol} :
    a ∈ (scope.pushAt id symbol).symbols ↔ a ∈ scope.symbols ∨ scope.id = id ∧ a = symbol := by
  unfold pushAt
  split
  · simp [push, *]
  · simp [*]

namespace Forest

def nextScope (forest : Forest) : ScopeId :=
  ⟨forest.scopes.length + 1⟩

def withScope (forest : Forest) (name : String) (parent : ScopeId) : Forest :=
  { forest with scopes := ⟨forest.nextScope, name, some parent, []⟩ :: forest.scopes }

def newSymbol (forest : Forest) (name : String) (variant : Symbol.Variant) : Symbol :=
  ⟨⟨forest.nextSymbol⟩, name, variant⟩

def withSymbol (forest : Forest) (id : ScopeId) (symbol : Symbol) : Forest where
  scopes := forest.scopes.map fun s => s.pushAt id symbol
  nextSymbol := forest.nextSymbol + 1

variable {forest : Forest}

theorem plant_eq {name : String} {parent : ScopeId} {scope : Scope}
    (h : forest.get? parent = some scope) :
    forest.plant name (some parent) = .ok (forest.nextScope, forest.withScope name parent) := by
  have hcontains : forest.contains parent = true := by rw [contains, h]; rfl
  simp [plant, hcontains, withScope, nextScope]

theorem insert_eq {scope : Scope} {name : String} (h : scope.find? name = none)
    (variant : Symbol.Variant) (sort : String) :
    forest.insert scope name variant sort =
      .ok (forest.newSymbol name variant,
        forest.withSymbol scope.id (forest.newSymbol name variant)) := by
  rw [insert, h]
  rfl

/-! ## A new scope -/

theorem get?_withScope_self (name : String) (parent : ScopeId) :
    (forest.withScope name parent).get? forest.nextScope =
      some ⟨forest.nextScope, name, some parent, []⟩ := by
  simp [get?, withScope]

theorem get?_withScope_of_ne {name : String} {parent id : ScopeId} (h : id ≠ forest.nextScope) :
    (forest.withScope name parent).get? id = forest.get? id := by
  rw [get?, withScope, List.find?_cons_of_neg (by simpa using h.symm), get?]

theorem Numbered.ne_nextScope (h : Numbered forest.scopes) {id : ScopeId} {scope : Scope}
    (hget : forest.get? id = some scope) : id ≠ forest.nextScope := by
  rintro rfl
  have hle := (h.number_mem (mem_of_get? hget)).2
  rw [id_of_get? hget] at hle
  exact Nat.not_succ_le_self _ hle

theorem Numbered.extends_withScope (h : Numbered forest.scopes) (name : String)
    (parent : ScopeId) : Extends forest (forest.withScope name parent) := by
  intro id scope hget
  refine ⟨scope, ?_, rfl, List.prefix_rfl⟩
  rw [get?_withScope_of_ne (h.ne_nextScope hget), hget]

theorem Numbered.withScope (h : Numbered forest.scopes) {name : String} {parent : ScopeId}
    {scope : Scope} (hparent : forest.get? parent = some scope) :
    Numbered (forest.withScope name parent).scopes := by
  have hbound := h.number_mem (mem_of_get? hparent)
  rw [id_of_get? hparent] at hbound
  refine ⟨rfl, ?_, h⟩
  rintro _ ⟨⟩
  exact hbound

theorem mem_withScope {name : String} {parent : ScopeId} {scope : Scope}
    (h : scope ∈ (forest.withScope name parent).scopes) :
    scope ∈ forest.scopes ∨ scope.symbols = [] := by
  rcases List.mem_cons.1 h with rfl | h
  · exact .inr rfl
  · exact .inl h

theorem Lawful.withScope (h : forest.Lawful) {name : String} {parent : ScopeId} {scope : Scope}
    (hparent : forest.get? parent = some scope) : (forest.withScope name parent).Lawful := by
  have hext := h.numbered.extends_withScope name parent
  refine ⟨h.numbered.withScope hparent, ?_, ?_, ?_, ?_, ?_, ?_, ?_⟩
  · obtain ⟨g, hget, hroot⟩ := h.global
    obtain ⟨g', hget', hparent', -⟩ := hext _ g hget
    exact ⟨g', hget', hparent'.trans hroot⟩
  · obtain ⟨r, hget, hroot⟩ := h.repl
    obtain ⟨r', hget', hparent', -⟩ := hext _ r hget
    exact ⟨r', hget', hparent'.trans hroot⟩
  · intro s hs
    rcases mem_withScope hs with hs | hnil
    · exact h.named s hs
    · simp [hnil]
  · intro s hs t ht a ha b hb
    rcases mem_withScope hs with hs | hnil
    · rcases mem_withScope ht with ht | hnil
      · exact h.identified s hs t ht a ha b hb
      · simp [hnil] at hb
    · simp [hnil] at ha
  · intro s hs a ha
    rcases mem_withScope hs with hs | hnil
    · exact h.minted s hs a ha
    · simp [hnil] at ha
  · intro s hs a ha
    rcases mem_withScope hs with hs | hnil
    · exact (h.suits s hs a ha).mono hext
    · simp [hnil] at ha
  · intro kind
    exact hext.global_subset (h.primitives kind)

theorem Sound.withScope (h : forest.Sound) {name : String} {parent : ScopeId} {scope : Scope}
    (hparent : forest.get? parent = some scope) : (forest.withScope name parent).Sound := by
  refine .of_lawful (h.lawful.withScope hparent) ?_
  intro s hs a ha
  rcases mem_withScope hs with hs | hnil
  · exact (h.fits s hs a ha).mono (h.numbered.extends_withScope name parent)
  · simp [hnil] at ha

/-! ## A new symbol -/

theorem get?_withSymbol (id other : ScopeId) (symbol : Symbol) :
    (forest.withSymbol id symbol).get? other =
      (forest.get? other).map fun s => s.pushAt id symbol := by
  simp only [get?, withSymbol, List.find?_map, Function.comp_def, Scope.pushAt_id]

theorem get?_withSymbol_self {id : ScopeId} {scope : Scope} (h : forest.get? id = some scope)
    (symbol : Symbol) : (forest.withSymbol id symbol).get? id = some (scope.push symbol) := by
  rw [get?_withSymbol, h, Option.map_some, Scope.pushAt, if_pos (id_of_get? h)]

theorem get?_withSymbol_of_ne {id other : ScopeId} (h : other ≠ id) (symbol : Symbol) :
    (forest.withSymbol id symbol).get? other = forest.get? other := by
  rw [get?_withSymbol]
  cases hget : forest.get? other with
  | none => rfl
  | some scope =>
      have hne : scope.id ≠ id := by rwa [id_of_get? hget]
      rw [Option.map_some, Scope.pushAt, if_neg hne]

theorem extends_withSymbol (id : ScopeId) (symbol : Symbol) :
    Extends forest (forest.withSymbol id symbol) := by
  intro other scope hget
  refine ⟨scope.pushAt id symbol, ?_, scope.pushAt_parent id symbol, ?_⟩
  · rw [get?_withSymbol, hget, Option.map_some]
  · unfold Scope.pushAt
    split
    · exact List.prefix_append _ _
    · exact List.prefix_rfl

theorem Numbered.withSymbol (h : Numbered forest.scopes) (id : ScopeId) (symbol : Symbol) :
    Numbered (forest.withSymbol id symbol).scopes :=
  h.map (fun s => s.pushAt_id _ _) (fun s => s.pushAt_parent _ _)

theorem Numbered.eq_of_id (h : Numbered forest.scopes) {id : ScopeId} {scope old : Scope}
    (hget : forest.get? id = some scope) (hold : old ∈ forest.scopes) (hid : old.id = id) :
    old = scope := by
  have hsame := get?_of_mem h hold
  rw [hid, hget] at hsame
  exact (Option.some.inj hsame).symm

theorem minted_withSymbol (id : ScopeId) (name : String) (variant : Symbol.Variant)
    (hminted : ∀ s ∈ forest.scopes, ∀ a ∈ s.symbols, a.id.number < forest.nextSymbol) :
    ∀ s ∈ (forest.withSymbol id (forest.newSymbol name variant)).scopes, ∀ a ∈ s.symbols,
      a.id.number < forest.nextSymbol + 1 := by
  intro s hs a ha
  obtain ⟨old, hold, rfl⟩ := List.mem_map.1 hs
  rcases Scope.mem_pushAt.1 ha with ha | ⟨-, rfl⟩
  · exact Nat.lt_succ_of_lt (hminted old hold a ha)
  · exact Nat.lt_succ_self _

theorem named_withSymbol (hn : Numbered forest.scopes) {id : ScopeId} {scope : Scope}
    (hget : forest.get? id = some scope) {name : String} (hfree : scope.find? name = none)
    (variant : Symbol.Variant)
    (hnamed : ∀ s ∈ forest.scopes, (s.symbols.map Symbol.name).Nodup) :
    ∀ s ∈ (forest.withSymbol id (forest.newSymbol name variant)).scopes,
      (s.symbols.map Symbol.name).Nodup := by
  intro s hs
  obtain ⟨old, hold, rfl⟩ := List.mem_map.1 hs
  unfold Scope.pushAt
  by_cases hid : old.id = id
  · obtain rfl := hn.eq_of_id hget hold hid
    rw [if_pos hid, Scope.push, List.map_append]
    refine List.nodup_append.2 ⟨hnamed old hold, List.nodup_singleton _, ?_⟩
    intro other hother new hnew
    obtain ⟨a, ha, rfl⟩ := List.mem_map.1 hother
    have hne : a.name ≠ name := by simpa using List.find?_eq_none.1 hfree a ha
    rw [List.mem_singleton.1 hnew]
    exact hne
  · rw [if_neg hid]
    exact hnamed old hold

theorem identified_withSymbol (hn : Numbered forest.scopes) {id : ScopeId} {scope : Scope}
    (hget : forest.get? id = some scope) (name : String) (variant : Symbol.Variant)
    (hminted : ∀ s ∈ forest.scopes, ∀ a ∈ s.symbols, a.id.number < forest.nextSymbol)
    (hidentified : ∀ s ∈ forest.scopes, ∀ t ∈ forest.scopes, ∀ a ∈ s.symbols, ∀ b ∈ t.symbols,
      a.id = b.id → a = b ∧ s = t) :
    ∀ s ∈ (forest.withSymbol id (forest.newSymbol name variant)).scopes,
      ∀ t ∈ (forest.withSymbol id (forest.newSymbol name variant)).scopes,
      ∀ a ∈ s.symbols, ∀ b ∈ t.symbols, a.id = b.id → a = b ∧ s = t := by
  have hfresh : ∀ s ∈ forest.scopes, ∀ a ∈ s.symbols,
      a.id ≠ (forest.newSymbol name variant).id := by
    intro s hs a ha heq
    have hlt := hminted s hs a ha
    rw [heq] at hlt
    exact Nat.lt_irrefl _ hlt
  intro s hs t ht a ha b hb heq
  obtain ⟨old, hold, rfl⟩ := List.mem_map.1 hs
  obtain ⟨old', hold', rfl⟩ := List.mem_map.1 ht
  rcases Scope.mem_pushAt.1 ha with ha | ⟨hid, rfl⟩
  · rcases Scope.mem_pushAt.1 hb with hb | ⟨hid', rfl⟩
    · obtain ⟨rfl, rfl⟩ := hidentified old hold old' hold' a ha b hb heq
      exact ⟨rfl, rfl⟩
    · exact absurd heq (hfresh old hold a ha)
  · rcases Scope.mem_pushAt.1 hb with hb | ⟨hid', rfl⟩
    · exact absurd heq.symm (hfresh old' hold' b hb)
    · rw [hn.eq_of_id hget hold hid, hn.eq_of_id hget hold' hid']
      exact ⟨rfl, rfl⟩

theorem Lawful.withSymbol (h : forest.Lawful) {id : ScopeId} {scope : Scope}
    (hget : forest.get? id = some scope) {name : String} {variant : Symbol.Variant}
    (hfree : scope.find? name = none) (hsuits : forest.Suits id (forest.newSymbol name variant)) :
    (forest.withSymbol id (forest.newSymbol name variant)).Lawful := by
  have hext : Extends forest (forest.withSymbol id (forest.newSymbol name variant)) :=
    extends_withSymbol _ _
  refine ⟨h.numbered.withSymbol _ _, ?_, ?_, named_withSymbol h.numbered hget hfree variant h.named,
    identified_withSymbol h.numbered hget name variant h.minted h.identified,
    minted_withSymbol id name variant h.minted, ?_, ?_⟩
  · obtain ⟨g, hget, hroot⟩ := h.global
    obtain ⟨g', hget', hparent', -⟩ := hext _ g hget
    exact ⟨g', hget', hparent'.trans hroot⟩
  · obtain ⟨r, hget, hroot⟩ := h.repl
    obtain ⟨r', hget', hparent', -⟩ := hext _ r hget
    exact ⟨r', hget', hparent'.trans hroot⟩
  · intro s hs a ha
    obtain ⟨old, hold, rfl⟩ := List.mem_map.1 hs
    rw [Scope.pushAt_id]
    rcases Scope.mem_pushAt.1 ha with ha | ⟨rfl, rfl⟩
    · exact (h.suits old hold a ha).mono hext
    · exact hsuits.mono hext
  · intro kind
    exact hext.global_subset (h.primitives kind)

theorem Sound.withSymbol (h : forest.Sound) {id : ScopeId} {scope : Scope}
    (hget : forest.get? id = some scope) {name : String} {variant : Symbol.Variant}
    (hfree : scope.find? name = none) (hfits : forest.Fits id (forest.newSymbol name variant)) :
    (forest.withSymbol id (forest.newSymbol name variant)).Sound := by
  refine .of_lawful (h.lawful.withSymbol hget hfree hfits.suits) ?_
  intro s hs a ha
  obtain ⟨old, hold, rfl⟩ := List.mem_map.1 hs
  rw [Scope.pushAt_id]
  rcases Scope.mem_pushAt.1 ha with ha | ⟨rfl, rfl⟩
  · exact (h.fits old hold a ha).mono (extends_withSymbol _ _)
  · exact hfits.mono (extends_withSymbol _ _)

/-! ## The first forest -/

theorem sound_initial : Forest.initial.Sound := by
  refine ⟨⟨rfl, ?_, rfl, ?_, trivial⟩, ⟨_, rfl, rfl⟩, ⟨_, rfl, rfl⟩, by decide, ?_, by decide, ?_,
    ?_⟩
  · rintro _ ⟨⟩
    decide
  · rintro _ ⟨⟩
  · intro s hs t ht a ha b hb heq
    have hs : s = Forest.initial.global := by
      rcases List.mem_cons.1 hs with rfl | hs
      · simp at ha
      · exact List.mem_singleton.1 hs
    have ht : t = Forest.initial.global := by
      rcases List.mem_cons.1 ht with rfl | ht
      · simp at hb
      · exact List.mem_singleton.1 ht
    subst hs ht
    have hinj : ∀ a ∈ Forest.initial.global.symbols, ∀ b ∈ Forest.initial.global.symbols,
        a.id = b.id → a = b := by decide
    exact ⟨hinj a ha b hb heq, rfl⟩
  · intro s hs a ha
    rcases List.mem_cons.1 hs with rfl | hs
    · simp at ha
    · obtain rfl := List.mem_singleton.1 hs
      obtain ⟨kind, -, rfl⟩ := List.mem_map.1 ha
      exact .primitive kind
  · intro kind
    cases kind <;> decide

end Forest

end Scriptlet
