import Scriptlet.Scope
/-!
# The shape of the forest

Scopes are numbered in the order of their creation and a parent is older than
its children, so walking up a chain ends.  A forest grows by new scopes and by
symbols at the end of old ones; what was visible from a scope stays visible.
-/

namespace Scriptlet.Forest

/-- Scopes, the newest first, bear the numbers from one on, and parents are
older than their children. -/
def Numbered : List Scope → Prop
  | [] => True
  | scope :: older =>
    scope.id = ⟨older.length + 1⟩ ∧
      (∀ parent, scope.parent = some parent → 0 < parent.number ∧ parent.number ≤ older.length) ∧
      Numbered older

/-- A symbol that can be seen from a scope: it stands in the scope or in one of
its ancestors. -/
def Visible (forest : Forest) (id : ScopeId) (symbol : Symbol) : Prop :=
  ∃ scope ∈ chainIn forest.scopes id, symbol ∈ scope.symbols

/-- A forest that has all scopes of another one, under the same parents, with
their symbols and perhaps some more after them. -/
def Extends (forest grown : Forest) : Prop :=
  ∀ id scope, forest.get? id = some scope →
    ∃ scope', grown.get? id = some scope' ∧ scope'.parent = scope.parent ∧
      scope.symbols <+: scope'.symbols

/-! ## Numbers -/

namespace Numbered

variable {scopes : List Scope} {scope : Scope}

theorem number_mem (h : Numbered scopes) (hscope : scope ∈ scopes) :
    0 < scope.id.number ∧ scope.id.number ≤ scopes.length := by
  induction scopes with
  | nil => simp at hscope
  | cons newest older ih =>
      obtain ⟨hid, -, holder⟩ := h
      rcases List.mem_cons.1 hscope with rfl | hmem
      · rw [hid]
        exact ⟨Nat.succ_pos _, Nat.le_refl _⟩
      · have := ih holder hmem
        exact ⟨this.1, Nat.le_succ_of_le this.2⟩

theorem parent_lt (h : Numbered scopes) (hscope : scope ∈ scopes) {parent : ScopeId}
    (hparent : scope.parent = some parent) :
    0 < parent.number ∧ parent.number < scope.id.number := by
  induction scopes with
  | nil => simp at hscope
  | cons newest older ih =>
      obtain ⟨hid, hbound, holder⟩ := h
      rcases List.mem_cons.1 hscope with rfl | hmem
      · rw [hid]
        exact ⟨(hbound parent hparent).1, Nat.lt_succ_of_le (hbound parent hparent).2⟩
      · exact ih holder hmem

theorem find?_of_mem (h : Numbered scopes) (hscope : scope ∈ scopes) :
    scopes.find? (fun s => s.id = scope.id) = some scope := by
  induction scopes with
  | nil => simp at hscope
  | cons newest older ih =>
      obtain ⟨hid, -, holder⟩ := h
      rcases List.mem_cons.1 hscope with rfl | hmem
      · simp
      · have hbound := holder.number_mem hmem
        have hne : newest.id ≠ scope.id := by
          intro heq
          rw [← heq, hid] at hbound
          exact Nat.not_succ_le_self _ hbound.2
        rw [List.find?_cons_of_neg (by simpa using hne)]
        exact ih holder hmem

theorem exists_find? (h : Numbered scopes) {id : ScopeId} (hpos : 0 < id.number)
    (hle : id.number ≤ scopes.length) :
    ∃ scope, scopes.find? (fun s => s.id = id) = some scope := by
  induction scopes with
  | nil =>
      rw [List.length_nil] at hle
      omega
  | cons newest older ih =>
      obtain ⟨hid, -, holder⟩ := h
      by_cases heq : newest.id = id
      · exact ⟨newest, List.find?_cons_of_pos (by simpa using heq)⟩
      · rw [List.find?_cons_of_neg (by simpa using heq)]
        apply ih holder
        have hne : id.number ≠ older.length + 1 := by
          intro hnumber
          apply heq
          rw [hid, ← hnumber]
        rw [List.length_cons] at hle
        omega

theorem map (h : Numbered scopes) {f : Scope → Scope} (hid : ∀ s, (f s).id = s.id)
    (hparent : ∀ s, (f s).parent = s.parent) : Numbered (scopes.map f) := by
  induction scopes with
  | nil => trivial
  | cons newest older ih =>
      obtain ⟨hnumber, hbound, holder⟩ := h
      refine ⟨?_, ?_, ih holder⟩
      · rw [hid, hnumber, List.length_map]
      · intro parent hp
        rw [hparent] at hp
        rw [List.length_map]
        exact hbound parent hp

theorem chainIn_cons {newest : Scope} {older : List Scope} (h : Numbered (newest :: older))
    {id : ScopeId} (hid : id.number ≤ older.length) :
    chainIn (newest :: older) id = chainIn older id := by
  have hne : newest.id ≠ id := by
    intro heq
    rw [← heq, h.1] at hid
    exact Nat.not_succ_le_self _ hid
  rw [chainIn, if_neg hne]

theorem chainIn_of_find? (h : Numbered scopes) {id : ScopeId}
    (hfind : scopes.find? (fun s => s.id = id) = some scope) :
    chainIn scopes id = scope :: (scope.parent.elim [] (chainIn scopes)) := by
  induction scopes with
  | nil => simp at hfind
  | cons newest older ih =>
      obtain ⟨hid, hbound, holder⟩ := h
      by_cases heq : newest.id = id
      · rw [List.find?_cons_of_pos (by simpa using heq), Option.some.injEq] at hfind
        subst hfind
        rw [chainIn, if_pos heq]
        cases hp : newest.parent with
        | none => rfl
        | some parent =>
            have hle := (hbound parent hp).2
            simp only [Option.elim_some, chainIn_cons ⟨hid, hbound, holder⟩ hle]
      · rw [List.find?_cons_of_neg (by simpa using heq)] at hfind
        rw [chainIn, if_neg heq, ih holder hfind]
        cases hp : scope.parent with
        | none => rfl
        | some parent =>
            have hmem := List.mem_of_find?_eq_some hfind
            have hparent := (holder.parent_lt hmem hp).2
            have hscope := (holder.number_mem hmem).2
            have hle : parent.number ≤ older.length := by omega
            simp only [Option.elim_some, chainIn_cons ⟨hid, hbound, holder⟩ hle]

end Numbered

/-! ## Look-up by identity -/

theorem id_of_get? {forest : Forest} {id : ScopeId} {scope : Scope}
    (h : forest.get? id = some scope) : scope.id = id := by
  simpa using List.find?_some h

theorem mem_of_get? {forest : Forest} {id : ScopeId} {scope : Scope}
    (h : forest.get? id = some scope) : scope ∈ forest.scopes :=
  List.mem_of_find?_eq_some h

theorem get?_of_mem {forest : Forest} (hn : Numbered forest.scopes) {scope : Scope}
    (h : scope ∈ forest.scopes) : forest.get? scope.id = some scope :=
  hn.find?_of_mem h

theorem get_of_get? {forest : Forest} {id : ScopeId} {scope : Scope}
    (h : forest.get? id = some scope) : forest.get id = .ok scope := by
  rw [get, h]

theorem exists_parent {forest : Forest} (hn : Numbered forest.scopes) {id parent : ScopeId}
    {scope : Scope} (h : forest.get? id = some scope) (hparent : scope.parent = some parent) :
    ∃ above, forest.get? parent = some above := by
  have hmem := mem_of_get? h
  have hlt := hn.parent_lt hmem hparent
  have hle := (hn.number_mem hmem).2
  exact hn.exists_find? hlt.1 (by omega)

/-! ## Chains -/

theorem chainIn_of_get? {forest : Forest} (hn : Numbered forest.scopes) {id : ScopeId}
    {scope : Scope} (h : forest.get? id = some scope) :
    chainIn forest.scopes id = scope :: (scope.parent.elim [] (chainIn forest.scopes)) :=
  hn.chainIn_of_find? h

theorem chain_of_get? {forest : Forest} {id : ScopeId} {scope : Scope}
    (h : forest.get? id = some scope) : forest.chain id = .ok (chainIn forest.scopes id) := by
  unfold chain
  rw [get_of_get? h]
  rfl

theorem lookup_of_get? {forest : Forest} {id : ScopeId} {scope : Scope}
    (h : forest.get? id = some scope) (name : String) :
    forest.lookup id name =
      .ok ((chainIn forest.scopes id).findSome? fun s => s.find? name) := by
  unfold lookup
  rw [chain_of_get? h]
  rfl

theorem lookupId_of_get? {forest : Forest} {id : ScopeId} {scope : Scope}
    (h : forest.get? id = some scope) (symbol : SymbolId) :
    forest.lookupId id symbol =
      .ok ((chainIn forest.scopes id).findSome? fun s => s.get? symbol) := by
  unfold lookupId
  rw [chain_of_get? h]
  rfl

theorem mem_scopes_of_mem_chainIn {scopes : List Scope} {id : ScopeId} {scope : Scope}
    (h : scope ∈ chainIn scopes id) : scope ∈ scopes := by
  induction scopes generalizing id with
  | nil => simp [chainIn] at h
  | cons newest older ih =>
      rw [chainIn] at h
      split at h
      · split at h
        · rw [List.mem_singleton] at h
          exact h ▸ List.mem_cons_self
        · rcases List.mem_cons.1 h with rfl | hmem
          · exact List.mem_cons_self
          · exact List.mem_cons_of_mem _ (ih hmem)
      · exact List.mem_cons_of_mem _ (ih h)

theorem visible_of_lookup {forest : Forest} {id : ScopeId} {scope : Scope}
    (h : forest.get? id = some scope) {name : String} {symbol : Symbol}
    (hlookup : forest.lookup id name = .ok (some symbol)) :
    forest.Visible id symbol ∧ symbol.name = name := by
  rw [lookup_of_get? h, Except.ok.injEq] at hlookup
  obtain ⟨above, hmem, hfind⟩ := List.exists_of_findSome?_eq_some hlookup
  refine ⟨⟨above, hmem, List.mem_of_find?_eq_some hfind⟩, ?_⟩
  simpa using List.find?_some hfind

theorem Visible.of_mem {forest : Forest} (hn : Numbered forest.scopes) {id : ScopeId}
    {scope : Scope} (h : forest.get? id = some scope) {symbol : Symbol}
    (hsymbol : symbol ∈ scope.symbols) : forest.Visible id symbol := by
  refine ⟨scope, ?_, hsymbol⟩
  rw [chainIn_of_get? hn h]
  exact List.mem_cons_self

/-- A visible symbol is found by its identity, if no other one has the same identity. -/
theorem lookupId_of_visible {forest : Forest}
    (hidentified : ∀ scope ∈ forest.scopes, ∀ other ∈ forest.scopes, ∀ a ∈ scope.symbols,
      ∀ b ∈ other.symbols, a.id = b.id → a = b ∧ scope = other)
    {id : ScopeId} {scope : Scope} (hget : forest.get? id = some scope) {symbol : Symbol}
    (hvisible : forest.Visible id symbol) :
    forest.lookupId id symbol.id = .ok (some symbol) := by
  obtain ⟨owner, howner, hsymbol⟩ := hvisible
  rw [lookupId_of_get? hget]
  cases hfind : (chainIn forest.scopes id).findSome? fun s => s.get? symbol.id with
  | none =>
      have hnone := List.findSome?_eq_none_iff.1 hfind owner howner
      have := List.find?_eq_none.1 hnone symbol hsymbol
      simp at this
  | some other =>
      obtain ⟨scope', hscope', hother⟩ := List.exists_of_findSome?_eq_some hfind
      have hid : other.id = symbol.id := by simpa using List.find?_some hother
      rw [(hidentified scope' (mem_scopes_of_mem_chainIn hscope') owner
        (mem_scopes_of_mem_chainIn howner) other (List.mem_of_find?_eq_some hother) symbol hsymbol
        hid).1]

/-! ## Growth -/

namespace Extends

variable {forest grown later : Forest}

theorem refl (forest : Forest) : Extends forest forest :=
  fun _ scope h => ⟨scope, h, rfl, List.prefix_rfl⟩

theorem trans (h : Extends forest grown) (h' : Extends grown later) : Extends forest later := by
  intro id scope hget
  obtain ⟨scope', hget', hparent', hsymbols'⟩ := h id scope hget
  obtain ⟨scope'', hget'', hparent'', hsymbols''⟩ := h' id scope' hget'
  exact ⟨scope'', hget'', hparent''.trans hparent', hsymbols'.trans hsymbols''⟩

/-- What is seen from a scope is still seen from it in a grown forest. -/
theorem visible (h : Extends forest grown) (hn : Numbered forest.scopes)
    (hn' : Numbered grown.scopes) {id : ScopeId} {scope : Scope}
    (hget : forest.get? id = some scope) {symbol : Symbol} (hvisible : forest.Visible id symbol) :
    grown.Visible id symbol := by
  -- Walking up decreases the number of the scope.
  induction hnumber : id.number using Nat.strongRecOn generalizing id scope with
  | _ number ih =>
      obtain ⟨holder, hmem, hsymbol⟩ := hvisible
      obtain ⟨scope', hget', hparent', hsymbols'⟩ := h id scope hget
      rw [chainIn_of_get? hn hget] at hmem
      rcases List.mem_cons.1 hmem with rfl | hup
      · exact Visible.of_mem hn' hget' (hsymbols'.subset hsymbol)
      · cases hp : scope.parent with
        | none =>
            rw [hp] at hup
            simp at hup
        | some parent =>
            rw [hp, Option.elim_some] at hup
            obtain ⟨above, habove⟩ := exists_parent hn hget hp
            have hlt := (hn.parent_lt (mem_of_get? hget) hp).2
            rw [id_of_get? hget, hnumber] at hlt
            obtain ⟨holder', hmem', hsymbol'⟩ :=
              ih parent.number hlt habove ⟨holder, hup, hsymbol⟩ rfl
            refine ⟨holder', ?_, hsymbol'⟩
            rw [chainIn_of_get? hn' hget', hparent', hp]
            exact List.mem_cons_of_mem _ hmem'

end Extends

/-- A chain depends only on the scopes that are not newer than its first one. -/
theorem chainIn_congr {forest other : Forest} (hn : Numbered forest.scopes)
    (hn' : Numbered other.scopes) {id : ScopeId} {scope : Scope}
    (hget : forest.get? id = some scope)
    (h : ∀ below above, below.number ≤ id.number → forest.get? below = some above →
      other.get? below = some above) :
    chainIn other.scopes id = chainIn forest.scopes id := by
  induction hnumber : id.number using Nat.strongRecOn generalizing id scope with
  | _ number ih =>
      have hother := h id scope (Nat.le_refl _) hget
      rw [chainIn_of_get? hn hget, chainIn_of_get? hn' hother]
      cases hp : scope.parent with
      | none => rfl
      | some parent =>
          obtain ⟨above, habove⟩ := exists_parent hn hget hp
          have hlt := (hn.parent_lt (mem_of_get? hget) hp).2
          rw [id_of_get? hget] at hlt
          have hrest := ih parent.number (hnumber ▸ hlt) habove
            (fun below above hle => h below above (Nat.le_trans hle (Nat.le_of_lt hlt))) rfl
          simp only [Option.elim_some, hrest]

end Scriptlet.Forest
