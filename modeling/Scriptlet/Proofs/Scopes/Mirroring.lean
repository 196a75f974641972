import Scriptlet.Proofs.Act.Correspondence
import Scriptlet.Proofs.Scopes.Pairing
/-!
# Looking up and growing in mirroring forests

What is looked up in forests that mirror each other stands for each other, and forests that grow in
the same way go on mirroring each other, with new identities paired.  The excepted type may also be
made where it is missing; then it is paired with the one that was there.
-/

namespace Scriptlet.Forest

open Act (Alike)

variable {pairs : Pairing} {hidden : Option String} {forest forest' : Forest}

/-! ## Looking up -/

theorem chain_of_unknown {id : ScopeId} (h : forest.get? id = none) :
    forest.chain id = .error (.placeless (.scopeStack ("unknown scope " ++ hiddenIdentity))) := by
  rw [chain, get, h]
  rfl

namespace Mirrors

theorem global (h : forest.Mirrors hidden pairs forest') (hw : forest.WellFormed)
    (hw' : forest'.WellFormed) : forest.global.Mirrors hidden pairs forest'.global := by
  obtain ⟨scope', hscope', hmirrors⟩ := h.exists_scope hw.global_eq
  rw [hw'.global_eq] at hscope'
  cases hscope'
  exact hmirrors

/-- Only the second look-up finds anything: a type whose identity is not paired. -/
def Misses (hidden : Option String) (pairs : Pairing) (name : String)
    (found found' : Option Symbol) : Prop :=
  hidden = some name ∧ found = none ∧ ∃ symbol, found' = some symbol ∧ ∀ id, ¬ pairs id symbol.id

private theorem findSome?_find? {scopes scopes' : List Scope}
    (h : List.Forall₂ (Scope.Mirrors hidden pairs) scopes scopes')
    (hroot : ∀ scope ∈ scopes, scope.id = globalId → scope.parent = none) (id : ScopeId)
    (name : String) :
    pairs.Both ((Forest.chainIn scopes id).findSome? fun scope => scope.find? name)
        ((Forest.chainIn scopes' id).findSome? fun scope => scope.find? name) ∨
      Misses hidden pairs name
        ((Forest.chainIn scopes id).findSome? fun scope => scope.find? name)
        ((Forest.chainIn scopes' id).findSome? fun scope => scope.find? name) := by
  induction h generalizing id with
  | nil => exact .inl .none
  | @cons scope scope' _ _ hscope _ ih =>
      rw [List.forall_mem_cons] at hroot
      rw [Forest.chainIn, Forest.chainIn, hscope.id, hscope.parent]
      split
      · cases hparent : scope.parent with
        | none =>
            simp only [List.findSome?_singleton]
            refine (hscope.named name).imp_right fun hlacks => ?_
            obtain ⟨type, hfind, -, -, hunpaired⟩ := hlacks.present
            exact ⟨hlacks.excepted, hlacks.missing, type, hfind, hunpaired⟩
        | some parent =>
            -- A scope with a parent is not the global one, so nothing is excepted in it.
            have hboth := (hscope.named name).resolve_right fun hlacks => by
              have hnone := hroot.1 hlacks.root
              rw [hparent] at hnone
              cases hnone
            simp only [List.findSome?_cons]
            generalize scope.find? name = found at hboth ⊢
            generalize scope'.find? name = found' at hboth ⊢
            cases hboth with
            | none => exact ih hroot.2 parent
            | some h => exact .inl (.some h)
      · exact ih hroot.2 id

private theorem findSome?_get? {scopes scopes' : List Scope}
    (h : List.Forall₂ (Scope.Mirrors hidden pairs) scopes scopes') {id id' : SymbolId}
    (hpair : pairs id id') :
    pairs.Both (scopes.findSome? fun scope => scope.get? id)
      (scopes'.findSome? fun scope => scope.get? id') := by
  induction h with
  | nil => exact .none
  | @cons scope scope' _ _ hscope _ ih =>
      have hboth := hscope.identified id id' hpair
      rw [List.findSome?_cons, List.findSome?_cons]
      generalize scope.get? id = found at hboth ⊢
      generalize scope'.get? id' = found' at hboth ⊢
      cases hboth with
      | none => exact ih
      | some h => exact .some h

/-- A name is looked up with outcomes that stand for each other, but for the excepted one. -/
theorem lookup_any (h : forest.Mirrors hidden pairs forest') (hw : forest.WellFormed)
    (id : ScopeId) (name : String) :
    Alike (fun found found' => pairs.Both found found' ∨ Misses hidden pairs name found found') Eq
      (forest.lookup id name) (forest'.lookup id name) := by
  cases hscope : forest.get? id with
  | none =>
      rw [Forest.lookup, Forest.lookup, chain_of_unknown hscope,
        chain_of_unknown (h.get?_eq_none hscope)]
      exact .error rfl
  | some scope =>
      obtain ⟨scope', hscope', -⟩ := h.exists_scope hscope
      have hroot : ∀ scope ∈ forest.scopes, scope.id = globalId → scope.parent = none := by
        intro scope hmem hid
        obtain ⟨global, hglobal, hnone⟩ := hw.global
        have hsame := get?_of_mem hw.numbered hmem
        rw [hid, hglobal, Option.some.injEq] at hsame
        rwa [← hsame]
      rw [lookup_of_get? hscope, lookup_of_get? hscope']
      exact .ok (findSome?_find? h.scopes hroot id name)

theorem lookup (h : forest.Mirrors hidden pairs forest') (hw : forest.WellFormed) (id : ScopeId)
    {name : String} (hname : hidden ≠ some name) :
    Alike pairs.Both Eq (forest.lookup id name) (forest'.lookup id name) :=
  (h.lookup_any hw id name).mono
    (fun _ _ hfound => hfound.resolve_right fun hmisses => hname hmisses.1) fun _ _ h => h

theorem lookupId (h : forest.Mirrors hidden pairs forest') (id : ScopeId)
    {symbol symbol' : SymbolId} (hpair : pairs symbol symbol') :
    Alike pairs.Both Eq (forest.lookupId id symbol) (forest'.lookupId id symbol') := by
  cases hscope : forest.get? id with
  | none =>
      rw [Forest.lookupId, Forest.lookupId, chain_of_unknown hscope,
        chain_of_unknown (h.get?_eq_none hscope)]
      exact .error rfl
  | some scope =>
      obtain ⟨scope', hscope', -⟩ := h.exists_scope hscope
      rw [lookupId_of_get? hscope, lookupId_of_get? hscope']
      exact .ok (findSome?_get? (chainIn h.scopes id) hpair)

theorem typeSymbol (h : forest.Mirrors hidden pairs forest') (hw : forest.WellFormed)
    (hw' : forest'.WellFormed) {id id' : SymbolId} (hpair : pairs id id') :
    Alike (Symbol.Mirrors pairs) Eq (forest.typeSymbol id) (forest'.typeSymbol id') := by
  have hboth := (h.global hw hw').identified id id' hpair
  unfold Forest.typeSymbol
  generalize forest.global.get? id = found at hboth ⊢
  generalize forest'.global.get? id' = found' at hboth ⊢
  cases hboth with
  | none => exact .error rfl
  | @some symbol symbol' hsymbol =>
      dsimp only
      rw [hsymbol.variant.isType_eq]
      split
      · exact .ok hsymbol
      · exact .error rfl

/-! ## Growing -/

theorem nextScope_eq (h : forest.Mirrors hidden pairs forest') :
    forest'.nextScope = forest.nextScope := by
  rw [nextScope, nextScope, h.scopes.length_eq]

theorem withScope (h : forest.Mirrors hidden pairs forest') (name : String) (parent : ScopeId) :
    (forest.withScope name parent).Mirrors hidden pairs (forest'.withScope name parent) where
  scopes := by
    rw [Forest.withScope, Forest.withScope, h.nextScope_eq]
    exact .cons (.empty _ _ _) h.scopes
  pairing := h.pairing

theorem scopes_and (h : forest.Mirrors hidden pairs forest') {p q : Scope → Prop}
    (hp : ∀ scope ∈ forest.scopes, p scope) (hq : ∀ scope ∈ forest'.scopes, q scope) :
    List.Forall₂ (fun scope scope' => p scope ∧ q scope' ∧ scope.Mirrors hidden pairs scope')
      forest.scopes forest'.scopes := by
  rw [List.forall₂_and_left]
  refine ⟨hp, List.Forall₂.flip ?_⟩
  have hflip := h.scopes.flip
  exact (List.forall₂_and_left _ _).2 ⟨hq, hflip⟩

theorem id_ne_nextSymbol (hw : forest.WellFormed) :
    ∀ scope ∈ forest.scopes, ∀ symbol ∈ scope.symbols, symbol.id ≠ ⟨forest.nextSymbol⟩ := by
  intro scope hscope symbol hsymbol heq
  have hlt := hw.minted scope hscope symbol hsymbol
  rw [heq] at hlt
  exact Nat.lt_irrefl _ hlt

theorem withSymbol (h : forest.Mirrors hidden pairs forest') (hw : forest.WellFormed)
    (hw' : forest'.WellFormed) {id : ScopeId} {scope' : Scope}
    (hget' : forest'.get? id = some scope') {name : String} (hfree : scope'.find? name = none)
    {variant variant' : Symbol.Variant} (hvariant : variant.Mirrors pairs variant') :
    (forest.withSymbol id (forest.newSymbol name variant)).Mirrors hidden
      (pairs.with ⟨forest.nextSymbol⟩ ⟨forest'.nextSymbol⟩)
      (forest'.withSymbol id (forest'.newSymbol name variant')) where
  scopes := by
    have hsymbol : (forest.newSymbol name variant).Mirrors
        (pairs.with (forest.newSymbol name variant).id (forest'.newSymbol name variant').id)
        (forest'.newSymbol name variant') :=
      ⟨pairs.with_self _ _, rfl, hvariant.mono (pairs.le_with _ _)⟩
    have hfree' : ∀ other ∈ forest'.scopes, other.id = id → other.find? name = none := by
      intro other hother hid
      rw [hw'.numbered.eq_of_id hget' hother hid, hfree]
    have hscopes := h.scopes_and (id_ne_nextSymbol hw)
      (fun other hother => And.intro (id_ne_nextSymbol hw' other hother) (hfree' other hother))
    rw [Forest.withSymbol, Forest.withSymbol, List.forall₂_map_left_iff, List.forall₂_map_right_iff]
    refine hscopes.imp ?_
    rintro scope other ⟨hids, ⟨hids', hname⟩, hmirrors⟩
    unfold Scope.pushAt
    rw [hmirrors.id]
    split
    · next hid =>
      exact hmirrors.push hids hids' (fun _ _ => h.pairing.ne_next)
        (hname (hmirrors.id.trans hid)) hsymbol
    · exact hmirrors.paired hids hids'
  pairing := by
    obtain ⟨hpos, hpos'⟩ := h.pairing.pos
    exact h.pairing.add (fun _ hpair => (h.pairing.ne_next hpair).1 rfl)
      (fun _ hpair => (h.pairing.ne_next hpair).2 rfl) (Nat.le_succ _) (Nat.le_succ _)
      ⟨⟨hpos, Nat.lt_succ_self _⟩, hpos', Nat.lt_succ_self _⟩

/-- A type is made in the second forest only. -/
theorem hide (h : forest.Mirrors none pairs forest') (hw' : forest'.WellFormed) {name : String}
    (hfree : forest'.global.find? name = none) {variant : Symbol.Variant}
    (htype : variant.isType = true) :
    forest.Mirrors (some name) pairs
      (forest'.withSymbol globalId (forest'.newSymbol name variant)) where
  scopes := by
    have hunpaired : ∀ id, ¬ pairs id (forest'.newSymbol name variant).id :=
      fun _ hpair => (h.pairing.ne_next hpair).2 rfl
    have hscopes := h.scopes_and (fun scope hscope => hscope) (fun scope hscope => hscope)
    rw [Forest.withSymbol, List.forall₂_map_right_iff]
    refine hscopes.imp ?_
    rintro scope scope' ⟨-, hscope', hmirrors⟩
    unfold Scope.pushAt
    split
    · next hid =>
      obtain rfl := hw'.numbered.eq_of_id hw'.global_eq hscope' hid
      exact hmirrors.hide (hmirrors.id.symm.trans hid) hfree htype h.pairing.pos.2 hunpaired
    · exact hmirrors.excepting (some name)
  pairing := h.pairing.grown (Nat.le_succ _)

theorem reveal (h : forest.Mirrors hidden pairs forest') (hw : forest.WellFormed)
    (hw' : forest'.WellFormed) {name : String}
    (hlacks : forest.global.Lacks hidden pairs forest'.global name) {type : Symbol}
    (htype : forest'.global.find? name = some type) {variant : Symbol.Variant}
    (hvariant : variant.Mirrors pairs type.variant) :
    (forest.withSymbol globalId (forest.newSymbol name variant)).Mirrors hidden
      (pairs.with ⟨forest.nextSymbol⟩ type.id) forest' := by
  obtain ⟨_, hfind, -, hpos, hunpaired⟩ := hlacks.present
  rw [htype, Option.some.injEq] at hfind
  subst hfind
  have hmem := Scope.mem_of_find? htype
  have hsymbol : (forest.newSymbol name variant).Mirrors
      (pairs.with (forest.newSymbol name variant).id type.id) type :=
    ⟨pairs.with_self _ _, Scope.name_of_find? htype, hvariant.mono (pairs.le_with _ _)⟩
  refine ⟨?_, ?_⟩
  · have hscopes := h.scopes_and
      (fun scope hscope => And.intro (id_ne_nextSymbol hw scope hscope) hscope)
      (fun scope hscope => hscope)
    rw [Forest.withSymbol, List.forall₂_map_left_iff]
    refine hscopes.imp ?_
    rintro scope scope' ⟨⟨hids, hscope⟩, hscope', hmirrors⟩
    unfold Scope.pushAt
    split
    · next hid =>
      obtain rfl := hw.numbered.eq_of_id hw.global_eq hscope hid
      obtain rfl := hw'.numbered.eq_of_id hw'.global_eq hscope' (hmirrors.id.trans hid)
      exact hmirrors.reveal hids (fun _ _ hpair => (h.pairing.ne_next hpair).1) hlacks htype
        (hw'.get?_global hmem) hsymbol
    · next hid =>
      have hids' : ∀ symbol ∈ scope'.symbols, symbol.id ≠ type.id := by
        intro symbol hsymbol heq
        have hsame := (hw'.identified _ hscope' _ hw'.global_mem symbol hsymbol type hmem heq).2
        rw [← hmirrors.id, hsame] at hid
        exact hid (id_of_get? hw'.global_eq)
      exact hmirrors.paired hids hids'
  · obtain ⟨hpos', -⟩ := h.pairing.pos
    exact h.pairing.add (fun _ hpair => (h.pairing.ne_next hpair).1 rfl) hunpaired (Nat.le_succ _)
      (Nat.le_refl _) ⟨⟨hpos', Nat.lt_succ_self _⟩, hpos, hw'.minted _ hw'.global_mem type hmem⟩

end Mirrors

end Scriptlet.Forest
