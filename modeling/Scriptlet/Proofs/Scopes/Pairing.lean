import Mathlib.Data.List.Forall2
import Mathlib.Order.Basic
import Scriptlet.Proofs.Scopes.Interning
/-!
# Forests that mirror each other

Two forests may have the same symbols under different identities.  A pairing tells which identities
stand for each other.  A forest mirrors another one if every name that is looked up in a scope, and
every identity that is paired, leads to symbols that stand for each other; the places of the
symbols in their tables do not matter.  One name may be excepted: a type that only the mirroring
forest has, in its global scope, under an identity that is not paired.
-/

namespace Scriptlet

/-- Which identities of symbols stand for each other. -/
abbrev Pairing := SymbolId → SymbolId → Prop

def Pairing.with (pairs : Pairing) (id id' : SymbolId) : Pairing :=
  fun x y => pairs x y ∨ x = id ∧ y = id'

theorem Pairing.le_with (pairs : Pairing) (id id' : SymbolId) : pairs ≤ pairs.with id id' :=
  fun _ _ => .inl

theorem Pairing.with_self (pairs : Pairing) (id id' : SymbolId) : pairs.with id id' id id' :=
  .inr ⟨rfl, rfl⟩

variable {pairs pairs' : Pairing} {hidden : Option String}

/-- The identities that a pairing pairs have been given out, the numbers from one on below `next` on
the one side and below `next'` on the other.  Each has one partner, and primitive types are their
own. -/
structure Pairing.Matches (pairs : Pairing) (next next' : Nat) : Prop where
  right : ∀ id id' other', pairs id id' → pairs id other' → id' = other'
  left : ∀ id other id', pairs id id' → pairs other id' → id = other
  minted : ∀ id id', pairs id id' →
    (0 < id.number ∧ id.number < next) ∧ 0 < id'.number ∧ id'.number < next'
  primitives : ∀ kind : Primitive.Kind, pairs kind.typeId kind.typeId

namespace Pairing.Matches

variable {next next' : Nat}

theorem pos (h : pairs.Matches next next') : 0 < next ∧ 0 < next' := by
  obtain ⟨⟨-, hlt⟩, -, hlt'⟩ := h.minted _ _ (h.primitives .integer)
  exact ⟨Nat.zero_lt_of_lt hlt, Nat.zero_lt_of_lt hlt'⟩

theorem ne_next (h : pairs.Matches next next') {id id' : SymbolId} (hpair : pairs id id') :
    id ≠ ⟨next⟩ ∧ id' ≠ ⟨next'⟩ := by
  obtain ⟨⟨-, hlt⟩, -, hlt'⟩ := h.minted id id' hpair
  refine ⟨?_, ?_⟩ <;> rintro rfl
  · exact Nat.lt_irrefl _ hlt
  · exact Nat.lt_irrefl _ hlt'

theorem eq_iff (h : pairs.Matches next next') {id id' other other' : SymbolId}
    (hpair : pairs id id') (hother : pairs other other') : id' = other' ↔ id = other := by
  constructor
  · rintro rfl
    exact h.left _ _ _ hpair hother
  · rintro rfl
    exact h.right _ _ _ hpair hother

theorem grown (h : pairs.Matches next next') {more' : Nat} (hmore' : next' ≤ more') :
    pairs.Matches next more' where
  right := h.right
  left := h.left
  minted id id' hpair := by
    have hbounds := h.minted id id' hpair
    omega
  primitives := h.primitives

theorem add (h : pairs.Matches next next') {id id' : SymbolId} (hid : ∀ other', ¬ pairs id other')
    (hid' : ∀ other, ¬ pairs other id') {more more' : Nat} (hmore : next ≤ more)
    (hmore' : next' ≤ more')
    (hminted : (0 < id.number ∧ id.number < more) ∧ 0 < id'.number ∧ id'.number < more') :
    (pairs.with id id').Matches more more' where
  right := by
    rintro x y y' (hpair | ⟨rfl, rfl⟩) (hpair' | ⟨hx, rfl⟩)
    · exact h.right x y y' hpair hpair'
    · exact absurd (hx ▸ hpair) (hid y)
    · exact absurd hpair' (hid y')
    · rfl
  left := by
    rintro x x' y (hpair | ⟨rfl, rfl⟩) (hpair' | ⟨rfl, hy⟩)
    · exact h.left x x' y hpair hpair'
    · exact absurd (hy ▸ hpair) (hid' x)
    · exact absurd hpair' (hid' x')
    · rfl
  minted := by
    rintro x y (hpair | ⟨rfl, rfl⟩)
    · have hbounds := h.minted x y hpair
      omega
    · exact hminted
  primitives kind := .inl (h.primitives kind)

end Pairing.Matches

/-! ## Symbols -/

inductive Symbol.Variant.Mirrors (pairs : Pairing) : Symbol.Variant → Symbol.Variant → Prop where
  | primitive : Mirrors pairs .primitive .primitive
  | var {type type' : SymbolId} : pairs type type' → Mirrors pairs (.var type) (.var type')
  | function {arguments arguments' : List SymbolId} {result result' : Option SymbolId} :
      List.Forall₂ pairs arguments arguments' → Option.Rel pairs result result' →
      Mirrors pairs (.function arguments result) (.function arguments' result')
  | native {type type' : SymbolId} : pairs type type' → Mirrors pairs (.native type) (.native type')

structure Symbol.Mirrors (pairs : Pairing) (symbol symbol' : Symbol) : Prop where
  id : pairs symbol.id symbol'.id
  name : symbol'.name = symbol.name
  variant : symbol.variant.Mirrors pairs symbol'.variant

theorem rel_none_left {α β : Type} {r : α → β → Prop} {found : Option β}
    (h : Option.Rel r none found) : found = none := by
  cases h
  rfl

theorem rel_some_left {α β : Type} {r : α → β → Prop} {value : α} {found : Option β}
    (h : Option.Rel r (some value) found) : ∃ value', found = some value' ∧ r value value' := by
  cases h with
  | some h => exact ⟨_, rfl, h⟩

theorem Pairing.rel_mono (hle : pairs ≤ pairs') {id id' : Option SymbolId}
    (h : Option.Rel pairs id id') : Option.Rel pairs' id id' := by
  cases h with
  | none => exact .none
  | some h => exact .some (hle _ _ h)

namespace Symbol

theorem Variant.Mirrors.mono {variant variant' : Variant} (h : variant.Mirrors pairs variant')
    (hle : pairs ≤ pairs') : variant.Mirrors pairs' variant' := by
  cases h with
  | primitive => exact .primitive
  | var htype => exact .var (hle _ _ htype)
  | function harguments hresult =>
      exact .function (harguments.imp fun _ _ => hle _ _) (Pairing.rel_mono hle hresult)
  | native htype => exact .native (hle _ _ htype)

theorem Variant.Mirrors.isType_eq {variant variant' : Variant}
    (h : variant.Mirrors pairs variant') : variant'.isType = variant.isType := by
  cases h <;> rfl

theorem Variant.Mirrors.sort_eq {variant variant' : Variant} (h : variant.Mirrors pairs variant') :
    variant'.sort = variant.sort := by
  cases h <;> rfl

theorem Variant.Mirrors.type? {variant variant' : Variant} (h : variant.Mirrors pairs variant') :
    Option.Rel pairs variant.type? variant'.type? := by
  cases h with
  | primitive | function => exact .none
  | var h | native h => exact .some h

theorem Mirrors.mono {symbol symbol' : Symbol} (h : symbol.Mirrors pairs symbol')
    (hle : pairs ≤ pairs') : symbol.Mirrors pairs' symbol' :=
  ⟨hle _ _ h.id, h.name, h.variant.mono hle⟩

end Symbol

namespace Pairing

abbrev Both (pairs : Pairing) : Option Symbol → Option Symbol → Prop :=
  Option.Rel (Symbol.Mirrors pairs)

theorem Both.mono {found found' : Option Symbol} (h : pairs.Both found found')
    (hle : pairs ≤ pairs') : pairs'.Both found found' := by
  cases h with
  | none => exact .none
  | some h => exact .some (h.mono hle)

theorem Both.or {found found' other other' : Option Symbol} (h : pairs.Both found found')
    (hother : pairs.Both other other') : pairs.Both (found.or other) (found'.or other') := by
  cases h with
  | none => simpa using hother
  | some h => exact .some h

end Pairing

/-! ## Scopes -/

/-- Only the second scope has a symbol of the name, a type whose identity is not paired. -/
structure Scope.Lacks (hidden : Option String) (pairs : Pairing) (scope scope' : Scope)
    (name : String) : Prop where
  excepted : hidden = some name
  root : scope.id = Forest.globalId
  missing : scope.find? name = none
  present : ∃ type, scope'.find? name = some type ∧ type.variant.isType = true ∧
    0 < type.id.number ∧ ∀ id, ¬ pairs id type.id

structure Scope.Mirrors (hidden : Option String) (pairs : Pairing) (scope scope' : Scope) :
    Prop where
  id : scope'.id = scope.id
  name : scope'.name = scope.name
  parent : scope'.parent = scope.parent
  named : ∀ name, pairs.Both (scope.find? name) (scope'.find? name) ∨
    scope.Lacks hidden pairs scope' name
  identified : ∀ id id', pairs id id' → pairs.Both (scope.get? id) (scope'.get? id')

namespace Scope

theorem find?_push_or (scope : Scope) (symbol : Symbol) (name : String) :
    (scope.push symbol).find? name =
      (scope.find? name).or (if symbol.name = name then some symbol else none) := by
  simp only [find?, push, List.find?_append]
  congr 1
  by_cases h : symbol.name = name <;> simp [h]

theorem get?_push_or (scope : Scope) (symbol : Symbol) (id : SymbolId) :
    (scope.push symbol).get? id =
      (scope.get? id).or (if symbol.id = id then some symbol else none) := by
  simp only [get?, push, List.find?_append]
  congr 1
  by_cases h : symbol.id = id <;> simp [h]

theorem mem_of_find? {scope : Scope} {name : String} {symbol : Symbol}
    (h : scope.find? name = some symbol) : symbol ∈ scope.symbols :=
  List.mem_of_find?_eq_some h

theorem name_of_find? {scope : Scope} {name : String} {symbol : Symbol}
    (h : scope.find? name = some symbol) : symbol.name = name := by
  simpa using List.find?_some h

theorem get?_eq_none {scope : Scope} {id : SymbolId}
    (h : ∀ symbol ∈ scope.symbols, symbol.id ≠ id) : scope.get? id = none := by
  rw [get?, List.find?_eq_none]
  intro symbol hsymbol
  simpa using h symbol hsymbol

namespace Mirrors

variable {scope scope' : Scope}

theorem find? (h : scope.Mirrors hidden pairs scope') {name : String}
    (hname : hidden ≠ some name) : pairs.Both (scope.find? name) (scope'.find? name) :=
  (h.named name).resolve_right fun hlacks => hname hlacks.excepted

theorem empty (id : ScopeId) (name : String) (parent : Option ScopeId) :
    Mirrors hidden pairs ⟨id, name, parent, []⟩ ⟨id, name, parent, []⟩ where
  id := rfl
  name := rfl
  parent := rfl
  named _ := .inl .none
  identified _ _ _ := .none

theorem paired (h : scope.Mirrors hidden pairs scope') {id id' : SymbolId}
    (hid : ∀ symbol ∈ scope.symbols, symbol.id ≠ id)
    (hid' : ∀ symbol ∈ scope'.symbols, symbol.id ≠ id') :
    scope.Mirrors hidden (pairs.with id id') scope' where
  id := h.id
  name := h.name
  parent := h.parent
  named name := by
    refine (h.named name).imp (fun hboth => hboth.mono (pairs.le_with id id')) fun hlacks => ?_
    obtain ⟨type, hfind, htype, hpos, hunpaired⟩ := hlacks.present
    refine ⟨hlacks.excepted, hlacks.root, hlacks.missing, type, hfind, htype, hpos, ?_⟩
    rintro other (hpair | ⟨-, heq⟩)
    · exact hunpaired other hpair
    · exact hid' type (mem_of_find? hfind) heq
  identified := by
    rintro x y (hpair | ⟨rfl, rfl⟩)
    · exact (h.identified x y hpair).mono (pairs.le_with id id')
    · rw [get?_eq_none hid, get?_eq_none hid']
      exact .none

theorem push (h : scope.Mirrors hidden pairs scope') {symbol symbol' : Symbol}
    (hid : ∀ other ∈ scope.symbols, other.id ≠ symbol.id)
    (hid' : ∀ other ∈ scope'.symbols, other.id ≠ symbol'.id)
    (hleft : ∀ x y, pairs x y → x ≠ symbol.id ∧ y ≠ symbol'.id)
    (hfree : scope'.find? symbol'.name = none)
    (hsymbol : symbol.Mirrors (pairs.with symbol.id symbol'.id) symbol') :
    (scope.push symbol).Mirrors hidden (pairs.with symbol.id symbol'.id)
      (scope'.push symbol') where
  id := h.id
  name := h.name
  parent := h.parent
  named name := by
    have hpaired := h.paired hid hid'
    rw [find?_push_or, find?_push_or, hsymbol.name]
    rcases hpaired.named name with hboth | hlacks
    · refine .inl (hboth.or ?_)
      split
      · exact .some hsymbol
      · exact .none
    · obtain ⟨type, hfind, htype⟩ := hlacks.present
      have hne : symbol.name ≠ name := by
        rintro rfl
        rw [← hsymbol.name, hfree] at hfind
        cases hfind
      refine .inr ⟨hlacks.excepted, hlacks.root, ?_, type, ?_, htype⟩
      · rw [find?_push_or, hlacks.missing, if_neg hne]
        rfl
      · rw [find?_push_or, hfind]
        rfl
  identified := by
    rintro x y (hpair | ⟨rfl, rfl⟩)
    · obtain ⟨hx, hy⟩ := hleft x y hpair
      rw [get?_push_or, get?_push_or, if_neg (Ne.symm hx), if_neg (Ne.symm hy), Option.or_none,
        Option.or_none]
      exact (h.identified x y hpair).mono (pairs.le_with _ _)
    · rw [get?_push_or, get?_push_or, get?_eq_none hid, get?_eq_none hid', if_pos rfl, if_pos rfl]
      exact .some hsymbol

theorem reveal (h : scope.Mirrors hidden pairs scope') {symbol symbol' : Symbol}
    (hid : ∀ other ∈ scope.symbols, other.id ≠ symbol.id)
    (hleft : ∀ x y, pairs x y → x ≠ symbol.id)
    (hlacks : scope.Lacks hidden pairs scope' symbol.name)
    (hfind : scope'.find? symbol.name = some symbol')
    (hget : scope'.get? symbol'.id = some symbol')
    (hsymbol : symbol.Mirrors (pairs.with symbol.id symbol'.id) symbol') :
    (scope.push symbol).Mirrors hidden (pairs.with symbol.id symbol'.id) scope' where
  id := h.id
  name := h.name
  parent := h.parent
  named name := by
    rw [find?_push_or]
    by_cases hname : symbol.name = name
    · subst hname
      rw [hlacks.missing, hfind, Option.none_or, if_pos rfl]
      exact .inl (.some hsymbol)
    · have hother : hidden ≠ some name := by
        rw [hlacks.excepted]
        exact fun heq => hname (Option.some.inj heq)
      rw [if_neg hname, Option.or_none]
      exact .inl ((h.find? hother).mono (pairs.le_with _ _))
  identified := by
    rintro x y (hpair | ⟨rfl, rfl⟩)
    · rw [get?_push_or, if_neg (Ne.symm (hleft x y hpair)), Option.or_none]
      exact (h.identified x y hpair).mono (pairs.le_with _ _)
    · rw [get?_push_or, get?_eq_none hid, hget, if_pos rfl]
      exact .some hsymbol

theorem excepting (h : scope.Mirrors none pairs scope') (hidden : Option String) :
    scope.Mirrors hidden pairs scope' where
  id := h.id
  name := h.name
  parent := h.parent
  named name := .inl (h.find? (Option.some_ne_none name).symm)
  identified := h.identified

theorem hide (h : scope.Mirrors none pairs scope') (hroot : scope.id = Forest.globalId)
    {type : Symbol} (hfree : scope'.find? type.name = none) (htype : type.variant.isType = true)
    (hpos : 0 < type.id.number) (hunpaired : ∀ id, ¬ pairs id type.id) :
    scope.Mirrors (some type.name) pairs (scope'.push type) where
  id := h.id
  name := h.name
  parent := h.parent
  named name := by
    have hboth := h.find? (Option.some_ne_none name).symm
    rw [find?_push_or]
    by_cases hname : type.name = name
    · subst hname
      rw [hfree] at hboth ⊢
      cases hmissing : scope.find? type.name with
      | some symbol =>
          rw [hmissing] at hboth
          cases hboth
      | none =>
          refine .inr ⟨rfl, hroot, hmissing, type, ?_, htype, hpos, hunpaired⟩
          rw [find?_push_or, hfree, if_pos rfl, Option.none_or]
    · rw [if_neg hname, Option.or_none]
      exact .inl hboth
  identified id id' hpair := by
    have hne : type.id ≠ id' := by
      rintro rfl
      exact hunpaired id hpair
    rw [get?_push_or, if_neg hne, Option.or_none]
    exact h.identified id id' hpair

end Mirrors

end Scope

/-! ## Forests -/

/-- The scopes of the forests mirror each other, and the pairing pairs identities that they have
given out. -/
structure Forest.Mirrors (hidden : Option String) (pairs : Pairing) (forest forest' : Forest) :
    Prop where
  scopes : List.Forall₂ (Scope.Mirrors hidden pairs) forest.scopes forest'.scopes
  pairing : pairs.Matches forest.nextSymbol forest'.nextSymbol

namespace Forest

private theorem forall₂_find? {r : Scope → Scope → Prop} {scopes scopes' : List Scope}
    (h : List.Forall₂ r scopes scopes')
    (hid : ∀ scope scope', r scope scope' → scope'.id = scope.id) (id : ScopeId) :
    Option.Rel r (scopes.find? fun scope => scope.id = id)
      (scopes'.find? fun scope => scope.id = id) := by
  induction h with
  | nil => exact .none
  | @cons scope scope' _ _ hscope _ ih =>
      rw [List.find?_cons, List.find?_cons, hid _ _ hscope]
      by_cases heq : scope.id = id
      · simpa [heq] using Option.Rel.some hscope
      · simpa [heq] using ih

namespace Mirrors

variable {forest forest' : Forest}

theorem get? (h : forest.Mirrors hidden pairs forest') (id : ScopeId) :
    Option.Rel (Scope.Mirrors hidden pairs) (forest.get? id) (forest'.get? id) :=
  forall₂_find? h.scopes (fun _ _ hscope => hscope.id) id

theorem exists_scope (h : forest.Mirrors hidden pairs forest') {id : ScopeId} {scope : Scope}
    (hscope : forest.get? id = some scope) :
    ∃ scope', forest'.get? id = some scope' ∧ scope.Mirrors hidden pairs scope' := by
  have hget := h.get? id
  rw [hscope] at hget
  exact rel_some_left hget

theorem get?_eq_none (h : forest.Mirrors hidden pairs forest') {id : ScopeId}
    (hscope : forest.get? id = none) : forest'.get? id = none := by
  have hget := h.get? id
  rw [hscope] at hget
  exact rel_none_left hget

theorem chainIn {scopes scopes' : List Scope}
    (h : List.Forall₂ (Scope.Mirrors hidden pairs) scopes scopes') (id : ScopeId) :
    List.Forall₂ (Scope.Mirrors hidden pairs) (chainIn scopes id) (chainIn scopes' id) := by
  induction h generalizing id with
  | nil => exact .nil
  | @cons scope scope' _ _ hscope _ ih =>
      rw [Forest.chainIn, Forest.chainIn, hscope.id, hscope.parent]
      split
      · cases scope.parent with
        | none => exact .cons hscope .nil
        | some parent => exact .cons hscope (ih parent)
      · exact ih id

end Mirrors

end Forest

end Scriptlet
