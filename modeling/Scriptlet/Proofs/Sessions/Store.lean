import Scriptlet.Proofs.Act
import Scriptlet.Session
/-!
# Values and bindings

How storing, binding and collecting change what is found in the table of values
and among the bindings.
-/

namespace Scriptlet

namespace ValueTable

variable {ν : Type} {table : ValueTable ν}

theorem mem_of_get? {id : ValueId} {value : Value ν} (h : table.get? id = some value) :
    value ∈ table.values :=
  List.mem_of_find?_eq_some h

theorem id_of_get? {id : ValueId} {value : Value ν} (h : table.get? id = some value) :
    value.id = id := by
  simpa using List.find?_some h

theorem get?_insert_self (table : ValueTable ν) (value : Value ν) :
    (table.insert value).get? value.id = some value := by
  unfold insert get?
  by_cases hcontains : table.contains value.id = true
  · rw [if_pos hcontains, List.find?_map]
    obtain ⟨old, hold⟩ := Option.isSome_iff_exists.1 hcontains
    have hid : ∀ v : Value ν, (if v.id = value.id then value else v).id = value.id ↔
        v.id = value.id := by
      intro v
      split <;> simp [*]
    simp only [Function.comp_def, hid]
    rw [get?] at hold
    rw [hold, Option.map_some, if_pos (id_of_get? hold)]
  · rw [if_neg hcontains, List.find?_append]
    have hnone : table.get? value.id = none := by
      rwa [contains, Option.not_isSome_iff_eq_none] at hcontains
    rw [get?] at hnone
    simp [hnone]

theorem get?_insert_of_ne {id : ValueId} {value : Value ν} (h : id ≠ value.id) :
    (table.insert value).get? id = table.get? id := by
  unfold insert get?
  by_cases hcontains : table.contains value.id = true
  · rw [if_pos hcontains]
    induction table.values with
    | nil => rfl
    | cons old values ih =>
        by_cases hold : old.id = value.id
        · have hne : old.id ≠ id := fun heq => h (heq.symm.trans hold)
          simp [hold, h.symm, ih]
        · simp only [List.map_cons, if_neg hold, List.find?_cons, ih]
  · rw [if_neg hcontains, List.find?_append]
    simp [h.symm]

theorem mem_insert {value old : Value ν} (h : old ∈ (table.insert value).values) :
    old = value ∨ old ∈ table.values := by
  unfold insert at h
  split at h
  · obtain ⟨v, hv, rfl⟩ := List.mem_map.1 h
    split
    · exact .inl rfl
    · exact .inr hv
  · rcases List.mem_append.1 h with h | h
    · exact .inr h
    · exact .inl (List.mem_singleton.1 h)

theorem eq_of_mem_insert {value old : Value ν} (h : old ∈ (table.insert value).values)
    (hid : old.id = value.id) : old = value := by
  unfold insert at h
  split at h
  · obtain ⟨v, hv, rfl⟩ := List.mem_map.1 h
    by_cases hsame : v.id = value.id
    · rw [if_pos hsame]
    · rw [if_neg hsame] at hid
      exact absurd hid hsame
  · next hcontains =>
    rcases List.mem_append.1 h with h | h
    · refine absurd ?_ hcontains
      rw [contains, get?, List.find?_isSome]
      exact ⟨old, h, by simpa using hid⟩
    · exact List.mem_singleton.1 h

/-- Storing a value that is the only one of its identity loses no value. -/
theorem get?_insert {value old : Value ν} {id : ValueId} (h : table.get? id = some old)
    (hsame : old.id = value.id → old = value) : (table.insert value).get? id = some old := by
  have hid := id_of_get? h
  by_cases heq : id = value.id
  · rw [heq, get?_insert_self, hsame (hid.trans heq)]
  · rw [get?_insert_of_ne heq, h]

theorem get?_collect {live : List ValueId} {id : ValueId} (h : id ∈ live) :
    (table.collect live).get? id = table.get? id := by
  unfold collect get?
  rw [List.find?_filter]
  congr 1
  funext value
  by_cases hid : value.id = id
  · simp [hid, h]
  · simp [hid]

theorem mem_collect {live : List ValueId} {value : Value ν}
    (h : value ∈ (table.collect live).values) : value ∈ table.values :=
  (List.mem_filter.1 h).1

end ValueTable

namespace Session

variable {ν : Type} {s : Session ν}

def valueOf? (s : Session ν) (symbol : SymbolId) : Option (Value ν) :=
  (s.boundTo? symbol).bind s.values.get?

theorem lookup_rebind_self (bindings : List (SymbolId × ValueId)) (symbol : SymbolId)
    (value : ValueId) : (rebind bindings symbol value).lookup symbol = some value := by
  induction bindings with
  | nil => simp [rebind]
  | cons pair rest ih =>
      obtain ⟨other, old⟩ := pair
      rw [rebind]
      split
      · simp
      · next hne =>
        rw [List.lookup_cons, beq_eq_false_iff_ne.2 (Ne.symm hne)]
        exact ih

theorem lookup_rebind_of_ne (bindings : List (SymbolId × ValueId)) {symbol other : SymbolId}
    (h : other ≠ symbol) (value : ValueId) :
    (rebind bindings symbol value).lookup other = bindings.lookup other := by
  induction bindings with
  | nil => simp [rebind, h]
  | cons pair rest ih =>
      obtain ⟨first, old⟩ := pair
      rw [rebind]
      split
      · next heq =>
        subst heq
        simp [List.lookup_cons, beq_eq_false_iff_ne.2 h]
      · rw [List.lookup_cons, List.lookup_cons, ih]

theorem mem_of_lookup {bindings : List (SymbolId × ValueId)} {symbol : SymbolId}
    {value : ValueId} (h : bindings.lookup symbol = some value) : (symbol, value) ∈ bindings := by
  induction bindings with
  | nil => simp at h
  | cons pair rest ih =>
      obtain ⟨other, old⟩ := pair
      rw [List.lookup_cons] at h
      split at h
      · next heq =>
        rw [beq_iff_eq] at heq
        rw [heq, Option.some.inj h]
        exact List.mem_cons_self
      · exact List.mem_cons_of_mem _ (ih h)

/-! ## Acts of a session -/

@[simp] theorem on_record (event : Event ν) (s : Session ν) :
    (record event).on s = (.ok (), { s with journal := event :: s.journal }) := rfl

@[simp] theorem on_fresh (payload : Payload ν) (s : Session ν) :
    (fresh payload).on s =
      (.ok ⟨⟨s.nextValue⟩, payload⟩, { s with nextValue := s.nextValue + 1 }) := rfl

def bound (s : Session ν) (symbol : SymbolId) (value : Value ν) : Session ν :=
  { s with
    values := s.values.insert value
    bindings := rebind s.bindings symbol value.id
    journal := .bound symbol value.id :: s.journal }

theorem on_bind (symbol : SymbolId) (value : Value ν) (s : Session ν) :
    (bind symbol value).on s = (.ok (), s.bound symbol value) := rfl

def rescoped (s : Session ν) (scoping : Scoping) : Session ν :=
  drain { s with scoping := scoping }

theorem on_onScopes {α : Type} {act : Act Scoping α} {outcome : Except Failure α} {t : Scoping}
    (h : act.on s.scoping = (outcome, t)) : (onScopes act).on s = (outcome, s.rescoped t) := by
  rw [onScopes, Act.on_zoom, h]
  rfl

end Session

end Scriptlet
