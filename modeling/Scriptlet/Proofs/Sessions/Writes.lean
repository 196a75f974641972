import Scriptlet.Proofs.Act.Preservation
import Scriptlet.Proofs.Sessions.Requests
import Scriptlet.Proofs.Sessions.Visits
/-!
# What executions write

The declarations and assignments that an execution carries out, in their order, are what it
writes.  It changes no other binding.  As long as an identity stands for one value, binding
a symbol and storing a value are no changes to the values that are stored already.
-/

namespace Scriptlet

variable {ν : Type}

def Event.isCollection : Event ν → Bool
  | .collected .. => true
  | _ => false

namespace Session

def collections (s : Session ν) : Nat :=
  s.journal.countP Event.isCollection

/-- The book lists the values that exist, among them all that are stored or were passed to native
functions, and an identity stands for one of them. -/
structure Keyed (book : Value ν → Prop) (s : Session ν) : Prop where
  distinct : ∀ v w, book v → book w → v.id = w.id → v = w
  minted : ∀ v, book v → v.id.number < s.nextValue
  nothing : book .nothing
  stored : ∀ v ∈ s.values.values, book v
  passed : ∀ name handle arguments, Event.called name handle arguments ∈ s.journal →
    ∀ v ∈ arguments, book v

/-- The stored values stay as they are unless garbage is collected, and symbols are bound by the
given writes, the latest of which stands first. -/
structure Updates (writes : List (SymbolId × Value ν)) (book book' : Value ν → Prop)
    (s t : Session ν) : Prop where
  book : ∀ v, book v → book' v
  keyed : t.Keyed book'
  collections : s.collections ≤ t.collections
  kept : t.collections = s.collections → ∀ id value, s.values.get? id = some value →
    t.values.get? id = some value
  bound : ∀ symbol, t.boundTo? symbol =
    ((writes.lookup symbol).map Value.id).or (s.boundTo? symbol)
  stored : t.collections = s.collections → ∀ symbol value, writes.lookup symbol = some value →
    t.values.get? value.id = some value

variable {book book' book'' : Value ν → Prop} {s t u : Session ν}
  {writes writes' : List (SymbolId × Value ν)}

theorem Updates.trans (h : Updates writes book book' s t) (h' : Updates writes' book' book'' t u) :
    Updates (writes' ++ writes) book book'' s u := by
  refine ⟨fun v hv => h'.book v (h.book v hv), h'.keyed,
    Nat.le_trans h.collections h'.collections, ?_, ?_, ?_⟩
  · intro hsame id value hvalue
    have hcollections := h.collections
    have hcollections' := h'.collections
    exact h'.kept (by omega) id value (h.kept (by omega) id value hvalue)
  · intro symbol
    rw [h'.bound, h.bound, List.lookup_append]
    cases writes'.lookup symbol <;> rfl
  · intro hsame symbol value hvalue
    have hcollections := h.collections
    have hcollections' := h'.collections
    rw [List.lookup_append] at hvalue
    cases hlater : writes'.lookup symbol with
    | some found =>
        rw [hlater, Option.some_or, Option.some.injEq] at hvalue
        exact h'.stored (by omega) symbol value (hvalue ▸ hlater)
    | none =>
        rw [hlater, Option.none_or] at hvalue
        exact h'.kept (by omega) _ _ (h.stored (by omega) symbol value hvalue)

/-! ## Steps -/

namespace Keyed

theorem updates_apart (hs : s.Keyed book) (events : List (Event ν)) (hvalues : t.values = s.values)
    (hbindings : t.bindings = s.bindings) (hnext : s.nextValue ≤ t.nextValue)
    (hjournal : t.journal = events ++ s.journal)
    (hcollections : ∀ event ∈ events, event.isCollection = false)
    (hpassed : ∀ name handle arguments, Event.called name handle arguments ∈ events →
      ∀ v ∈ arguments, book v) : Updates [] book book s t := by
  have hsame : t.collections = s.collections := by
    have hnone : events.countP Event.isCollection = 0 :=
      List.countP_eq_zero.2 (by simpa using hcollections)
    rw [collections, hjournal, List.countP_append, hnone, Nat.zero_add, collections]
  refine ⟨fun _ h => h, ⟨hs.distinct, ?_, hs.nothing, ?_, ?_⟩, Nat.le_of_eq hsame.symm, ?_, ?_, ?_⟩
  · exact fun v hv => Nat.lt_of_lt_of_le (hs.minted v hv) hnext
  · rw [hvalues]
    exact hs.stored
  · intro name handle arguments hmem
    rw [hjournal] at hmem
    rcases List.mem_append.1 hmem with hmem | hmem
    · exact hpassed name handle arguments hmem
    · exact hs.passed name handle arguments hmem
  · intro _ id value hvalue
    rw [hvalues]
    exact hvalue
  · intro symbol
    rw [boundTo?, hbindings]
    rfl
  · simp

theorem updates_refl (hs : s.Keyed book) : Updates [] book book s s :=
  hs.updates_apart [] rfl rfl (Nat.le_refl _) rfl (by simp) (by simp)

theorem updates_event (hs : s.Keyed book) (event : Event ν)
    (hcollection : event.isCollection = false)
    (hpassed : ∀ name handle arguments, Event.called name handle arguments = event →
      ∀ v ∈ arguments, book v) :
    Updates [] book book s { s with journal := event :: s.journal } :=
  hs.updates_apart [event] rfl rfl (Nat.le_refl _) rfl (by simpa using hcollection)
    fun name handle arguments hmem => hpassed name handle arguments (List.mem_singleton.1 hmem)

theorem updates_rescoped (hs : s.Keyed book) (scoping : Scoping) :
    Updates [] book book s (s.rescoped scoping) :=
  hs.updates_apart (scoping.log.map .scope) rfl rfl (Nat.le_refl _) rfl
    (by simp [Event.isCollection]) (by simp)

theorem entered (hs : s.Keyed book) {value : Value ν} {next : Nat}
    (hlow : s.nextValue ≤ value.id.number) (hhigh : value.id.number < next) :
    ({ s with nextValue := next } : Session ν).Keyed (entered book value) := by
  have hnew : ∀ v, book v → v.id ≠ value.id := by
    intro v hv hid
    have hminted := hs.minted v hv
    rw [hid] at hminted
    omega
  refine ⟨?_, ?_, .inl hs.nothing, fun v hv => .inl (hs.stored v hv),
    fun name handle arguments hmem v hv => .inl (hs.passed name handle arguments hmem v hv)⟩
  · rintro v w (hv | rfl) (hw | rfl) hid
    · exact hs.distinct v w hv hw hid
    · exact absurd hid (hnew v hv)
    · exact absurd hid.symm (hnew w hw)
    · rfl
  · rintro v (hv | rfl)
    · have hminted := hs.minted v hv
      change v.id.number < next
      omega
    · exact hhigh

theorem updates_entered (hs : s.Keyed book) (value : Value ν) {next : Nat}
    (hlow : s.nextValue ≤ value.id.number) (hhigh : value.id.number < next) :
    Updates [] book (Session.entered book value) s { s with nextValue := next } :=
  ⟨fun _ h => .inl h, hs.entered hlow hhigh, Nat.le_refl _, fun _ _ _ h => h, fun _ => rfl,
    by simp⟩

theorem updates_fresh (hs : s.Keyed book) (payload : Payload ν) :
    Updates [] book (Session.entered book ⟨⟨s.nextValue⟩, payload⟩) s
      { s with nextValue := s.nextValue + 1 } :=
  hs.updates_entered ⟨⟨s.nextValue⟩, payload⟩ (Nat.le_refl _) (Nat.lt_succ_self _)

theorem get?_insert (hs : s.Keyed book) {value : Value ν} (hvalue : book value) {id : ValueId}
    {old : Value ν} (hold : s.values.get? id = some old) :
    (s.values.insert value).get? id = some old :=
  ValueTable.get?_insert hold fun hid =>
    hs.distinct old value (hs.stored old (ValueTable.mem_of_get? hold)) hvalue hid

theorem storing (hs : s.Keyed book) {value : Value ν} (hvalue : book value) :
    ∀ v ∈ (s.values.insert value).values, book v := by
  intro v hv
  rcases ValueTable.mem_insert hv with rfl | hv
  · exact hvalue
  · exact hs.stored v hv

theorem updates_stored (hs : s.Keyed book) {value : Value ν} (hvalue : book value) :
    Updates [] book book s { s with values := s.values.insert value } :=
  ⟨fun _ h => h, ⟨hs.distinct, hs.minted, hs.nothing, hs.storing hvalue, hs.passed⟩, Nat.le_refl _,
    fun _ _ _ hold => hs.get?_insert hvalue hold, fun _ => rfl, by simp⟩

theorem updates_bound (hs : s.Keyed book) (symbol : SymbolId) {value : Value ν}
    (hvalue : book value) : Updates [(symbol, value)] book book s (s.bound symbol value) := by
  have hpassed : ∀ name handle arguments,
      Event.called name handle arguments ∈ (s.bound symbol value).journal →
      ∀ v ∈ arguments, book v := by
    intro name handle arguments hmem
    rcases List.mem_cons.1 hmem with hmem | hmem
    · cases hmem
    · exact hs.passed name handle arguments hmem
  have hcollections : (s.bound symbol value).collections = s.collections := by
    simp [bound, collections, Event.isCollection]
  refine ⟨fun _ h => h, ⟨hs.distinct, hs.minted, hs.nothing, hs.storing hvalue, hpassed⟩,
    Nat.le_of_eq hcollections.symm, fun _ _ _ hold => hs.get?_insert hvalue hold, ?_, ?_⟩
  · intro other
    by_cases hother : other = symbol
    · rw [hother, boundTo?_bound_self]
      simp
    · rw [boundTo?_bound_of_ne s hother]
      simp [List.lookup_cons, beq_eq_false_iff_ne.2 hother]
  · intro _ other found hfound
    have hsame : found = value := by
      by_cases hother : other = symbol
      · simpa [hother, eq_comm] using hfound
      · simp [List.lookup_cons, beq_eq_false_iff_ne.2 hother] at hfound
    rw [hsame]
    exact ValueTable.get?_insert_self _ _

/-- A collection removes values, but it shows in the journal. -/
theorem updates_collected (hs : s.Keyed book) : Updates [] book book s s.collected := by
  have hcollections : s.collected.collections = s.collections + 1 :=
    List.countP_cons_of_pos rfl
  have hpassed : ∀ name handle arguments,
      Event.called name handle arguments ∈ s.collected.journal → ∀ v ∈ arguments, book v := by
    intro name handle arguments hmem
    rcases List.mem_cons.1 hmem with hmem | hmem
    · cases hmem
    · exact hs.passed name handle arguments hmem
  refine ⟨fun _ h => h, ⟨hs.distinct, hs.minted, hs.nothing,
    fun v hv => hs.stored v (ValueTable.mem_collect hv), hpassed⟩, by omega, ?_, fun _ => rfl, ?_⟩
  · intro hsame
    omega
  · simp

end Keyed

/-! ## Acts -/

/-- Whether it succeeds or fails, the act carries the session on by the given writes, and what it
yields is fit for the book that is then in use. -/
def Conveys {α : Type} (writes : List (SymbolId × Value ν)) (book : Value ν → Prop)
    (act : Act (Session ν) α) (s : Session ν) (fit : (Value ν → Prop) → α → Prop) : Prop :=
  ∃ book', Updates writes book book' s (act.on s).2 ∧
    ∀ value, (act.on s).1 = .ok value → fit book' value

section Conveys

variable {α β : Type} {act : Act (Session ν) α} {fit : (Value ν → Prop) → α → Prop}
  {fit' : (Value ν → Prop) → β → Prop}

theorem Keyed.conveys_throw (hs : s.Keyed book) (failure : Failure) :
    Conveys [] book (throw failure) s fit :=
  ⟨book, hs.updates_refl, fun _ h => by cases h⟩

theorem Keyed.conveys_ofExcept (hs : s.Keyed book) (outcome : Except Failure α) :
    Conveys [] book (Act.ofExcept outcome) s (fun _ _ => True) :=
  ⟨book, hs.updates_refl, fun _ _ => trivial⟩

theorem Keyed.conveys_pure (hs : s.Keyed book) {value : α} (h : fit book value) :
    Conveys [] book (pure value) s fit :=
  ⟨book, hs.updates_refl, fun _ heq => by cases heq; exact h⟩

theorem Keyed.conveys_onScopes (hs : s.Keyed book) (act : Act Scoping α) :
    Conveys [] book (onScopes act) s (fun _ _ => True) :=
  ⟨book, hs.updates_rescoped _, fun _ _ => trivial⟩

theorem Conveys.bind {next : α → Act (Session ν) β} {total : List (SymbolId × Value ν)}
    (hact : Conveys writes book act s fit)
    (hfail : ∀ failure t, act.on s = (.error failure, t) → total = writes)
    (hnext : ∀ value t book', act.on s = (.ok value, t) → t.Keyed book' →
      (∀ v, book v → book' v) → fit book' value →
      ∃ writes', total = writes' ++ writes ∧ Conveys writes' book' (next value) t fit') :
    Conveys total book (act >>= next) s fit' := by
  obtain ⟨book', hupdates, hfit⟩ := hact
  unfold Conveys
  rw [Act.on_bind]
  match hrun : act.on s with
  | (.ok value, t) =>
      rw [hrun] at hupdates hfit
      obtain ⟨writes', rfl, book'', hupdates', hfit'⟩ :=
        hnext value t book' hrun hupdates.keyed hupdates.book (hfit value rfl)
      exact ⟨book'', hupdates.trans hupdates', hfit'⟩
  | (.error failure, t) =>
      rw [hrun] at hupdates
      rw [hfail failure t hrun]
      exact ⟨book', hupdates, fun _ h => by cases h⟩

theorem Conveys.bind_nil {next : α → Act (Session ν) β}
    (hact : Conveys writes book act s fit)
    (hnext : ∀ value t book', act.on s = (.ok value, t) → t.Keyed book' →
      (∀ v, book v → book' v) → fit book' value → Conveys [] book' (next value) t fit') :
    Conveys writes book (act >>= next) s fit' :=
  hact.bind (fun _ _ _ => rfl) fun value t book' hrun ht hbook hvalue =>
    ⟨[], rfl, hnext value t book' hrun ht hbook hvalue⟩

theorem Conveys.closing {close : Act (Session ν) Unit}
    (hact : Conveys writes book act s fit)
    (hfit : ∀ book book' value, (∀ v, book v → book' v) → fit book value → fit book' value)
    (hclose : ∀ t book', t.Keyed book' → Conveys [] book' close t (fun _ _ => True)) :
    Conveys writes book (Act.closing close act) s fit := by
  obtain ⟨book', hupdates, hvalue⟩ := hact
  obtain ⟨book'', hupdates', -⟩ := hclose _ book' hupdates.keyed
  have htotal := hupdates.trans hupdates'
  unfold Conveys Act.closing
  rw [Act.on_bind_of_ok (Act.on_attempt act s), Act.on_bind]
  match hrun : close.on (act.on s).2 with
  | (.ok _, t) =>
      rw [hrun] at htotal hupdates'
      exact ⟨book'', htotal, fun value h => hfit _ _ value hupdates'.book (hvalue value h)⟩
  | (.error failure, t) =>
      rw [hrun] at htotal
      exact ⟨book'', htotal, fun _ h => by cases h⟩

end Conveys

end Session

end Scriptlet
