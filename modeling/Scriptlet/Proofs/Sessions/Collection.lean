import Scriptlet.Proofs.Sessions.Likeness
import Scriptlet.Proofs.Sessions.Registration
import Scriptlet.Proofs.Sessions.Requests
/-!
# Collections of garbage

A session that collects garbage, now and then by itself and whenever it is asked
to, is followed by one that never does.  Both give the same answers, since what
they store under the identities that symbols are bound to is the same.  What a
collection leaves in the table is what symbols are bound to, and nothing else.
-/

namespace Scriptlet

variable {ν : Type}

/-! ## Tables and bindings without repetitions -/

namespace ValueTable

variable {table : ValueTable ν}

private theorem ids_insert (table : ValueTable ν) (value : Value ν) :
    (table.insert value).values.map Value.id =
      if table.contains value.id then table.values.map Value.id
      else table.values.map Value.id ++ [value.id] := by
  unfold insert
  split
  · rw [List.map_map]
    apply List.map_congr_left
    intro old _
    by_cases hold : old.id = value.id
    · rw [Function.comp_apply, if_pos hold, hold]
    · rw [Function.comp_apply, if_neg hold]
  · rw [List.map_append]
    rfl

private theorem nodup_ids_insert (h : (table.values.map Value.id).Nodup) (value : Value ν) :
    ((table.insert value).values.map Value.id).Nodup := by
  rw [ids_insert]
  split
  · exact h
  · next hnew =>
    rw [List.nodup_append]
    refine ⟨h, List.nodup_singleton _, ?_⟩
    intro id hid other hother heq
    obtain ⟨old, hold, rfl⟩ := List.mem_map.1 hid
    apply hnew
    rw [contains, get?, List.find?_isSome]
    exact ⟨old, hold, by simpa using heq.trans (List.mem_singleton.1 hother)⟩

theorem get?_of_mem (h : (table.values.map Value.id).Nodup) {value : Value ν}
    (hvalue : value ∈ table.values) : table.get? value.id = some value := by
  cases hget : table.get? value.id with
  | none =>
      have := List.find?_eq_none.1 hget value hvalue
      simp at this
  | some other =>
      rw [List.inj_on_of_nodup_map h (mem_of_get? hget) hvalue (id_of_get? hget)]

/-- Storing a value in two tables makes them agree on its identity, and on no fewer others. -/
theorem get?_insert_congr {other : ValueTable ν} {value : Value ν} {key : ValueId}
    (h : key ≠ value.id → other.get? key = table.get? key) :
    (other.insert value).get? key = (table.insert value).get? key := by
  by_cases hkey : key = value.id
  · rw [hkey, get?_insert_self, get?_insert_self]
  · rw [get?_insert_of_ne hkey, get?_insert_of_ne hkey, h hkey]

end ValueTable

namespace Session

private theorem keys_rebind (bindings : List (SymbolId × ValueId)) (symbol : SymbolId)
    (value : ValueId) :
    (rebind bindings symbol value).map Prod.fst =
      if symbol ∈ bindings.map Prod.fst then bindings.map Prod.fst
      else bindings.map Prod.fst ++ [symbol] := by
  induction bindings with
  | nil => simp [rebind]
  | cons pair rest ih =>
      obtain ⟨other, old⟩ := pair
      rw [rebind]
      by_cases hother : other = symbol
      · simp [hother]
      · rw [if_neg hother, List.map_cons, ih, List.map_cons]
        by_cases hmem : symbol ∈ rest.map Prod.fst
        · rw [if_pos hmem, if_pos (List.mem_cons_of_mem _ hmem)]
        · have hnot : symbol ∉ other :: rest.map Prod.fst := by
            rw [List.mem_cons, not_or]
            exact ⟨Ne.symm hother, hmem⟩
          rw [if_neg hmem, if_neg hnot, List.cons_append]

private theorem nodup_keys_rebind {bindings : List (SymbolId × ValueId)}
    (h : (bindings.map Prod.fst).Nodup) (symbol : SymbolId) (value : ValueId) :
    ((rebind bindings symbol value).map Prod.fst).Nodup := by
  rw [keys_rebind]
  split
  · exact h
  · next hnew =>
    rw [List.nodup_append]
    refine ⟨h, List.nodup_singleton _, ?_⟩
    intro id hid other hother heq
    rw [heq, List.mem_singleton.1 hother] at hid
    exact hnew hid

private theorem lookup_of_mem {bindings : List (SymbolId × ValueId)}
    (h : (bindings.map Prod.fst).Nodup) {symbol : SymbolId} {value : ValueId}
    (hmem : (symbol, value) ∈ bindings) :
    bindings.lookup symbol = some value := by
  induction bindings with
  | nil => simp at hmem
  | cons pair rest ih =>
      obtain ⟨other, old⟩ := pair
      rw [List.map_cons, List.nodup_cons] at h
      rcases List.mem_cons.1 hmem with heq | hmem
      · rw [Prod.mk.injEq] at heq
        rw [heq.1, heq.2, List.lookup_cons_self]
      · have hne : symbol ≠ other := by
          intro heq
          exact h.1 (heq ▸ List.mem_map.2 ⟨_, hmem, rfl⟩)
        rw [List.lookup_cons, beq_eq_false_iff_ne.2 hne]
        exact ih h.2 hmem

/-! ## Tidy sessions -/

/-- No symbol is bound twice, no identity is stored twice, and what symbols are bound to is
stored. -/
structure Tidy (s : Session ν) : Prop where
  keys : (s.bindings.map Prod.fst).Nodup
  ids : (s.values.values.map Value.id).Nodup
  stored : ∀ id key, s.boundTo? id = some key → ∃ value, s.values.get? key = some value

/-- The table holds the values that symbols are bound to, and no others. -/
def Swept (s : Session ν) : Prop :=
  ∀ value, value ∈ s.values.values ↔ ∃ id, s.valueOf? id = some value

def JustCollected (s : Session ν) : Prop :=
  ∃ event ∈ s.journal.head?, isCollection event = true

variable {s t : Session ν}

private theorem tidy_initial (settings : Settings) : (initial settings : Session ν).Tidy := by
  refine ⟨List.nodup_nil, List.nodup_nil, ?_⟩
  intro id key hkey
  simp [initial, drain, boundTo?] at hkey

theorem Tidy.of_eq (h : s.Tidy) (hbindings : t.bindings = s.bindings)
    (hvalues : t.values = s.values) : t.Tidy := by
  refine ⟨hbindings ▸ h.keys, hvalues ▸ h.ids, ?_⟩
  intro id key hkey
  rw [boundTo?, hbindings] at hkey
  rw [hvalues]
  exact h.stored id key hkey

private theorem exists_get?_insert {table : ValueTable ν} {key : ValueId}
    (h : ∃ value, table.get? key = some value) (value : Value ν) :
    ∃ stored, (table.insert value).get? key = some stored := by
  by_cases hkey : key = value.id
  · exact ⟨value, hkey ▸ table.get?_insert_self value⟩
  · rw [ValueTable.get?_insert_of_ne hkey]
    exact h

theorem Tidy.storing (h : s.Tidy) (value : Value ν) : (s.storing value).Tidy :=
  ⟨h.keys, ValueTable.nodup_ids_insert h.ids value,
    fun id key hkey => exists_get?_insert (h.stored id key hkey) value⟩

theorem Tidy.bound (h : s.Tidy) (id : SymbolId) (value : Value ν) : (s.bound id value).Tidy := by
  refine ⟨nodup_keys_rebind h.keys id value.id, ValueTable.nodup_ids_insert h.ids value, ?_⟩
  intro other key hkey
  by_cases hother : other = id
  · subst hother
    rw [boundTo?_bound_self, Option.some.injEq] at hkey
    exact ⟨value, hkey ▸ s.values.get?_insert_self value⟩
  · rw [boundTo?_bound_of_ne s hother] at hkey
    exact exists_get?_insert (h.stored other key hkey) value

theorem Tidy.collected (h : s.Tidy) : s.collected.Tidy := by
  refine ⟨h.keys, h.ids.sublist (List.filter_sublist.map _), ?_⟩
  intro id key hkey
  have hkey : s.boundTo? id = some key := hkey
  rw [get?_collected hkey]
  exact h.stored id key hkey

/-- A collection leaves exactly the values that symbols are bound to. -/
theorem Tidy.swept (h : s.Tidy) : s.collected.Swept := by
  intro value
  constructor
  · intro hvalue
    obtain ⟨hstored, hlive⟩ := List.mem_filter.1 hvalue
    have hlive : value.id ∈ s.bindings.map Prod.snd := by simpa using hlive
    obtain ⟨⟨id, key⟩, hpair, heq⟩ := List.mem_map.1 hlive
    obtain rfl : key = value.id := heq
    refine ⟨id, ?_⟩
    rw [valueOf?_collected]
    exact valueOf?_eq_some.2 ⟨_, lookup_of_mem h.keys hpair, ValueTable.get?_of_mem h.ids hstored⟩
  · rintro ⟨id, hvalue⟩
    obtain ⟨key, -, hget⟩ := valueOf?_eq_some.1 hvalue
    exact ValueTable.mem_of_get? hget

/-! ## A session that collects and one that does not -/

/-- The second session never collects garbage, and but for values that nothing is bound to and for
collections it is like the first one. -/
structure Trails (s t : Session ν) : Prop where
  sourceName : t.settings.sourceName = s.settings.sourceName
  off : t.settings.collectEvery = none
  scoping : t.scoping = s.scoping
  bindings : t.bindings = s.bindings
  next : t.nextValue = s.nextValue
  labels : t.labels = s.labels
  observed : t.observed = s.observed
  stored : ∀ id key, s.boundTo? id = some key → t.values.get? key = s.values.get? key
  tidy : s.Tidy
  swept : s.JustCollected → s.Swept

theorem Trails.boundTo? (h : s.Trails t) (id : SymbolId) : t.boundTo? id = s.boundTo? id := by
  rw [Session.boundTo?, h.bindings, Session.boundTo?]

theorem Trails.valueOf? (h : s.Trails t) (id : SymbolId) : t.valueOf? id = s.valueOf? id := by
  rw [Session.valueOf?, h.boundTo?, Session.valueOf?]
  cases hkey : s.boundTo? id with
  | none => rfl
  | some key => exact h.stored id key hkey

theorem not_justCollected {event : Event ν} {journal : List (Event ν)}
    (h : isCollection event = false) (hjournal : s.journal = event :: journal) :
    ¬ s.JustCollected := by
  rintro ⟨last, hhead, hlast⟩
  rw [hjournal, List.head?_cons, Option.mem_some_iff] at hhead
  rw [← hhead, h] at hlast
  exact absurd hlast (by decide)

/-- Events that are no collections come after the last collection. -/
theorem JustCollected.of_append {events : List (Event ν)}
    (hevents : ∀ event ∈ events, isCollection event = false)
    (hjournal : t.journal = events ++ s.journal) (h : t.JustCollected) : s.JustCollected := by
  cases events with
  | nil =>
      rw [List.nil_append] at hjournal
      rw [JustCollected, hjournal] at h
      exact h
  | cons first rest =>
      exact absurd h (not_justCollected (hevents first List.mem_cons_self) hjournal)

theorem JustCollected.of_rescoped {scoping : Scoping} (h : (s.rescoped scoping).JustCollected) :
    s.JustCollected := by
  have hscopes : ∀ event ∈ scoping.log.map (Event.scope : ScopeEvent → Event ν),
      isCollection event = false := by
    intro event hevent
    obtain ⟨_, -, rfl⟩ := List.mem_map.1 hevent
    rfl
  exact h.of_append hscopes rfl

/-- Trailing is respected by all that does not just store a value. -/
theorem outlines_trails : Outlines (Trails : Session ν → Session ν → Prop) where
  scoping := Trails.scoping
  next := Trails.next
  labels := Trails.labels
  observed := Trails.observed
  values := Trails.valueOf?
  rescoped {s t} h scoping := by
    refine ⟨h.sourceName, h.off, rfl, h.bindings, h.next, h.labels, ?_, h.stored,
      h.tidy.of_eq rfl rfl, ?_⟩
    · rw [(resembles_rescoped t scoping).observed, (resembles_rescoped s scoping).observed,
        h.observed]
    · exact fun hjust => h.swept hjust.of_rescoped
  noted {s t} h events next hevents := by
    refine ⟨h.sourceName, h.off, h.scoping, h.bindings, rfl, h.labels, ?_, h.stored,
      h.tidy.of_eq rfl rfl, ?_⟩
    · rw [observed_noted, observed_noted, h.observed]
    · exact fun hjust => h.swept (hjust.of_append hevents rfl)
  bound {s t} h id value := by
    refine ⟨h.sourceName, h.off, h.scoping, ?_, h.next, h.labels, h.observed, ?_,
      h.tidy.bound id value, ?_⟩
    · exact congrArg (rebind · id value.id) h.bindings
    · intro other key hkey
      apply ValueTable.get?_insert_congr
      intro hne
      have hother : other ≠ id := by
        rintro rfl
        rw [boundTo?_bound_self, Option.some.injEq] at hkey
        exact hne hkey.symm
      rw [boundTo?_bound_of_ne s hother] at hkey
      exact h.stored other key hkey
    · exact fun hjust => absurd hjust (not_justCollected rfl rfl)
  labelled h labels :=
    ⟨h.sourceName, h.off, h.scoping, h.bindings, h.next, rfl, h.observed, h.stored,
      h.tidy.of_eq rfl rfl, h.swept⟩

/-- In the midst of an evaluation, after its first event, no collection is the last event. -/
def TrailsWithin (s t : Session ν) : Prop :=
  s.Trails t ∧ ¬ s.JustCollected

private theorem isLikeness_trailsWithin :
    IsLikeness (TrailsWithin : Session ν → Session ν → Prop) where
  scoping h := outlines_trails.scoping h.1
  next h := outlines_trails.next h.1
  labels h := outlines_trails.labels h.1
  observed h := outlines_trails.observed h.1
  values h := outlines_trails.values h.1
  rescoped h scoping := ⟨outlines_trails.rescoped h.1 scoping, fun hjust => h.2 hjust.of_rescoped⟩
  noted h events next hevents :=
    ⟨outlines_trails.noted h.1 events next hevents, fun hjust => h.2 (hjust.of_append hevents rfl)⟩
  bound h id value := ⟨outlines_trails.bound h.1 id value, not_justCollected rfl rfl⟩
  labelled h labels := ⟨outlines_trails.labelled h.1 labels, h.2⟩
  storing {s t} h value := by
    obtain ⟨h, hjust⟩ := h
    refine ⟨⟨h.sourceName, h.off, h.scoping, h.bindings, h.next, h.labels, h.observed, ?_,
      h.tidy.storing value, fun hlast => absurd hlast hjust⟩, hjust⟩
    intro id key hkey
    exact ValueTable.get?_insert_congr fun _ => h.stored id key hkey

/-! ## Requests -/

/-- A collection cannot be told by who never collects. -/
theorem Trails.collected (h : s.Trails t) : s.collected.Trails t := by
  refine ⟨h.sourceName, h.off, h.scoping, h.bindings, h.next, h.labels, h.observed, ?_,
    h.tidy.collected, fun _ => h.tidy.swept⟩
  intro id key hkey
  have hkey : s.boundTo? id = some key := hkey
  rw [get?_collected hkey]
  exact h.stored id key hkey

theorem Trails.counted (h : s.Trails t) (count : Nat) :
    (s.counted count).Trails (t.counted count) :=
  ⟨h.sourceName, h.off, h.scoping, h.bindings, h.next, h.labels, h.observed, h.stored,
    h.tidy.of_eq rfl rfl, fun hjust => absurd hjust (not_justCollected rfl rfl)⟩

theorem Trails.noted_parsed (h : s.Trails t) (count : Nat) :
    TrailsWithin (s.noted [.parsed count] s.nextValue) (t.noted [.parsed count] t.nextValue) := by
  have hparsed := outlines_trails.noted h [.parsed count] s.nextValue (by simp [isCollection])
  nth_rewrite 2 [← h.next] at hparsed
  exact ⟨hparsed, not_justCollected rfl rfl⟩

/-- After its statements an evaluation yields their value, and only the first session may
collect. -/
theorem Trails.concluded (h : s.Trails t) (count : Nat) (value : Value ν) :
    ∃ s', (conclude count value).on s = (.ok value, s') ∧
      (conclude count value).on t = (.ok value, t.counted count) ∧ s'.Trails (t.counted count) := by
  have hcounted := h.counted count
  rw [on_conclude_off h.off, on_conclude]
  rcases on_collectIfDue (s.counted count) with hon | hon
  · exact ⟨_, Act.on_bind_of_ok hon _, rfl, hcounted⟩
  · exact ⟨_, Act.on_bind_of_ok hon _, rfl, hcounted.collected⟩

theorem Trails.evaluated (h : s.Trails t) (natives : Natives ν) (watch : Watch)
    (source : String) :
    ((evaluate natives.host watch source).on t).1 =
        ((evaluate natives.host watch source).on s).1 ∧
      ((evaluate natives.host watch source).on s).2.Trails
        ((evaluate natives.host watch source).on t).2 := by
  cases hparse : parseProgram source s.settings.sourceName with
  | error diagnostic =>
      rw [on_evaluate_refused hparse, on_evaluate_refused (h.sourceName ▸ hparse)]
      exact ⟨rfl, h⟩
  | ok trees =>
      have hlike := isLikeness_trailsWithin (ν := ν)
      have hparsed := h.noted_parsed trees.length
      have henter : RunsAlike natives TrailsWithin 0 _ (onScopes (Scoping.enter Forest.replId)) _ :=
        hlike.runsAlike_onScopes (Scoping.lowers_enter Forest.replId)
      have hleave : RunsAlike natives TrailsWithin 0 _ (onScopes Scoping.leave) _ :=
        hlike.runsAlike_onScopes Scoping.lowers_leave
      have hrun : RunsAlike natives TrailsWithin 0 Eq _ _ :=
        hlike.runsAlike_runStatements watch trees .nothing
      rw [← Tree.downAll_eq_map, Tree.downAll_zero] at hrun
      rw [on_evaluate_read hparse, on_evaluate_read (h.sourceName ▸ hparse)]
      refine (henter.bind_on hparsed (fun _ _ h => h.1) ?_).imp_left Natives.eq_of_alike
      intro _ _ s₁ t₁ _ hentered
      refine (hrun.closing hleave).bind_on hentered (fun _ _ h => h.1) ?_
      intro value _ s₂ t₂ hvalue hleft
      subst hvalue
      obtain ⟨s', hs', ht', hafter⟩ := hleft.1.concluded trees.length value
      rw [hs', ht']
      exact ⟨.ok rfl, hafter⟩

theorem Outlines.runsAlike_register {natives : Natives ν}
    {related : Session ν → Session ν → Prop} (hlike : Outlines related) (name : String)
    (arguments : List String) (result : Option String) (handle : ν) :
    RunsAlike natives related 0 Eq (register name arguments result handle)
      (register name arguments result handle) := by
  rw [register_eq]
  refine (hlike.runsAlike_onScopes (.mapM Scoping.lowers_typeNamed arguments)).bind
    fun argumentTypes _ h => ?_
  subst h
  have hkind : RunsAlike natives related 0 Eq (resultKind name result)
      (resultKind name result) := by
    unfold resultKind
    cases result with
    | none => exact .pure rfl
    | some type =>
        dsimp only
        cases Primitive.Kind.named? type with
        | none => exact .throw (.inl rfl)
        | some kind => exact .pure rfl
  refine hkind.bind fun kind _ h => ?_
  subst h
  refine (hlike.runsAlike_onScopes (Scoping.lowers_mapM_option
    (fun kind => Scoping.lowers_typeNamed _) kind)).bind fun resultType _ h => ?_
  subst h
  refine (hlike.runsAlike_onScopes (Scoping.lowers_functionType _ _)).bind fun type _ h => ?_
  subst h
  have hdeclare := Scoping.lowers_declare (n := 0) name (.native type.id) Span.unknown
  refine (hlike.runsAlike_onScopes hdeclare).bind fun symbol _ h => ?_
  subst h
  refine (hlike.runsAlike_fresh _).bind fun value _ h => ?_
  subst h
  refine (hlike.runsAlike_bind symbol.id value).bind fun _ _ _ => ?_
  exact (hlike.runsAlike_record rfl).bind fun _ _ _ => .pure rfl

theorem Trails.on_lookup (h : s.Trails t) (name : String) :
    ((lookup name).on t).1 = ((lookup name).on s).1 ∧
      ((lookup name).on s).2 = s ∧ ((lookup name).on t).2 = t := by
  unfold lookup
  rw [Act.on_bind_of_ok (Act.on_get s), Act.on_bind_of_ok (Act.on_get t), h.scoping]
  cases s.scoping.forest.lookup Forest.replId name with
  | error failure => exact ⟨rfl, rfl, rfl⟩
  | ok symbol =>
      cases symbol with
      | none => exact ⟨rfl, rfl, rfl⟩
      | some symbol =>
          refine ⟨?_, rfl, rfl⟩
          exact congrArg Except.ok (h.valueOf? symbol.id)

theorem Trails.served (h : s.Trails t) (natives : Natives ν) {request : Request ν}
    (hrequest : request.isCollection = false) :
    (t.serve natives request).1 = (s.serve natives request).1 ∧
      (s.serve natives request).2.Trails (t.serve natives request).2 := by
  cases request with
  | evaluate watch source =>
      obtain ⟨hanswer, hafter⟩ := h.evaluated natives watch source
      exact ⟨congrArg Answer.evaluated hanswer, hafter⟩
  | register name arguments result handle =>
      have hregister : RunsAlike natives Trails 0 Eq _ _ :=
        outlines_trails.runsAlike_register name arguments result handle
      obtain ⟨halike, hafter⟩ := hregister s t h
      exact ⟨congrArg Answer.registered (Natives.eq_of_alike halike), hafter⟩
  | lookup name =>
      obtain ⟨hanswer, hs, ht⟩ := h.on_lookup name
      refine ⟨congrArg Answer.found hanswer, ?_⟩
      simp only [serve, Prod.map_snd, hs, ht]
      exact h
  | collect => simp [Request.isCollection] at hrequest

private theorem answer_isCollection (natives : Natives ν) (s : Session ν) (request : Request ν) :
    (s.serve natives request).1.isCollection = request.isCollection := by
  cases request <;> rfl

theorem Trails.servedAll (natives : Natives ν) (requests : List (Request ν)) (h : s.Trails t) :
    (serveAll natives requests s).1.filter (!·.isCollection) =
        (serveAll natives (requests.filter (!·.isCollection)) t).1 ∧
      (serveAll natives requests s).2.Trails
        (serveAll natives (requests.filter (!·.isCollection)) t).2 := by
  induction requests generalizing s t with
  | nil => exact ⟨rfl, h⟩
  | cons request requests ih =>
      have hanswer := answer_isCollection natives s request
      cases hrequest : request.isCollection with
      | true =>
          have hcollect : request = .collect := by
            cases request <;> first | rfl | simp [Request.isCollection] at hrequest
          have hrest := ih h.collected
          rw [List.filter_cons_of_neg (by simp [hrequest])]
          rw [hcollect]
          exact hrest
      | false =>
          obtain ⟨hsame, hafter⟩ := h.served natives hrequest
          obtain ⟨hrest, hlast⟩ := ih hafter
          rw [hrequest] at hanswer
          rw [List.filter_cons_of_pos (by simp [hrequest])]
          refine ⟨?_, hlast⟩
          simp only [serveAll]
          rw [List.filter_cons_of_pos (by simp [hanswer]), hrest, hsame]

/-- Collections of garbage cannot be told from the answers, the output, the calls of native
functions or the bindings, the values that symbols are bound to are stored all the same, and right
after a collection there are no others. -/
theorem collection_unobservable (natives : Natives ν) (settings : Settings) (every : Option Int)
    (requests : List (Request ν)) :
    let collecting := serveAll natives requests (.initial { settings with collectEvery := every })
    let plain := serveAll natives (requests.filter (!·.isCollection))
      (.initial { settings with collectEvery := none })
    collecting.1.filter (!·.isCollection) = plain.1 ∧
      collecting.2.observed = plain.2.observed ∧ collecting.2.bindings = plain.2.bindings ∧
      (∀ id key, collecting.2.boundTo? id = some key → ∃ value,
        collecting.2.values.get? key = some value ∧ plain.2.values.get? key = some value) ∧
      (collecting.2.JustCollected → ∀ value,
        value ∈ collecting.2.values.values ↔ ∃ id, collecting.2.valueOf? id = some value) := by
  have hstart : (initial { settings with collectEvery := every } : Session ν).Trails
      (initial { settings with collectEvery := none }) := by
    refine ⟨rfl, rfl, rfl, rfl, rfl, rfl, rfl, fun _ _ _ => rfl, tidy_initial _, ?_⟩
    exact fun hjust => absurd hjust (not_justCollected rfl rfl)
  obtain ⟨hanswers, hafter⟩ := hstart.servedAll natives requests
  refine ⟨hanswers, hafter.observed.symm, hafter.bindings.symm, ?_, hafter.swept⟩
  intro id key hkey
  obtain ⟨value, hvalue⟩ := hafter.tidy.stored id key hkey
  exact ⟨value, hvalue, (hafter.stored id key hkey).trans hvalue⟩

end Session

end Scriptlet
