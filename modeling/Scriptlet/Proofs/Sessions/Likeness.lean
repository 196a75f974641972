import Scriptlet.Proofs.Analysis.Lines
import Scriptlet.Proofs.Lexical.Simulation
/-!
# Sessions that are alike

Two sessions may differ in what no program can tell: in values that nothing is
bound to, in the events that are not observable.  `IsLikeness` lists what a
relation of sessions has to respect for that.  Then executing a statement in one
of them and the same statement, perhaps some lines further down, in the other one
has the same outcome and leaves them related.
-/

namespace Scriptlet

open Act (Alike Corresponds)

variable {ν : Type}

/-- Some native function fails in this way. -/
def Natives.Raises (natives : Natives ν) (failure : Failure) : Prop :=
  ∃ handle arguments trace next,
    (natives.respond handle arguments trace next).outcome = .error failure

/-- The failure is the same some lines further down, or it is the very same and comes from a
native function, which knows no place in the source. -/
def Natives.Echoes (natives : Natives ν) (n : Nat) (failure failure' : Failure) : Prop :=
  Lowered n failure failure' ∨ failure' = failure ∧ natives.Raises failure

theorem Natives.Echoes.eq_of_zero {natives : Natives ν} {failure failure' : Failure}
    (h : natives.Echoes 0 failure failure') : failure' = failure := by
  rcases h with h | ⟨h, -⟩
  · exact h.trans failure.down_zero
  · exact h

theorem Natives.eq_of_alike {α : Type} {natives : Natives ν} {outcome outcome' : Except Failure α}
    (h : Alike Eq (natives.Echoes 0) outcome outcome') : outcome' = outcome := by
  cases h with
  | ok h => rw [h]
  | error h => rw [h.eq_of_zero]

namespace Session

def isCollection : Event ν → Bool
  | .collected .. => true
  | _ => false

theorem observed_noted (s : Session ν) (events : List (Event ν)) (next : Nat) :
    (s.noted events next).observed = events.filter isObservable ++ s.observed :=
  List.filter_append _ _

/-- What a relation of sessions has to respect so that neither the scopes nor the bound symbols
tell related ones apart. -/
structure Outlines (related : Session ν → Session ν → Prop) : Prop where
  scoping : ∀ {s t}, related s t → t.scoping = s.scoping
  next : ∀ {s t}, related s t → t.nextValue = s.nextValue
  labels : ∀ {s t}, related s t → t.labels = s.labels
  observed : ∀ {s t}, related s t → t.observed = s.observed
  values : ∀ {s t}, related s t → ∀ id, t.valueOf? id = s.valueOf? id
  rescoped : ∀ {s t}, related s t → ∀ scoping, related (s.rescoped scoping) (t.rescoped scoping)
  noted : ∀ {s t}, related s t → ∀ events next, (∀ event ∈ events, isCollection event = false) →
    related (s.noted events next) (t.noted events next)
  bound : ∀ {s t}, related s t → ∀ id value, related (s.bound id value) (t.bound id value)
  labelled : ∀ {s t}, related s t → ∀ labels : Labels,
    related { s with labels := labels } { t with labels := labels }

/-- What a relation of sessions has to respect so that no program tells related ones apart: a call
stores its result before anything is bound to it. -/
structure IsLikeness (related : Session ν → Session ν → Prop) : Prop extends Outlines related where
  storing : ∀ {s t}, related s t → ∀ value, related (s.storing value) (t.storing value)

variable {natives : Natives ν} {related : Session ν → Session ν → Prop} {n : Nat}

/-! ## Steps of a session -/

abbrev RunsAlike {α β : Type} (natives : Natives ν) (related : Session ν → Session ν → Prop)
    (n : Nat) (values : α → β → Prop) (act : Act (Session ν) α) (act' : Act (Session ν) β) : Prop :=
  Corresponds related values (natives.Echoes n) act act'

namespace Outlines

theorem runsAlike_onScopes {α β : Type} (hlike : Outlines related) {values : α → β → Prop}
    {act : Act Scoping α} {act' : Act Scoping β} (h : Scoping.Lowers n values act act') :
    RunsAlike natives related n values (onScopes act) (onScopes act') := by
  intro s t hrelated
  obtain ⟨houtcome, hafter⟩ := h s.scoping t.scoping (hlike.scoping hrelated).symm
  rw [on_onScopes (Prod.eta (act.on s.scoping)).symm,
    on_onScopes (Prod.eta (act'.on t.scoping)).symm, ← hafter]
  exact ⟨houtcome.mono (fun _ _ h => h) (fun _ _ h => .inl h), hlike.rescoped hrelated _⟩

theorem runsAlike_record (hlike : Outlines related) {event : Event ν}
    (h : isCollection event = false) :
    RunsAlike natives related n (fun _ _ => True) (record event) (record event) := by
  intro s t hrelated
  have hafter := hlike.noted hrelated [event] s.nextValue (by simpa using h)
  nth_rewrite 2 [← hlike.next hrelated] at hafter
  exact ⟨.ok trivial, hafter⟩

theorem runsAlike_fresh (hlike : Outlines related) (payload : Payload ν) :
    RunsAlike natives related n Eq (fresh payload) (fresh payload) := by
  intro s t hrelated
  have hnext := hlike.next hrelated
  have hafter := hlike.noted hrelated [] (s.nextValue + 1) (by simp)
  nth_rewrite 2 [← hnext] at hafter
  rw [on_fresh, on_fresh]
  exact ⟨.ok (by rw [hnext]), hafter⟩

theorem runsAlike_bind (hlike : Outlines related) (id : SymbolId) (value : Value ν) :
    RunsAlike natives related n (fun _ _ => True) (bind id value) (bind id value) :=
  fun _ _ hrelated => ⟨.ok trivial, hlike.bound hrelated id value⟩

theorem runsAlike_ofHost {α : Type} (outcome : Except HostError α) :
    RunsAlike natives related n Eq (Act.ofHost outcome) (Act.ofHost outcome) := by
  apply Corresponds.ofExcept
  cases outcome with
  | ok value => exact .ok rfl
  | error error => exact .error (.inl rfl)

private theorem runsAlike_labelling {α : Type} (hlike : Outlines related)
    (work : Annotated.Labelling α) :
    RunsAlike natives related n Eq (labelling work) (labelling work) := by
  intro s t hrelated
  have hlabels := hlike.labels hrelated
  unfold labelling
  rw [Act.on_bind_of_ok (Act.on_get s), Act.on_bind_of_ok (Act.on_get t), hlabels]
  match work.run s.labels with
  | (outcome, labels) =>
      dsimp only
      rw [Act.on_bind_of_ok (Act.on_set _ _), Act.on_bind_of_ok (Act.on_set _ _)]
      exact runsAlike_ofHost outcome _ _ (hlike.labelled hrelated labels)

end Outlines

open Outlines

namespace IsLikeness

private theorem runsAlike_store (hlike : IsLikeness related) (value : Value ν) :
    RunsAlike natives related n (fun _ _ => True) (store value) (store value) :=
  fun _ _ hrelated => ⟨.ok trivial, hlike.storing hrelated value⟩

/-! ## Execution -/

private theorem runsAlike_literal (token : Token) (kind : Primitive.Kind) :
    RunsAlike natives related n Eq (Act.ofDiagnostic (literalValue token kind))
      (Act.ofDiagnostic (literalValue (token.down n) kind)) := by
  apply Corresponds.ofExcept
  unfold literalValue
  rw [Token.down_text, Token.down_span]
  cases kind with
  | integer =>
      dsimp only
      cases Numeral.read token.text with
      | ok value => exact .ok rfl
      | error error => exact .error (.inl rfl)
  | decimal =>
      dsimp only
      cases Decimal.read? token.text with
      | some value => exact .ok rfl
      | none => exact .error (.inl rfl)
  | truth =>
      dsimp only
      split
      · exact .ok rfl
      · split
        · exact .ok rfl
        · exact .error (.inl rfl)
  | text => exact .ok rfl

theorem runsAlike_failAt {α β : Type} (values : α → β → Prop) (fault : Fault) (token : Token) :
    RunsAlike natives related n values (Act.fail fault token.span)
      (Act.fail fault (token.down n).span) :=
  .fail (.inl (Analysis.lowered_at fault token))

private theorem runsAlike_readVariable (hlike : IsLikeness related) (id : SymbolId)
    (token : Token) :
    RunsAlike natives related n Eq (readVariable id token) (readVariable id (token.down n)) := by
  refine (hlike.runsAlike_onScopes (Scoping.lowers_resolveId id)).bind fun found _ h => ?_
  subst h
  cases found with
  | none => exact runsAlike_failAt _ _ token
  | some symbol =>
      refine Corresponds.get fun s t hrelated => ?_
      have hvalue : (t.boundTo? symbol.id).bind t.values.get? =
          (s.boundTo? symbol.id).bind s.values.get? := hlike.values hrelated symbol.id
      rw [hvalue]
      cases (s.boundTo? symbol.id).bind s.values.get? with
      | none => exact runsAlike_failAt _ _ token
      | some value => exact .pure rfl

private theorem runsAlike_ofReply (hlike : IsLikeness related) (reply : Reply ν) :
    RunsAlike natives related n Eq (ofReply reply) (ofReply reply) := by
  have hfresh : ∀ datum : Datum, RunsAlike natives related n Eq
      (Act.ofExcept (Payload.ofDatum datum) >>= fresh)
      (Act.ofExcept (Payload.ofDatum datum) >>= fresh) := by
    intro datum
    have hpayload : Alike Eq (natives.Echoes n) (Payload.ofDatum datum : Except Failure (Payload ν))
        (Payload.ofDatum datum) := by
      cases datum <;> first | exact .ok rfl | exact .error (.inl rfl)
    exact (Corresponds.ofExcept hpayload).bind fun payload _ h => h ▸ hlike.runsAlike_fresh payload
  cases reply with
  | value value => exact .pure rfl
  | function => exact .throw (.inl rfl)
  | datum datum =>
      cases datum with
      | nothing => exact .pure rfl
      | _ => exact hfresh _

private theorem runsAlike_invoke (hlike : IsLikeness related) (handle : ν)
    (arguments : List (Value ν)) :
    Corresponds related Eq (fun failure failure' => failure' = failure ∧ natives.Raises failure)
      (natives.host.invoke handle arguments) (natives.host.invoke handle arguments) := by
  intro s t hrelated
  have hnext := hlike.next hrelated
  have hsame : natives.respond handle arguments t.observed t.nextValue =
      natives.respond handle arguments s.observed s.nextValue := by
    rw [hlike.observed hrelated, hnext]
  rw [on_invoke natives handle arguments s rfl, on_invoke natives handle arguments t hsame, hnext]
  refine ⟨?_, hlike.noted hrelated _ _ ?_⟩
  · cases houtcome : (natives.respond handle arguments s.observed s.nextValue).outcome with
    | ok reply => exact .ok rfl
    | error failure => exact .error ⟨rfl, _, _, _, _, houtcome⟩
  · intro event hevent
    obtain ⟨text, -, rfl⟩ := List.mem_map.1 hevent
    rfl

theorem runsAlike_failShown (shown : Except Numeral.Error String) (fault : String → Fault)
    (token : Token) :
    RunsAlike natives related n (Eq : Value ν → Value ν → Prop)
      (Act.ofNumeral shown >>= fun text => Act.fail (fault text) token.span)
      (Act.ofNumeral shown >>= fun text => Act.fail (fault text) (token.down n).span) :=
  (runsAlike_ofHost _).bind fun _ _ h => h ▸ runsAlike_failAt _ _ token

theorem runsAlike_call (hlike : IsLikeness related) (callee : Value ν)
    (arguments : List (Value ν)) (token : Token) :
    RunsAlike natives related n Eq (call natives.host callee arguments token)
      (call natives.host callee arguments (token.down n)) := by
  unfold call
  cases callee.payload with
  | nothing => exact runsAlike_failShown _ _ token
  | primitive value => exact runsAlike_failShown _ _ token
  | native name handle result =>
      refine (hlike.runsAlike_record rfl).bind fun _ _ _ => ?_
      refine (hlike.runsAlike_invoke handle arguments).attempt.bind ?_
      intro outcome _ houtcome
      cases houtcome with
      | @ok reply _ h =>
          subst h
          cases result with
          | none => exact .pure rfl
          | some kind =>
              refine (hlike.runsAlike_ofReply reply).bind fun value _ h => ?_
              subst h
              by_cases hkind : value.payload.kind? = some kind
              · simp only [if_pos hkind]
                exact (hlike.runsAlike_store value).bind fun _ _ _ => .pure rfl
              · simp only [if_neg hkind]
                exact runsAlike_failShown _ _ token
      | @error _ failure h =>
          obtain ⟨rfl, hraises⟩ := h
          cases failure with
          | fault diagnostic => exact .throw (.inr ⟨rfl, hraises⟩)
          | host error =>
              dsimp only
              rw [Token.down_span]
              exact .throw (.inl rfl)

mutual

theorem runsAlike_execute (hlike : IsLikeness related) : (node : Annotated) →
    RunsAlike natives related n Eq (execute natives.host node) (execute natives.host (node.down n))
  | .block statements scope token => by
      rw [Annotated.down, execute, execute]
      refine (hlike.runsAlike_onScopes (Scoping.lowers_enter scope)).bind fun _ _ _ => ?_
      have hleave : RunsAlike natives related n _ (onScopes Scoping.leave) _ :=
        hlike.runsAlike_onScopes Scoping.lowers_leave
      refine ((hlike.runsAlike_executeAll statements).closing hleave).bind fun _ _ _ => ?_
      exact .pure rfl
  | .literal token kind => by
      rw [Annotated.down, execute, execute]
      refine (runsAlike_literal token kind).bind fun value _ h => ?_
      exact h ▸ hlike.runsAlike_fresh (.primitive value)
  | .reference symbol token => by
      rw [Annotated.down, execute, execute]
      exact hlike.runsAlike_readVariable symbol token
  | .declare symbol initializer token => by
      rw [Annotated.down, execute, execute]
      refine (hlike.runsAlike_execute initializer).bind fun value _ h => ?_
      subst h
      exact (hlike.runsAlike_bind symbol value).bind fun _ _ _ => .pure rfl
  | .assign symbol node token => by
      rw [Annotated.down, execute, execute]
      refine (hlike.runsAlike_execute node).bind fun value _ h => ?_
      subst h
      exact (hlike.runsAlike_bind symbol value).bind fun _ _ _ => .pure rfl
  | .call callee arguments token => by
      rw [Annotated.down, execute, execute]
      refine (hlike.runsAlike_execute callee).bind fun function _ h => ?_
      subst h
      cases function.payload with
      | native name handle result =>
          refine (hlike.runsAlike_executeArguments arguments).bind fun values _ h => ?_
          subst h
          exact hlike.runsAlike_call function values token
      | nothing => exact hlike.runsAlike_call function [] token
      | primitive value => exact hlike.runsAlike_call function [] token
  | .conditional condition body token => by
      rw [Annotated.down, execute, execute]
      refine (hlike.runsAlike_execute condition).bind fun test _ h => ?_
      subst h
      by_cases htest : isTrue test = true
      · simp only [if_pos htest]
        exact (hlike.runsAlike_execute body).bind fun _ _ _ => .pure rfl
      · simp only [if_neg htest]
        exact .pure rfl
  | .debugPrint operand token => by
      rw [Annotated.down, execute, execute]
      refine (hlike.runsAlike_execute operand).bind fun value _ h => ?_
      subst h
      refine (runsAlike_ofHost _).bind fun shown _ h => ?_
      subst h
      exact (hlike.runsAlike_record rfl).bind fun _ _ _ => .pure rfl
  | .foreign sort => by
      rw [Annotated.down, execute]
      exact .throw (.inl rfl)

private theorem runsAlike_executeAll (hlike : IsLikeness related) : (nodes : List Annotated) →
    RunsAlike natives related n (fun _ _ => True) (executeAll natives.host nodes)
      (executeAll natives.host (Annotated.downAll n nodes))
  | [] => by
      rw [Annotated.downAll, executeAll]
      exact .pure trivial
  | node :: nodes => by
      rw [Annotated.downAll, executeAll, executeAll]
      exact (hlike.runsAlike_execute node).bind fun _ _ _ => hlike.runsAlike_executeAll nodes

private theorem runsAlike_executeArguments (hlike : IsLikeness related) : (nodes : List Annotated) →
    RunsAlike natives related n Eq (executeArguments natives.host nodes)
      (executeArguments natives.host (Annotated.downAll n nodes))
  | [] => by
      rw [Annotated.downAll, executeArguments]
      exact .pure rfl
  | node :: nodes => by
      rw [Annotated.downAll, executeArguments, executeArguments]
      refine (hlike.runsAlike_execute node).bind fun value _ h => ?_
      subst h
      refine (hlike.runsAlike_executeArguments nodes).bind fun values _ h => ?_
      exact .pure (by rw [h])

end

/-! ## Statements -/

private theorem runsAlike_observe (hlike : IsLikeness related) (watch : Watch) (tree : Tree)
    (node : Annotated) :
    RunsAlike natives related n (fun _ _ => True) (observe watch tree node)
      (observe watch (tree.down n) (node.down n)) := by
  have hsecond : RunsAlike natives related n (fun _ _ => True)
      (if watch.annotatedTree = true then labelling (node.dump .standard) >>= writeLine
        else pure ())
      (if watch.annotatedTree = true then labelling ((node.down n).dump .standard) >>= writeLine
        else pure ()) := by
    rw [Annotated.dump_down]
    split
    · refine (hlike.runsAlike_labelling _).bind fun text _ h => ?_
      exact h ▸ hlike.runsAlike_record rfl
    · exact .pure trivial
  unfold observe
  rw [Tree.dump_down]
  dsimp only
  split
  · refine (runsAlike_ofHost _).bind fun text _ h => ?_
    subst h
    exact (hlike.runsAlike_record rfl).bind fun _ _ _ => hsecond
  · exact hsecond

private theorem runsAlike_runStatement (hlike : IsLikeness related) (watch : Watch) (tree : Tree) :
    RunsAlike natives related n Eq (runStatement natives.host watch tree)
      (runStatement natives.host watch (tree.down n)) := by
  refine (hlike.runsAlike_onScopes (Analysis.lowers_analyse tree)).bind fun analysed _ h => ?_
  subst h
  refine (hlike.runsAlike_observe watch tree analysed.node).bind fun _ _ _ => ?_
  exact hlike.runsAlike_execute analysed.node

theorem runsAlike_runStatements (hlike : IsLikeness related) (watch : Watch) (trees : List Tree)
    (last : Value ν) :
    RunsAlike natives related n Eq (runStatements natives.host watch last trees)
      (runStatements natives.host watch last (trees.map (Tree.down n))) := by
  induction trees generalizing last with
  | nil =>
      rw [List.map_nil, runStatements]
      exact .pure rfl
  | cons tree trees ih =>
      rw [List.map_cons, runStatements_cons, runStatements_cons]
      exact (hlike.runsAlike_runStatement watch tree).bind fun value _ h => h ▸ ih value

end IsLikeness

end Session

end Scriptlet
