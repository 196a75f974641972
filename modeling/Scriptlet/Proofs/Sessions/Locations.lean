import Scriptlet.Proofs.Analysis.Failures
import Scriptlet.Proofs.Sessions.TypeSoundness
/-!
# Locations of refusals

Executing a statement fails for faults of the run, for breaches of the language's own
invariants and for whatever native functions raise.  So a source that is refused as such,
whatever the session, is refused at a place of its own: the parser's faults stand at a
character, at a token or behind the last one, and those of the analysis at a token.

One of these places is missed.  Behind a newline the input ends in the next line, but the
parser puts its end one column behind the newline, where the source has no place.
-/

namespace Scriptlet

open Act (FailsWith)

variable {ν : Type} {host : Host ν}

def Host.Raises (host : Host ν) (failure : Failure) : Prop :=
  ∃ handle arguments s, ((host.invoke handle arguments).on s).1 = .error failure

/-- Failures at tokens of a source, failures of the run, and those that native functions raise. -/
def Host.Reports (host : Host ν) (tokens : List Token) (failure : Failure) : Prop :=
  failure.PointsAt tokens ∨ host.Raises failure

namespace Session

variable {tokens : List Token}

/-! ## Failures of execution -/

theorem ofHost_failsWith {σ α : Type} (outcome : Except HostError α) :
    FailsWith (host.Reports tokens) (Act.ofHost outcome : Act σ α) := by
  apply FailsWith.ofExcept
  cases outcome with
  | ok value =>
      intro failure h
      cases h
  | error error =>
      intro failure h
      cases h
      exact .inl trivial

theorem ofNumeral_failsWith {σ α : Type} (outcome : Except Numeral.Error α) :
    FailsWith (host.Reports tokens) (Act.ofNumeral outcome : Act σ α) :=
  ofHost_failsWith _

theorem onScopes_failsWith {α : Type} {act : Act Scoping α}
    (h : FailsWith Failure.IsInternal act) :
    FailsWith (host.Reports tokens) (onScopes act : Act (Session ν) α) :=
  (FailsWith.zoom h).mono fun _ hinternal => .inl (hinternal.pointsAt tokens)

theorem fail_failsWith {α : Type} {fault : Fault} (hphase : fault.phase = .internal) (span : Span) :
    FailsWith (host.Reports tokens) (Act.fail fault span : Act (Session ν) α) :=
  .fail (.inl (.inr (.inr hphase)))

private theorem fresh_failsWith (payload : Payload ν) :
    FailsWith (host.Reports tokens) (fresh payload) := by
  intro s failure h
  cases h

private theorem bind_failsWith (symbol : SymbolId) (value : Value ν) :
    FailsWith (host.Reports tokens) (bind symbol value) :=
  .bind (.modify _) fun _ => .bind (.modify _) fun _ => .modify _

private theorem literalValue_failsWith (token : Token) (kind : Primitive.Kind) :
    FailsWith (host.Reports tokens)
      (Act.ofDiagnostic (literalValue token kind) : Act (Session ν) Primitive) := by
  have hphase : ∀ d, literalValue token kind = .error d → d.fault.phase = .internal := by
    intro d hd
    unfold literalValue at hd
    cases kind with
    | integer =>
        dsimp only at hd
        split at hd <;> cases hd
        rfl
    | decimal =>
        dsimp only at hd
        split at hd <;> cases hd
        rfl
    | truth =>
        dsimp only at hd
        split at hd
        · cases hd
        · split at hd <;> cases hd
          rfl
    | text => cases hd
  apply FailsWith.ofExcept
  intro failure h
  cases hvalue : literalValue token kind with
  | ok value =>
      rw [hvalue] at h
      cases h
  | error d =>
      rw [hvalue] at h
      cases h
      exact .inl (.inr (.inr (hphase d hvalue)))

private theorem readVariable_failsWith (id : SymbolId) (token : Token) :
    FailsWith (host.Reports tokens) (readVariable id token : Act (Session ν) (Value ν)) := by
  refine (onScopes_failsWith (Scoping.resolveId_failsWith id)).bind fun found => ?_
  cases found with
  | none => exact fail_failsWith rfl _
  | some symbol =>
      refine .bind .get fun s => ?_
      split
      · exact fail_failsWith rfl _
      · exact .pure _

private theorem ofReply_failsWith (reply : Reply ν) :
    FailsWith (host.Reports tokens) (ofReply reply) := by
  cases reply with
  | value value => exact .pure value
  | function => exact .throw (.inl (.inr (.inr rfl)))
  | datum datum =>
      have hreceive : FailsWith (host.Reports tokens)
          (Act.ofExcept (Payload.ofDatum datum) : Act (Session ν) (Payload ν)) := by
        apply FailsWith.ofExcept
        intro failure h
        unfold Payload.ofDatum at h
        split at h <;> cases h
        exact .inl (.inr (.inr rfl))
      cases datum with
      | nothing => exact .pure _
      | _ => exact hreceive.bind fun _ => fresh_failsWith _

private theorem call_failsWith (callee : Value ν) (arguments : List (Value ν)) (token : Token) :
    FailsWith (host.Reports tokens) (call host callee arguments token) := by
  unfold call
  cases callee.payload with
  | nothing => exact (ofNumeral_failsWith _).bind fun _ => fail_failsWith rfl _
  | primitive value => exact (ofNumeral_failsWith _).bind fun _ => fail_failsWith rfl _
  | native name handle result =>
      refine .bind (.modify _) fun _ => .attempt_bind fun s => ?_
      match hinvoke : ((host.invoke handle arguments).on s).1 with
      | .error (.fault diagnostic) => exact .throw (.inr ⟨handle, arguments, s, hinvoke⟩)
      | .error (.host error) => exact .throw (.inl (.inr (.inl rfl)))
      | .ok reply =>
          dsimp only
          cases result with
          | none => exact .pure _
          | some kind =>
              refine (ofReply_failsWith reply).bind fun value => ?_
              split
              · exact .bind (.modify _) fun _ => .pure _
              · exact (ofNumeral_failsWith _).bind fun _ => fail_failsWith rfl _

mutual

/-- Execution fails for the run, not for the text. -/
theorem execute_failsWith : (node : Annotated) →
    FailsWith (host.Reports tokens) (execute host node)
  | .block statements scope token => by
      rw [execute]
      refine (onScopes_failsWith (Scoping.enter_failsWith scope)).bind fun _ => ?_
      exact ((executeAll_failsWith statements).closing
        (onScopes_failsWith Scoping.leave_failsWith)).bind fun _ => .pure _
  | .literal token kind => by
      rw [execute]
      exact (literalValue_failsWith token kind).bind fun _ => fresh_failsWith _
  | .reference symbol token => by
      rw [execute]
      exact readVariable_failsWith symbol token
  | .declare symbol initializer token => by
      rw [execute]
      exact (execute_failsWith initializer).bind fun value =>
        (bind_failsWith symbol value).bind fun _ => .pure _
  | .assign symbol value token => by
      rw [execute]
      exact (execute_failsWith value).bind fun value =>
        (bind_failsWith symbol value).bind fun _ => .pure _
  | .call callee arguments token => by
      rw [execute]
      refine (execute_failsWith callee).bind fun function => ?_
      split
      · exact (executeArguments_failsWith arguments).bind fun values =>
          call_failsWith function values token
      · exact call_failsWith function [] token
  | .conditional condition body token => by
      rw [execute]
      refine (execute_failsWith condition).bind fun test => ?_
      split
      · exact (execute_failsWith body).bind fun _ => .pure _
      · exact .pure _
  | .debugPrint operand token => by
      rw [execute]
      exact (execute_failsWith operand).bind fun value => (ofNumeral_failsWith _).bind fun _ =>
        .bind (.modify _) fun _ => .pure _
  | .foreign sort => by
      rw [execute]
      exact .throw (.inl trivial)

private theorem executeAll_failsWith : (nodes : List Annotated) →
    FailsWith (host.Reports tokens) (executeAll host nodes)
  | [] => by
      rw [executeAll]
      exact .pure _
  | node :: nodes => by
      rw [executeAll]
      exact (execute_failsWith node).bind fun _ => executeAll_failsWith nodes

private theorem executeArguments_failsWith : (nodes : List Annotated) →
    FailsWith (host.Reports tokens) (executeArguments host nodes)
  | [] => by
      rw [executeArguments]
      exact .pure _
  | node :: nodes => by
      rw [executeArguments]
      exact (execute_failsWith node).bind fun _ =>
        (executeArguments_failsWith nodes).bind fun _ => .pure _

end

/-! ## Failures of an evaluation -/

private theorem observe_failsWith (watch : Watch) (tree : Tree) (node : Annotated) :
    FailsWith (host.Reports tokens) (observe watch tree node : Act (Session ν) Unit) := by
  have hlabelling : FailsWith (host.Reports tokens)
      (labelling (node.dump .standard) : Act (Session ν) String) :=
    .bind .get fun _ => .bind (.set _) fun _ => ofHost_failsWith _
  have hsecond : FailsWith (host.Reports tokens)
      (if watch.annotatedTree = true then labelling (node.dump .standard) >>= writeLine
        else pure () : Act (Session ν) Unit) := by
    split
    · exact hlabelling.bind fun _ => .modify _
    · exact .pure _
  unfold observe
  dsimp only
  split
  · exact (ofHost_failsWith _).bind fun _ => .bind (.modify _) fun _ => hsecond
  · exact hsecond

private theorem runStatements_failsWith {trees : List Tree}
    (h : ∀ tree ∈ trees, tree.DrawnFrom tokens) (watch : Watch) (last : Value ν) :
    FailsWith (host.Reports tokens) (runStatements host watch last trees) := by
  induction trees generalizing last with
  | nil =>
      rw [runStatements]
      exact .pure _
  | cons tree trees ih =>
      rw [List.forall_mem_cons] at h
      rw [runStatements]
      have hanalyse : FailsWith (host.Reports tokens)
          (onScopes (Analysis.analyse tree) : Act (Session ν) Analysed) :=
        (FailsWith.zoom (Analysis.analyse_failsWith h.1)).mono fun _ hpoints => .inl hpoints
      exact hanalyse.bind fun analysed => (observe_failsWith watch tree analysed.node).bind
        fun _ => (execute_failsWith analysed.node).bind fun value => ih h.2 value

private theorem collectIfDue_failsWith :
    FailsWith (host.Reports tokens) (collectIfDue : Act (Session ν) Unit) := by
  refine .bind .get fun s => ?_
  split
  · split
    · exact .bind (.bind .get fun _ => .bind (.set _) fun _ => .bind (.modify _) fun _ => .pure _)
        fun _ => .pure _
    · exact .pure _
  · exact .pure _

/-- A source that can be read fails at one of its tokens, in the run, or in a native function. -/
theorem evaluate_reports {s t : Session ν} {watch : Watch} {source : String} {trees : List Tree}
    (hparse : parseProgram source s.settings.sourceName = .ok trees) {failure : Failure}
    (h : (evaluate host watch source).on s = (.error failure, t)) :
    host.Reports (TokenStream.scan source s.settings.sourceName).tokens failure := by
  have hstatements : ∀ last, FailsWith
      (host.Reports (TokenStream.scan source s.settings.sourceName).tokens)
      (runStatements host watch last trees) :=
    runStatements_failsWith (parseProgram_drawnFrom hparse) watch
  have hread : (Act.ofDiagnostic (.ok trees) : Act (Session ν) (List Tree)).on s =
      (.ok trees, s) := rfl
  unfold evaluate at h
  rw [Act.on_bind_of_ok (Act.on_get s)] at h
  dsimp only at h
  rw [hparse, Act.on_bind_of_ok hread] at h
  refine (FailsWith.bind (.modify _) fun _ => ?_) s failure (congrArg Prod.fst h)
  refine (onScopes_failsWith (Scoping.enter_failsWith _)).bind fun _ => ?_
  refine ((hstatements _).closing (onScopes_failsWith Scoping.leave_failsWith)).bind fun value => ?_
  refine .bind (.modify _) fun _ => .bind .get fun _ => .bind (.modify _) fun _ => ?_
  exact collectIfDue_failsWith.bind fun _ => .pure _

/-- A source that is refused is refused at a place that the fault is about, by the parser and in any
session, unless it is a native function that raises the fault.  This place is one of the source
in all cases but one: when the input ends behind a newline where something else was expected. -/
theorem refusals_located (source : String) :
    (∀ file d, parseProgram source file = .error d →
      d.LocatedIn source file ∧
      (d.span.StartsIn source.toList ↔ ¬ d.EndsBehindNewline source file)) ∧
    ∀ (host : Host ν) (watch : Watch) (s t : Session ν) (d : Diagnostic),
      (evaluate host watch source).on s = (.error (.fault d), t) →
      d.fault.phase = .lexical ∨ d.fault.phase = .grammatical ∨ d.fault.phase = .semantic →
      d.LocatedIn source s.settings.sourceName ∧
      (d.span.StartsIn source.toList ↔ ¬ d.EndsBehindNewline source s.settings.sourceName) ∨
      host.Raises (.fault d) := by
  refine ⟨?_, ?_⟩
  · intro file d hparse
    have hlocated := parseProgram_locatedIn hparse
    exact ⟨hlocated, hlocated.startsIn_iff⟩
  · intro host watch s t d hevaluate hphase
    cases hparse : parseProgram source s.settings.sourceName with
    | error found =>
        rw [on_evaluate_refused hparse] at hevaluate
        cases hevaluate
        have hlocated := parseProgram_locatedIn hparse
        exact .inl ⟨hlocated, hlocated.startsIn_iff⟩
    | ok trees =>
        rcases evaluate_reports hparse hevaluate with hpoints | hraises
        · rcases hpoints with ⟨hsemantic, token, htoken, hspan⟩ | hother
          · obtain ⟨-, before, hstands⟩ := TokenStream.scan_standsBehind htoken
            have hlocated : d.LocatedIn source s.settings.sourceName :=
              .semantic token before htoken hstands hsemantic hspan
            exact .inl ⟨hlocated, hlocated.startsIn_iff⟩
          · exfalso
            rcases hother with hother | hother <;> simp [hother] at hphase
        · exact .inr hraises

/-- The declaration has no value; its end is put one column behind the newline that ends the first
line.  The name that nobody declared is found in the second line. -/
theorem refusals_located_lines :
    (∃ d, parseProgram "var x =\n" "<input>" = .error d ∧ d.span = ⟨"<input>", 1, 9, 1, 9⟩ ∧
      ¬ d.span.StartsIn "var x =\n".toList) ∧
    ∃ d t, (evaluate sevens .nothing "1\n  y").on (.initial .standard) = (.error (.fault d), t) ∧
      d.span = ⟨"<input>", 2, 3, 2, 3⟩ ∧ d.span.StartsIn "1\n  y".toList := by
  refine ⟨?_, ?_⟩
  · let newline : Token := ⟨.newline, "\n", 1, 8, "\n", "<input>"⟩
    have hparse : parseProgram "var x =\n" "<input>" =
        .error (Diagnostic.of (.unexpectedEnd ["expression"]) ⟨"<input>", 1, 9, 1, 9⟩) := by
      decide +kernel
    have hlast : (TokenStream.scan "var x =\n" "<input>").tokens.getLast? = some newline := by
      decide +kernel
    have hnewline := ((refusals_located (ν := Unit) "var x =\n").1 _ _ hparse).2
    refine ⟨_, hparse, rfl, fun hstarts => hnewline.1 hstarts ?_⟩
    exact ⟨["expression"], newline, rfl, hlast, rfl⟩
  · let d := Diagnostic.of (.undefinedSymbol "y" "variable") ⟨"<input>", 2, 3, 2, 3⟩
    let t : Session Unit := ((evaluate sevens .nothing "1\n  y").on (.initial .standard)).2
    have hparse : parseProgram "1\n  y" Settings.standard.sourceName =
        .ok [.literal ⟨.number, "1", 1, 1, "1", "<input>"⟩ .integer,
          .reference ⟨.name, "y", 2, 3, "y", "<input>"⟩] := by
      decide +kernel
    have hevaluate : (evaluate sevens .nothing "1\n  y").on (.initial .standard) =
        (.error (.fault d), t) := by
      refine Prod.ext ?_ rfl
      rw [on_evaluate hparse rfl]
      rfl
    refine ⟨d, t, hevaluate, rfl, ?_⟩
    rcases (refusals_located "1\n  y").2 sevens .nothing _ _ _ hevaluate (.inr (.inr rfl)) with
      ⟨-, hstarts⟩ | ⟨handle, arguments, s, hraises⟩
    · refine hstarts.2 ?_
      rintro ⟨expected, token, hfault, -⟩
      cases hfault
    · cases hraises

end Session

end Scriptlet
