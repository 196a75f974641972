import Scriptlet.Proofs.Syntax.Faults
import Scriptlet.Proofs.Syntax.Viability
/-!
# Scanning on demand

The parser looks at a token only when its decision depends on it.  A stream that ends
in a lexical fault is therefore parsed like the finished list of its tokens until the
parser looks beyond the last of them, and only there the fault is met.  Either the
parser has refused a token by then, or every refusal could still be averted.
-/

namespace Scriptlet

namespace Parser

variable {α β : Type} {ctx : Context} {fault : Diagnostic}

def Context.failing (ctx : Context) (fault : Diagnostic) : Context :=
  { ctx with fault := some fault }

/-- A parse that has come to the end of the tokens, and may have stopped there. -/
inductive Drained (ctx : Context) (rest : α → List Token) : Except Diagnostic α → Prop where
  | ok {value : α} : rest value = [] → Drained ctx rest (.ok value)
  | ended (expected : List String) (hint : String) :
      Drained ctx rest (.error (ctx.ended expected hint))

/-- How a parse of a finished list of tokens is related to a parse of a stream with the same tokens
that ends in a fault: both are the same, or the one has come to the end of the tokens and the other
has met the fault. -/
inductive Meets (ctx : Context) (fault : Diagnostic) (rest : α → List Token) :
    Except Diagnostic α → Except Diagnostic α → Prop where
  | ok (value : α) : Meets ctx fault rest (.ok value) (.ok value)
  | refused (token : Token) (expected : List String) (hint : String) :
      Meets ctx fault rest (.error (unexpected token expected hint))
        (.error (unexpected token expected hint))
  | stuck {finished : Except Diagnostic α} :
      Drained ctx rest finished → Meets ctx fault rest finished (.error fault)

/-- The two parses of the given tokens; from the end of the tokens they go nowhere. -/
structure Lags (ctx : Context) (fault : Diagnostic) (rest : α → List Token) (tokens : List Token)
    (finished failing : Except Diagnostic α) : Prop where
  meets : Meets ctx fault rest finished failing
  drained : tokens = [] → Drained ctx rest finished

/-! ## Rules -/

section Rules

variable {rest : α → List Token} {rest' : β → List Token} {tokens : List Token}

theorem lags_ok {value : α} (h : rest value = tokens) :
    Lags ctx fault rest tokens (.ok value) (.ok value) :=
  ⟨.ok value, fun hnil => .ok (h.trans hnil)⟩

theorem lags_unexpected {first : Token} (token : Token) (expected : List String) (hint : String) :
    Lags ctx fault rest (first :: tokens) (.error (unexpected token expected hint))
      (.error (unexpected token expected hint)) :=
  ⟨.refused token expected hint, nofun⟩

theorem lags_ended (expected : List String) (hint : String) :
    Lags ctx fault rest tokens (.error (ctx.ended expected hint))
      (.error ((ctx.failing fault).ended expected hint)) :=
  ⟨.stuck (.ended expected hint), fun _ => .ended expected hint⟩

theorem lags_mayEnd (hctx : ctx.fault = none) {value : α} (hvalue : rest value = []) :
    Lags ctx fault rest tokens (ctx.mayEnd value) ((ctx.failing fault).mayEnd value) := by
  have hdrained : Drained ctx rest (ctx.mayEnd value) := by
    unfold Context.mayEnd
    rw [hctx]
    exact .ok hvalue
  exact ⟨.stuck hdrained, fun _ => hdrained⟩

/-- Once a token was taken, the parse need not be at the end. -/
theorem Lags.cons {finished failing : Except Diagnostic α} (token : Token) (others : List Token)
    (h : Lags ctx fault rest tokens finished failing) :
    Lags ctx fault rest (token :: others) finished failing :=
  ⟨h.meets, nofun⟩

theorem Drained.bind {finished : Except Diagnostic α} {next : α → Except Diagnostic β}
    (h : Drained ctx rest finished)
    (hnext : ∀ value, rest value = [] → Drained ctx rest' (next value)) :
    Drained ctx rest' (finished >>= next) := by
  cases h with
  | ok hvalue => exact hnext _ hvalue
  | ended expected hint => exact .ended expected hint

/-- Where the fault is met, the rest of the other parse goes on from the end of the tokens. -/
theorem Lags.bind {finished failing : Except Diagnostic α} {next next' : α → Except Diagnostic β}
    (h : Lags ctx fault rest tokens finished failing)
    (hnext : ∀ value, Lags ctx fault rest' (rest value) (next value) (next' value)) :
    Lags ctx fault rest' tokens (finished >>= next) (failing >>= next') := by
  refine ⟨?_, fun hnil => (h.drained hnil).bind fun value => (hnext value).drained⟩
  cases h.meets with
  | ok value => exact (hnext value).meets
  | refused token expected hint => exact .refused token expected hint
  | stuck hdrained => exact .stuck (hdrained.bind fun value => (hnext value).drained)

end Rules

/-! ## Procedures -/

theorem skipNewlines_lags (hctx : ctx.fault = none) (tokens : List Token) :
    Lags ctx fault Left.rest tokens (skipNewlines ctx tokens)
      (skipNewlines (ctx.failing fault) tokens) := by
  induction tokens with
  | nil => exact lags_mayEnd hctx rfl
  | cons token rest ih =>
      rw [skipNewlines, skipNewlines]
      split
      · refine (ih.bind ?_).cons token rest
        rintro ⟨_, _⟩
        exact lags_ok rfl
      · exact lags_ok rfl

theorem expect_lags (kind : Token.Kind) (hint : String) (tokens : List Token) :
    Lags ctx fault Taken.rest tokens (expect ctx kind hint tokens)
      (expect (ctx.failing fault) kind hint tokens) := by
  cases tokens with
  | nil => exact lags_ended _ _
  | cons token rest =>
      rw [expect, expect]
      split
      · exact (lags_ok rfl).cons token rest
      · exact lags_unexpected _ _ _

private theorem factor_lags (hctx : ctx.fault = none) (tokens : List Token) :
    Lags ctx fault Taken.rest tokens (factor ctx tokens)
      (factor (ctx.failing fault) tokens) := by
  rw [factor, factor]
  refine (skipNewlines_lags hctx tokens).bind ?_
  rintro ⟨left, h⟩
  cases left with
  | nil => exact lags_ended _ _
  | cons token rest =>
      dsimp only
      split
      · exact (lags_ok rfl).cons token rest
      · split
        · exact (lags_ok rfl).cons token rest
        · exact lags_unexpected _ _ _

private theorem terminator_lags (hctx : ctx.fault = none) (tokens : List Token) :
    Lags ctx fault Left.rest tokens (terminator ctx tokens)
      (terminator (ctx.failing fault) tokens) := by
  cases tokens with
  | nil => exact lags_mayEnd hctx rfl
  | cons token rest =>
      rw [terminator, terminator]
      split
      · refine ((skipNewlines_lags hctx rest).bind ?_).cons token rest
        rintro ⟨_, _⟩
        exact lags_ok rfl
      · split
        · exact lags_ok rfl
        · exact lags_unexpected _ _ _

mutual

theorem expression_lags (hctx : ctx.fault = none) (tokens : List Token) :
    Lags ctx fault Taken.rest tokens (expression ctx tokens)
      (expression (ctx.failing fault) tokens) := by
  rw [expression, expression]
  refine (factor_lags hctx tokens).bind ?_
  rintro ⟨first, afterFirst, hFirst⟩
  exact (suffixes_lags hctx first afterFirst).bind fun ⟨_, _, _⟩ => lags_ok rfl
termination_by 8 * tokens.length

theorem suffixes_lags (hctx : ctx.fault = none) (tree : Tree) (tokens : List Token) :
    Lags ctx fault Read.rest tokens (suffixes ctx tree tokens)
      (suffixes (ctx.failing fault) tree tokens) := by
  match tokens with
  | [] =>
      rw [suffixes, suffixes]
      exact lags_mayEnd hctx rfl
  | token :: rest =>
      rw [suffixes, suffixes]
      split
      · refine ((expression_lags hctx rest).bind ?_).cons token rest
        rintro ⟨value, afterValue, hValue⟩
        exact (suffixes_lags hctx _ afterValue).bind fun ⟨_, _, _⟩ => lags_ok rfl
      · split
        · refine ((skipNewlines_lags hctx rest).bind ?_).cons token rest
          rintro ⟨inside, hInside⟩
          refine (arguments_lags hctx inside).bind ?_
          rintro ⟨values, afterValues, hValues⟩
          refine (expect_lags _ _ afterValues).bind ?_
          rintro ⟨close, afterCall, hCall⟩
          exact (suffixes_lags hctx _ afterCall).bind fun ⟨_, _, _⟩ => lags_ok rfl
        · exact lags_ok rfl
termination_by 8 * tokens.length + 1

private theorem arguments_lags (hctx : ctx.fault = none) (tokens : List Token) :
    Lags ctx fault Read.rest tokens (arguments ctx tokens)
      (arguments (ctx.failing fault) tokens) := by
  match tokens with
  | [] =>
      rw [arguments, arguments]
      exact lags_mayEnd hctx rfl
  | token :: rest =>
      rw [arguments, arguments]
      split
      · exact lags_ok rfl
      · refine (expression_lags hctx (token :: rest)).bind ?_
        rintro ⟨first, afterFirst, hFirst⟩
        refine (skipNewlines_lags hctx afterFirst).bind ?_
        rintro ⟨left, hLeft⟩
        match left, hLeft with
        | [], _ => exact lags_mayEnd hctx rfl
        | next :: afterNext, hLeft =>
            dsimp only
            split
            · refine ((skipNewlines_lags hctx afterNext).bind ?_).cons next afterNext
              rintro ⟨inside, hInside⟩
              exact (arguments_lags hctx inside).bind fun ⟨_, _, _⟩ => lags_ok rfl
            · exact lags_ok rfl
termination_by 8 * tokens.length + 1
decreasing_by all_goals (simp only [List.length_cons] at *; omega)

private theorem bareStatement_lags (hctx : ctx.fault = none) (tokens : List Token) :
    Lags ctx fault Taken.rest tokens (bareStatement ctx tokens)
      (bareStatement (ctx.failing fault) tokens) := by
  rw [bareStatement, bareStatement]
  refine (skipNewlines_lags hctx tokens).bind ?_
  rintro ⟨left, hLeft⟩
  match left, hLeft with
  | [], _ => exact lags_ended _ _
  | token :: rest, hLeft =>
      dsimp only
      split
      · refine ((skipNewlines_lags hctx rest).bind ?_).cons token rest
        rintro ⟨atName, hAtName⟩
        refine (expect_lags _ _ atName).bind ?_
        rintro ⟨name, atAssign, hAtAssign⟩
        refine (expect_lags _ _ atAssign).bind ?_
        rintro ⟨equals, atValue, hAtValue⟩
        exact (expression_lags hctx atValue).bind fun ⟨_, _, _⟩ => lags_ok rfl
      · split
        · refine ((skipNewlines_lags hctx rest).bind ?_).cons token rest
          rintro ⟨inside, hInside⟩
          refine (blockStatements_lags hctx inside).bind ?_
          rintro ⟨body, atClose, hClose⟩
          exact (expect_lags _ _ atClose).bind fun ⟨_, _, _⟩ => lags_ok rfl
        · split
          · refine ((expression_lags hctx rest).bind ?_).cons token rest
            rintro ⟨condition, atBody, hBody⟩
            exact (bareStatement_lags hctx atBody).bind fun ⟨_, _, _⟩ => lags_ok rfl
          · split
            · refine ((expression_lags hctx rest).bind ?_).cons token rest
              exact fun ⟨_, _, _⟩ => lags_ok rfl
            · exact (expression_lags hctx (token :: rest)).bind fun ⟨_, _, _⟩ => lags_ok rfl
termination_by 8 * tokens.length + 2
decreasing_by all_goals (simp only [List.length_cons] at *; omega)

theorem statement_lags (hctx : ctx.fault = none) (tokens : List Token) :
    Lags ctx fault Taken.rest tokens (statement ctx tokens)
      (statement (ctx.failing fault) tokens) := by
  rw [statement, statement]
  refine (bareStatement_lags hctx tokens).bind ?_
  rintro ⟨tree, atEnd, hEnd⟩
  exact (terminator_lags hctx atEnd).bind fun ⟨_, _⟩ => lags_ok rfl
termination_by 8 * tokens.length + 3

private theorem statements_lags (hctx : ctx.fault = none) (tokens : List Token) :
    Lags ctx fault Read.rest tokens (statements ctx tokens)
      (statements (ctx.failing fault) tokens) := by
  rw [statements, statements]
  refine (skipNewlines_lags hctx tokens).bind ?_
  rintro ⟨left, hLeft⟩
  match left, hLeft with
  | [], _ => exact lags_mayEnd hctx rfl
  | token :: rest, hLeft =>
      dsimp only
      split
      · exact lags_ok rfl
      · refine (statement_lags hctx (token :: rest)).bind ?_
        rintro ⟨first, afterFirst, hFirst⟩
        exact (statements_lags hctx afterFirst).bind fun ⟨_, _, _⟩ => lags_ok rfl
termination_by 8 * tokens.length + 4
decreasing_by all_goals (simp only [List.length_cons] at *; omega)

private theorem blockStatements_lags (hctx : ctx.fault = none) (tokens : List Token) :
    Lags ctx fault Read.rest tokens (blockStatements ctx tokens)
      (blockStatements (ctx.failing fault) tokens) := by
  match tokens with
  | [] =>
      rw [blockStatements, blockStatements]
      exact lags_mayEnd hctx rfl
  | token :: rest =>
      rw [blockStatements, blockStatements]
      split
      · exact lags_ok rfl
      · refine (statement_lags hctx (token :: rest)).bind ?_
        rintro ⟨first, afterFirst, hFirst⟩
        refine (skipNewlines_lags hctx afterFirst).bind ?_
        rintro ⟨inside, hInside⟩
        exact (blockStatements_lags hctx inside).bind fun ⟨_, _, _⟩ => lags_ok rfl
termination_by 8 * tokens.length + 4
decreasing_by all_goals (simp only [List.length_cons] at *; omega)

end

/-! ## Programs -/

theorem program_lags (file : String) (tokens : List Token) (fault : Diagnostic) :
    Lags (.ofStream file (.ofList tokens)) fault (fun _ => []) tokens
      ((TokenStream.ofList tokens).program file)
      ((⟨tokens, some fault⟩ : TokenStream).program file) := by
  refine (statements_lags rfl tokens).bind ?_
  rintro ⟨trees, rest, hRest⟩
  cases rest with
  | nil => exact lags_mayEnd rfl rfl
  | cons token rest => exact lags_unexpected _ _ _

/-- A stream that ends in a fault is no program. -/
theorem program_failing_ne_ok (file : String) (tokens : List Token) (fault : Diagnostic)
    (trees : List Tree) : (⟨tokens, some fault⟩ : TokenStream).program file ≠ .ok trees := by
  unfold TokenStream.program
  dsimp only
  cases statements (.ofStream file ⟨tokens, some fault⟩) tokens with
  | error d => nofun
  | ok read =>
      obtain ⟨values, rest, hRest⟩ := read
      cases rest <;> nofun

/-- A refusal of the tokens that nothing behind them averts. -/
def Inevitable (file : String) (tokens : List Token) (d : Diagnostic) : Prop :=
  d.IsGrammatical ∧ ∀ more, (TokenStream.ofList (tokens ++ more)).program file = .error d

theorem unexpected_ne_ended (hctx : ctx.fault = none) (token : Token)
    (expected expected' : List String) (hint hint' : String) :
    unexpected token expected hint ≠ ctx.ended expected' hint' := by
  intro heq
  have hfault := congrArg Diagnostic.fault heq
  rw [Context.ended, hctx] at hfault
  cases hfault

/-- A token that is refused is refused whatever stands behind it. -/
theorem inevitable_of_refused {file : String} {tokens : List Token} {token : Token}
    {expected : List String} {hint : String}
    (h : (TokenStream.ofList tokens).program file = .error (unexpected token expected hint)) :
    Inevitable file tokens (unexpected token expected hint) := by
  have hctx : (Context.ofStream file (.ofList tokens)).fault = none := rfl
  have hforesees := whole_foresees hctx tokens
  unfold Foresees at hforesees
  rw [(program_error_iff file tokens _).1 h] at hforesees
  generalize hd : unexpected token expected hint = d at hforesees
  cases hforesees with
  | @token used rest token expected hint htokens _ _ hsame =>
      refine ⟨rfl, fun more => (program_error_iff file _ _).2 ?_⟩
      rw [htokens, List.append_assoc, List.cons_append]
      exact hsame _ (rest ++ more) rfl
  | ended => exact absurd hd (unexpected_ne_ended hctx _ _ _ _ _)

/-- Tokens that do not suffice can be completed, so that no refusal is inevitable. -/
theorem not_inevitable_of_drained {file : String} {tokens : List Token}
    (h : Drained (.ofStream file (.ofList tokens)) (fun _ => [])
      ((TokenStream.ofList tokens).program file)) (d : Diagnostic) :
    ¬ Inevitable file tokens d := by
  rintro ⟨-, hrefused⟩
  have hd := hrefused []
  rw [List.append_nil] at hd
  rw [hd] at h
  cases h with
  | ended expected hint =>
      have hctx : (Context.ofStream file (.ofList tokens)).fault = none := rfl
      have hforesees := whole_foresees hctx tokens
      unfold Foresees at hforesees
      rw [(program_error_iff file tokens _).1 hd] at hforesees
      generalize hended : (Context.ofStream file (.ofList tokens)).ended expected hint = d
        at hforesees
      cases hforesees with
      | token => exact absurd hended.symm (unexpected_ne_ended hctx _ _ _ _ _)
      | ended hcompletable _ =>
          obtain ⟨more, trees, haccepted⟩ := (viable_iff_completable file tokens).2 hcompletable
          rw [hrefused more] at haccepted
          cases haccepted

end Parser

/-- Parsing a source while it is scanned agrees with scanning it first.  If the scan succeeds, the
outcome is that of parsing the finished list of tokens.  If it ends in a fault, the parse fails:
with a refusal of the tokens in front of the fault that nothing behind them averts, or else, just if
there is none, with the fault of the scan. -/
theorem parseProgram_scans_on_demand (source file : String) :
    ((TokenStream.scan source file).fault = none →
      parseProgram source file =
        (TokenStream.ofList (TokenStream.scan source file).tokens).program file) ∧
    ∀ fault, (TokenStream.scan source file).fault = some fault →
      (∀ trees, parseProgram source file ≠ .ok trees) ∧
      ((∃ d, parseProgram source file = .error d ∧
          Parser.Inevitable file (TokenStream.scan source file).tokens d) ∨
        parseProgram source file = .error fault) ∧
      (parseProgram source file = .error fault ↔
        ¬ ∃ d, Parser.Inevitable file (TokenStream.scan source file).tokens d) := by
  have hlexical := Scanner.run_lexical file (Scanner.start source)
  unfold parseProgram
  change ∀ d, (TokenStream.scan source file).fault = some d → d.IsLexical at hlexical
  generalize TokenStream.scan source file = stream at hlexical ⊢
  obtain ⟨tokens, ending⟩ := stream
  refine ⟨?_, ?_⟩
  · rintro ⟨⟩
    rfl
  · rintro fault ⟨⟩
    refine ⟨Parser.program_failing_ne_ok file tokens fault, ?_⟩
    have hmeets := (Parser.program_lags file tokens fault).meets
    generalize hfinished : (TokenStream.ofList tokens).program file = finished at hmeets
    generalize hfailing : (⟨tokens, some fault⟩ : TokenStream).program file = failing at hmeets ⊢
    cases hmeets with
    | ok trees => exact absurd hfailing (Parser.program_failing_ne_ok file tokens fault trees)
    | refused token expected hint =>
        have hinevitable := Parser.inevitable_of_refused hfinished
        refine ⟨.inl ⟨_, rfl, hinevitable⟩, fun heq => ?_, fun hnone => ?_⟩
        · have hkind := hlexical fault rfl
          rw [← Except.error.inj heq] at hkind
          cases hkind
        · exact absurd ⟨_, hinevitable⟩ hnone
    | stuck hdrained =>
        subst hfinished
        refine ⟨.inr rfl, fun _ => ?_, fun _ => rfl⟩
        rintro ⟨d, hd⟩
        exact Parser.not_inevitable_of_drained hdrained d hd

/-- The tokens of `f(1 $` can still become a call, so what is reported is the stray character. -/
theorem stray_character_reported :
    ∃ fault, (TokenStream.scan "f(1 $" "<input>").fault = some fault ∧
      parseProgram "f(1 $" "<input>" = .error fault ∧
      ¬ ∃ d, Parser.Inevitable "<input>" (TokenStream.scan "f(1 $" "<input>").tokens d := by
  let fault := (Diagnostic.of (.invalidCharacter "$") (Span.point "<input>" 1 5)).withSource "f(1 $"
  have hscan : (TokenStream.scan "f(1 $" "<input>").fault = some fault := by decide +kernel
  have hparse : parseProgram "f(1 $" "<input>" = .error fault := by decide +kernel
  have hagrees := (parseProgram_scans_on_demand "f(1 $" "<input>").2 fault hscan
  exact ⟨fault, hscan, hparse, hagrees.2.2.1 hparse⟩

end Scriptlet
