import Scriptlet.Tree.Parse
/-!
# Faults of reading

Whatever stops the reading of a source is a lexical fault, found by the scanner,
or a grammatical one, found by the parser.
-/

namespace Scriptlet

/-- A fault of the sort that the scanner finds. -/
def Diagnostic.IsLexical (d : Diagnostic) : Prop :=
  d.fault.kind.parent? = some .lexical

def Diagnostic.IsGrammatical (d : Diagnostic) : Prop :=
  d.fault.kind.parent? = some .grammatical

def Diagnostic.IsReading (d : Diagnostic) : Prop :=
  d.fault.kind.parent? = some .lexical ∨ d.fault.kind.parent? = some .grammatical

namespace Parser

/-- A reading that stops for lexical and grammatical faults only. -/
def Blames {α : Type} (result : Except Diagnostic α) : Prop :=
  ∀ d, result = .error d → d.IsReading

theorem blames_ok {α : Type} (value : α) : Blames (.ok value) := by
  intro d h
  simp at h

theorem blames_error {α : Type} {d : Diagnostic} (h : d.IsReading) :
    Blames (.error d : Except Diagnostic α) := by
  intro d' heq
  rw [← Except.error.inj heq]
  exact h

theorem Blames.bind {α β : Type} {result : Except Diagnostic α} {next : α → Except Diagnostic β}
    (h : Blames result) (hnext : ∀ value, Blames (next value)) : Blames (result >>= next) := by
  cases result with
  | error d => exact blames_error (h d rfl)
  | ok value => exact hnext value

theorem blames_unexpected {α : Type} (token : Token) (expected : List String) (hint : String) :
    Blames (.error (unexpected token expected hint) : Except Diagnostic α) :=
  blames_error (.inr rfl)

variable {ctx : Context}

theorem blames_ended {α : Type} (hctx : ∀ d, ctx.fault = some d → d.IsReading)
    (expected : List String) (hint : String) :
    Blames (.error (ctx.ended expected hint) : Except Diagnostic α) := by
  apply blames_error
  unfold Context.ended
  cases hfault : ctx.fault with
  | some d => exact hctx d hfault
  | none => exact .inr rfl

theorem blames_mayEnd {α : Type} (hctx : ∀ d, ctx.fault = some d → d.IsReading) (value : α) :
    Blames (ctx.mayEnd value) := by
  unfold Context.mayEnd
  cases hfault : ctx.fault with
  | some d => exact blames_error (hctx d hfault)
  | none => exact blames_ok value

theorem skipNewlines_blames (hctx : ∀ d, ctx.fault = some d → d.IsReading)
    (tokens : List Token) : Blames (skipNewlines ctx tokens) := by
  induction tokens with
  | nil => exact blames_mayEnd hctx _
  | cons token rest ih =>
      rw [skipNewlines]
      split
      · exact ih.bind fun _ => blames_ok _
      · exact blames_ok _

theorem expect_blames (hctx : ∀ d, ctx.fault = some d → d.IsReading) (kind : Token.Kind)
    (hint : String) (tokens : List Token) : Blames (expect ctx kind hint tokens) := by
  cases tokens with
  | nil => exact blames_ended hctx _ _
  | cons token rest =>
      rw [expect]
      split
      · exact blames_ok _
      · exact blames_unexpected _ _ _

private theorem factor_blames (hctx : ∀ d, ctx.fault = some d → d.IsReading) (tokens : List Token) :
    Blames (factor ctx tokens) := by
  rw [factor]
  refine (skipNewlines_blames hctx tokens).bind ?_
  rintro ⟨left, h⟩
  cases left with
  | nil => exact blames_ended hctx _ _
  | cons token rest =>
      dsimp only
      split
      · exact blames_ok _
      · split
        · exact blames_ok _
        · exact blames_unexpected _ _ _

private theorem terminator_blames (hctx : ∀ d, ctx.fault = some d → d.IsReading)
    (tokens : List Token) :
    Blames (terminator ctx tokens) := by
  cases tokens with
  | nil => exact blames_mayEnd hctx _
  | cons token rest =>
      rw [terminator]
      split
      · exact (skipNewlines_blames hctx rest).bind fun _ => blames_ok _
      · split
        · exact blames_ok _
        · exact blames_unexpected _ _ _

mutual

theorem expression_blames (hctx : ∀ d, ctx.fault = some d → d.IsReading) (tokens : List Token) :
    Blames (expression ctx tokens) := by
  rw [expression]
  refine (factor_blames hctx tokens).bind ?_
  rintro ⟨first, afterFirst, hFirst⟩
  exact (suffixes_blames hctx first afterFirst).bind fun _ => blames_ok _
termination_by 8 * tokens.length

theorem suffixes_blames (hctx : ∀ d, ctx.fault = some d → d.IsReading) (tree : Tree)
    (tokens : List Token) : Blames (suffixes ctx tree tokens) := by
  match tokens with
  | [] =>
      rw [suffixes]
      exact blames_mayEnd hctx _
  | token :: rest =>
      rw [suffixes]
      split
      · refine (expression_blames hctx rest).bind ?_
        rintro ⟨value, afterValue, hValue⟩
        exact (suffixes_blames hctx _ afterValue).bind fun _ => blames_ok _
      · split
        · refine (skipNewlines_blames hctx rest).bind ?_
          rintro ⟨inside, hInside⟩
          refine (arguments_blames hctx inside).bind ?_
          rintro ⟨values, afterValues, hValues⟩
          refine (expect_blames hctx _ _ afterValues).bind ?_
          rintro ⟨close, afterCall, hCall⟩
          exact (suffixes_blames hctx _ afterCall).bind fun _ => blames_ok _
        · exact blames_ok _
termination_by 8 * tokens.length + 1

private theorem arguments_blames (hctx : ∀ d, ctx.fault = some d → d.IsReading)
    (tokens : List Token) :
    Blames (arguments ctx tokens) := by
  match tokens with
  | [] =>
      rw [arguments]
      exact blames_mayEnd hctx _
  | token :: rest =>
      rw [arguments]
      split
      · exact blames_ok _
      · refine (expression_blames hctx (token :: rest)).bind ?_
        rintro ⟨first, afterFirst, hFirst⟩
        refine (skipNewlines_blames hctx afterFirst).bind ?_
        rintro ⟨left, hLeft⟩
        match left, hLeft with
        | [], _ => exact blames_mayEnd hctx _
        | next :: afterNext, hLeft =>
            dsimp only
            split
            · refine (skipNewlines_blames hctx afterNext).bind ?_
              rintro ⟨inside, hInside⟩
              exact (arguments_blames hctx inside).bind fun _ => blames_ok _
            · exact blames_ok _
termination_by 8 * tokens.length + 1
decreasing_by all_goals (simp only [List.length_cons] at *; omega)

private theorem bareStatement_blames (hctx : ∀ d, ctx.fault = some d → d.IsReading)
    (tokens : List Token) : Blames (bareStatement ctx tokens) := by
  rw [bareStatement]
  refine (skipNewlines_blames hctx tokens).bind ?_
  rintro ⟨left, hLeft⟩
  match left, hLeft with
  | [], _ => exact blames_ended hctx _ _
  | token :: rest, hLeft =>
      dsimp only
      split
      · refine (skipNewlines_blames hctx rest).bind ?_
        rintro ⟨atName, hAtName⟩
        refine (expect_blames hctx _ _ atName).bind ?_
        rintro ⟨name, atAssign, hAtAssign⟩
        refine (expect_blames hctx _ _ atAssign).bind ?_
        rintro ⟨equals, atValue, hAtValue⟩
        exact (expression_blames hctx atValue).bind fun _ => blames_ok _
      · split
        · refine (skipNewlines_blames hctx rest).bind ?_
          rintro ⟨inside, hInside⟩
          refine (blockStatements_blames hctx inside).bind ?_
          rintro ⟨body, atClose, hClose⟩
          exact (expect_blames hctx _ _ atClose).bind fun _ => blames_ok _
        · split
          · refine (expression_blames hctx rest).bind ?_
            rintro ⟨condition, atBody, hBody⟩
            exact (bareStatement_blames hctx atBody).bind fun _ => blames_ok _
          · split
            · exact (expression_blames hctx rest).bind fun _ => blames_ok _
            · exact (expression_blames hctx (token :: rest)).bind fun _ => blames_ok _
termination_by 8 * tokens.length + 2
decreasing_by all_goals (simp only [List.length_cons] at *; omega)

private theorem statement_blames (hctx : ∀ d, ctx.fault = some d → d.IsReading)
    (tokens : List Token) :
    Blames (statement ctx tokens) := by
  rw [statement]
  refine (bareStatement_blames hctx tokens).bind ?_
  rintro ⟨tree, atEnd, hEnd⟩
  exact (terminator_blames hctx atEnd).bind fun _ => blames_ok _
termination_by 8 * tokens.length + 3

private theorem statements_blames (hctx : ∀ d, ctx.fault = some d → d.IsReading)
    (tokens : List Token) :
    Blames (statements ctx tokens) := by
  rw [statements]
  refine (skipNewlines_blames hctx tokens).bind ?_
  rintro ⟨left, hLeft⟩
  match left, hLeft with
  | [], _ => exact blames_mayEnd hctx _
  | token :: rest, hLeft =>
      dsimp only
      split
      · exact blames_ok _
      · refine (statement_blames hctx (token :: rest)).bind ?_
        rintro ⟨first, afterFirst, hFirst⟩
        exact (statements_blames hctx afterFirst).bind fun _ => blames_ok _
termination_by 8 * tokens.length + 4
decreasing_by all_goals (simp only [List.length_cons] at *; omega)

private theorem blockStatements_blames (hctx : ∀ d, ctx.fault = some d → d.IsReading)
    (tokens : List Token) : Blames (blockStatements ctx tokens) := by
  match tokens with
  | [] =>
      rw [blockStatements]
      exact blames_mayEnd hctx _
  | token :: rest =>
      rw [blockStatements]
      split
      · exact blames_ok _
      · refine (statement_blames hctx (token :: rest)).bind ?_
        rintro ⟨first, afterFirst, hFirst⟩
        refine (skipNewlines_blames hctx afterFirst).bind ?_
        rintro ⟨inside, hInside⟩
        exact (blockStatements_blames hctx inside).bind fun _ => blames_ok _
termination_by 8 * tokens.length + 4
decreasing_by all_goals (simp only [List.length_cons] at *; omega)

end

end Parser

theorem Scanner.run_lexical (file : String) (s : Scanner) :
    ∀ d, (s.run file).fault = some d → d.IsLexical := by
  fun_induction Scanner.run file s with
  | case1 => simp
  | case2 s d hstep =>
      intro d' h
      rw [← Option.some.inj h]
      unfold step read at hstep
      split at hstep
      · simp at hstep
      · split at hstep
        · rw [← Step.stuck.inj hstep]
          unfold stuck
          split <;> rfl
        · simp at hstep
  | case3 s token next hstep stream ih => exact ih

theorem Scanner.run_fault (file : String) (s : Scanner) :
    ∀ d, (s.run file).fault = some d → d.IsReading :=
  fun d h => .inl (s.run_lexical file d h)

theorem parseProgram_isReading {source file : String} {d : Diagnostic}
    (h : parseProgram source file = .error d) : d.IsReading := by
  have hctx := Scanner.run_fault file (Scanner.start source)
  have hblames : Parser.Blames (parseProgram source file) := by
    unfold parseProgram TokenStream.program
    refine (Parser.statements_blames hctx _).bind ?_
    rintro ⟨trees, rest, hrest⟩
    cases rest with
    | nil => exact Parser.blames_mayEnd hctx _
    | cons token rest => exact Parser.blames_unexpected _ _ _
  exact hblames d h

end Scriptlet
