import Scriptlet.Proofs.Syntax.Literals
import Scriptlet.Sexp
/-!
# Texts between quotes

Dumps and values show a text as a literal, and the scanner reads the literal back.  Values leave the
newline as it is, which no literal can hold.
-/

namespace Scriptlet

namespace Text

def replace (old : Char) (new text : List Char) : List Char :=
  text.flatMap fun c => if c = old then new else [c]

/-- Escaping replaces the backslash first, so that the backslashes of the later escapes stay. -/
theorem flatMap_escapedChar (text : List Char) :
    text.flatMap escapedChar = replace '"' ['\\', '"'] (replace '\\' ['\\', '\\'] text) := by
  unfold replace
  rw [List.flatMap_assoc]
  refine List.flatMap_congr fun c _ => ?_
  by_cases hbackslash : c = '\\'
  · subst hbackslash
    decide
  · by_cases hquote : c = '"'
    · subst hquote
      decide
    · simp [escapedChar, hbackslash, hquote]

theorem flatMap_escapedLineChar (text : List Char) :
    text.flatMap escapedLineChar =
      replace '\n' ['\\', 'n'] (replace '"' ['\\', '"'] (replace '\\' ['\\', '\\'] text)) := by
  rw [← flatMap_escapedChar, replace, List.flatMap_assoc]
  refine List.flatMap_congr fun c _ => ?_
  by_cases hnewline : c = '\n'
  · subst hnewline
    decide
  · rw [escapedLineChar, if_neg hnewline, escapedChar]
    split
    · simp [hnewline]
    · simp [hnewline]

private theorem lineLiteral_eq_literal {text : String} (h : '\n' ∉ text.toList) :
    lineLiteral text = literal text := by
  have hescaped : text.toList.flatMap escapedLineChar = text.toList.flatMap escapedChar := by
    refine List.flatMap_congr fun c hc => ?_
    rw [escapedLineChar, if_neg]
    rintro rfl
    exact h hc
  rw [lineLiteral, literal, hescaped]

end Text

/-- A newline that is not escaped keeps a text literal from ending. -/
theorem Lexeme.textBody?_newline {text : List Char} (h : '\n' ∈ text) (more : List Char) :
    textBody? (text.flatMap Text.escapedChar ++ more) = none := by
  induction text with
  | nil => cases h
  | cons c text ih =>
      rw [List.flatMap_cons, List.append_assoc, Text.escapedChar]
      rcases List.mem_cons.1 h with rfl | hmem
      · simp [textBody?]
      · by_cases hnewline : c = '\n'
        · subst hnewline
          simp [textBody?]
        · by_cases hescaped : c = '\\' ∨ c = '"'
          · rw [if_pos hescaped]
            rcases hescaped with rfl | rfl
            · simp [textBody?, ih hmem]
            · simp [textBody?, ih hmem]
          · rw [if_neg hescaped]
            rw [not_or] at hescaped
            simp [textBody?, hnewline, hescaped, ih hmem]

/-- The scanner reads a source as one text literal with the given text. -/
def ReadsAsText (source text : String) : Prop :=
  ∀ file, ∃ token, TokenStream.scan source file = ⟨[token], none⟩ ∧ token.kind = .text ∧
    token.text = text

private theorem readsAsText_lineLiteral (text : String) :
    ReadsAsText (Text.lineLiteral text) text := by
  intro file
  obtain ⟨tokens, hscan, hmakes⟩ :=
    TokenStream.scan_of_sequence (Lexeme.Sequence.lineLiteral text) file
  obtain ⟨token, _, ⟨hkind, htext⟩, hnil, rfl⟩ := List.forall₂_cons_left_iff.1 hmakes
  obtain rfl := List.forall₂_nil_left_iff.1 hnil
  exact ⟨token, hscan, hkind, by rw [htext, String.ofList_toList]⟩

private theorem not_readsAsText_literal {text : String} (h : '\n' ∈ text.toList) (other : String) :
    ¬ ReadsAsText (Text.literal text) other := by
  intro hreads
  obtain ⟨token, hscan, -⟩ := hreads ""
  have hchars : (Scanner.start (Text.literal text)).skipBlanks.rest =
      '"' :: (text.toList.flatMap Text.escapedChar ++ ['"']) := by
    rw [Scanner.skipBlanks, Scanner.start, Text.literal, String.toList_ofList]
    have hquote : ¬ Text.isBlank '"' = true := by decide
    exact List.dropWhile_cons_of_neg hquote
  have hread : Lexeme.read? '"' (text.toList.flatMap Text.escapedChar ++ ['"']) = none := by
    rw [Lexeme.read?_openingQuote, Lexeme.textBody?_newline h, Option.map_none]
  have hstep : (Scanner.start (Text.literal text)).step "" =
      .stuck ((Scanner.start (Text.literal text)).skipBlanks.stuck "" '"') := by
    simp only [Scanner.step, Scanner.read, hchars, hread]
  rw [TokenStream.scan, Scanner.run_of_stuck hstep] at hscan
  cases hscan

/-- What a dump prints for a text is read as a literal of that text.  So is what a value shows of a
text, exactly if the text has no newline. -/
theorem written_texts_read_back (text : String) :
    ReadsAsText (String.ofList (Sexp.text text).flat) text ∧
      ∃ quoted, (Primitive.text text).render = .ok ("text " ++ quoted) ∧
        ('\n' ∉ text.toList ↔ ReadsAsText quoted text) := by
  have hrender : (Primitive.text text).render = .ok ("text " ++ Text.literal text) := by
    simp only [Primitive.render, Primitive.kind, Primitive.datum, Primitive.Kind.render,
      Datum.shown, Except.map]
  refine ⟨?_, Text.literal text, hrender, fun h => ?_, fun h hnewline => ?_⟩
  · rw [Sexp.flat, Sexp.flatOnto, List.append_nil, String.ofList_toList]
    exact readsAsText_lineLiteral text
  · rw [← Text.lineLiteral_eq_literal h]
    exact readsAsText_lineLiteral text
  · exact not_readsAsText_literal hnewline text h

end Scriptlet
