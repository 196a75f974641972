import Scriptlet.Proofs.Scanning.Places
/-!
# Carets

The text of a fault shows the line that the scan is stuck in and a caret under the character at
which it is stuck.  The caret is put there from the fault's column, the line is what the scan finds
behind its last newline, and both are lines of the text because nothing in front of them, the name
of the file apart, can hold a newline.
-/

namespace Scriptlet

/-! ## Texts on one line -/

def OneLine (text : String) : Prop :=
  '\n' ∉ text.toList

instance (text : String) : Decidable (OneLine text) :=
  inferInstanceAs (Decidable ('\n' ∉ text.toList))

theorem OneLine.append {left right : String} (hleft : OneLine left) (hright : OneLine right) :
    OneLine (left ++ right) := by
  rw [OneLine, String.toList_append, List.mem_append, not_or]
  exact ⟨hleft, hright⟩

theorem oneLine_ofList {chars : List Char} : OneLine (String.ofList chars) ↔ '\n' ∉ chars := by
  rw [OneLine, String.toList_ofList]

theorem OneLine.intercalate {separator : String} (hseparator : OneLine separator)
    {texts : List String} (htexts : ∀ text ∈ texts, OneLine text) :
    OneLine (separator.intercalate texts) := by
  induction texts with
  | nil => exact List.not_mem_nil
  | cons text texts ih =>
      rw [List.forall_mem_cons] at htexts
      cases texts with
      | nil => simpa using htexts.1
      | cons next texts =>
          rw [String.intercalate_cons_cons]
          exact (htexts.1.append hseparator).append (ih htexts.2)

private theorem newline_notMem_toDigits {base : Nat} (hbase : 1 < base) (n : Nat) :
    '\n' ∉ Nat.toDigits base n := by
  have hdigit : ∀ d : Nat, '\n' ∉ [d.digitChar] := by
    intro d hmem
    exact Nat.digitChar_ne '\n' (by decide) (List.mem_singleton.1 hmem).symm
  induction n using Nat.strongRecOn with
  | _ n ih =>
      rw [Nat.toDigits_eq_if hbase]
      split
      · exact hdigit n
      · next hn =>
        rw [List.mem_append, not_or]
        exact ⟨ih _ (Nat.div_lt_self (by omega) hbase), hdigit _⟩

theorem Numeral.oneLine_text (n : Int) : OneLine (Numeral.text n) := by
  have hdigits : OneLine (String.ofList (Nat.toDigits 10 n.natAbs)) :=
    oneLine_ofList.2 (newline_notMem_toDigits (by decide) n.natAbs)
  unfold Numeral.text
  dsimp only
  split
  · have hminus : OneLine "-" := by decide
    exact hminus.append hdigits
  · exact hdigits

namespace Text

theorem newline_notMem_hexDigits (width n : Nat) : '\n' ∉ hexDigits width n := by
  rw [hexDigits, List.mem_append, not_or]
  refine ⟨?_, newline_notMem_toDigits (by decide) n⟩
  intro hmem
  exact absurd (List.eq_of_mem_replicate hmem) (by decide)

private theorem newline_notMem_codeEscape (c : Char) : '\n' ∉ codeEscape c := by
  unfold codeEscape
  split
  · simp [newline_notMem_hexDigits]
  · split <;> simp [newline_notMem_hexDigits]

private theorem newline_notMem_quotedChar (printable : Char → Bool) {quote : Char}
    (hquote : quote ≠ '\n')
    (c : Char) : '\n' ∉ quotedChar printable quote c := by
  unfold quotedChar
  split
  · next hescaped =>
    have hc : c ≠ '\n' := by
      rintro rfl
      simp [hquote.symm] at hescaped
    simp [hc.symm]
  · split
    · decide
    · next hc =>
      split
      · decide
      · split
        · decide
        · split
          · rw [List.mem_singleton]
            rintro rfl
            exact hc rfl
          · exact newline_notMem_codeEscape c

private theorem quoteFor_ne_newline (text : List Char) : quoteFor text ≠ '\n' := by
  unfold quoteFor
  split <;> decide

private theorem oneLine_quoted (text : String) : OneLine (quoted text) := by
  have hquote := quoteFor_ne_newline text.toList
  rw [quoted, quoteWith, oneLine_ofList, List.mem_append, List.mem_cons, List.mem_singleton,
    not_or, not_or]
  refine ⟨⟨hquote.symm, ?_⟩, hquote.symm⟩
  intro hmem
  obtain ⟨c, -, hc⟩ := List.mem_flatMap.1 hmem
  exact newline_notMem_quotedChar isPrintable hquote c hc

end Text

namespace Fault

private theorem toUpper_ne_newline {c : Char} (h : c ≠ '\n') : c.toUpper ≠ '\n' := by
  unfold Char.toUpper
  split
  · next hlower =>
    intro heq
    have hnat := congrArg Char.toNat heq
    have hlow := UInt32.le_iff_toNat_le.1 hlower.1
    have hhigh := UInt32.le_iff_toNat_le.1 hlower.2
    simp only [Char.toNat, UInt32.toNat_add, Char.reduceVal, UInt32.reduceSub,
      UInt32.reduceToNat] at hnat hlow hhigh
    omega
  · exact h

private theorem oneLine_describeCharacter (character : String) :
    OneLine (describeCharacter character) := by
  unfold describeCharacter
  split
  · split
    · exact Text.oneLine_quoted character
    · next c _ _ =>
      have hmark : OneLine "U+" := by decide
      refine hmark.append (oneLine_ofList.2 fun hmem => ?_)
      obtain ⟨digit, hdigit, hupper⟩ := List.mem_map.1 hmem
      refine toUpper_ne_newline ?_ hupper
      rintro rfl
      exact Text.newline_notMem_hexDigits 4 c.toNat hdigit
  · exact Text.oneLine_quoted character

end Fault

namespace Span

private theorem oneLine_render {span : Span} (hfile : OneLine span.file) : OneLine span.render := by
  have hcolon : OneLine ":" := by decide
  unfold render
  split
  · decide
  · refine hcolon.intercalate ?_
    intro text htext
    simp only [List.mem_append, List.mem_ite_nil_left, List.mem_ite_nil_right,
      List.mem_singleton] at htext
    rcases htext with (⟨-, rfl⟩ | ⟨-, rfl⟩) | ⟨-, rfl⟩
    · exact hfile
    · exact Numeral.oneLine_text span.line
    · exact Numeral.oneLine_text span.column

end Span

namespace Diagnostic

/-- If none of its lines holds a newline, the text of a diagnostic is split into them again. -/
theorem splitOn_render {d : Diagnostic} (h : ∀ line ∈ d.lines, OneLine line) :
    d.render.toList.splitOn '\n' = d.lines.map String.toList := by
  have hchars : ∀ chars ∈ d.lines.map String.toList, '\n' ∉ chars := by
    intro chars hmem
    obtain ⟨line, hline, rfl⟩ := List.mem_map.1 hmem
    exact h line hline
  rw [render, String.toList_intercalate]
  exact List.splitOn_intercalate '\n' hchars (by simp [lines])

end Diagnostic

/-! ## The line of a place -/

private theorem newline_notMem_takeWhile (text : List Char) :
    '\n' ∉ text.takeWhile (· != '\n') := by
  intro hmem
  simpa using List.all_eq_true.1 List.all_takeWhile _ hmem

private theorem forall_bne_newline {text : List Char} (h : '\n' ∉ text) :
    ∀ c ∈ text, (c != '\n') = true := by
  intro c hc
  rw [bne_iff_ne]
  rintro rfl
  exact h hc

def lastLine (text : List Char) : List Char :=
  (text.reverse.takeWhile (· != '\n')).reverse

private theorem columnAfter_eq_lastLine (text : List Char) :
    columnAfter text = 1 + (lastLine text).length := by
  rw [lastLine, List.length_reverse, columnAfter]

private theorem newline_notMem_lastLine (text : List Char) : '\n' ∉ lastLine text := by
  rw [lastLine, List.mem_reverse]
  exact newline_notMem_takeWhile text.reverse

private theorem lastLine_append {text more : List Char} (h : '\n' ∉ more) :
    lastLine (text ++ more) = lastLine text ++ more := by
  have hall := forall_bne_newline fun hmem => h (List.mem_reverse.1 hmem)
  rw [lastLine, List.reverse_append, List.takeWhile_append_of_pos hall, List.reverse_append,
    List.reverse_reverse, lastLine]

private theorem lastLine_newline (text : List Char) : lastLine (text ++ ['\n']) = [] := by
  simp [lastLine]

private theorem exists_append_lastLine (text : List Char) :
    ∃ above, text = above ++ lastLine text ∧ ∀ c ∈ above.getLast?, c = '\n' := by
  refine ⟨(text.reverse.dropWhile (· != '\n')).reverse, ?_, ?_⟩
  · rw [lastLine, ← List.reverse_append, List.takeWhile_append_dropWhile, List.reverse_reverse]
  · intro c hc
    rw [List.getLast?_reverse] at hc
    have hnewline := List.head?_dropWhile_not (· != '\n') text.reverse
    rw [hc] at hnewline
    simpa using hnewline

/-! ## Where a scan is stuck -/

namespace Scanner

/-- The scan stands behind a text in the source, and the line that it remembers starts behind the
last newline of that text. -/
structure Within (source before : List Char) (s : Scanner) : Prop where
  text : source = before ++ s.rest
  behind : s.Behind before
  lineStart : s.lineStart = lastLine before ++ s.rest

private theorem within_start (source : String) : (start source).Within source.toList [] :=
  ⟨rfl, behind_start source, rfl⟩

theorem Within.skipBlanks {source before : List Char} {s : Scanner} (h : s.Within source before) :
    s.skipBlanks.Within source (before ++ s.rest.takeWhile Text.isBlank) := by
  have hnewline : '\n' ∉ s.rest.takeWhile Text.isBlank := by
    intro hmem
    exact Text.ne_newline_of_isBlank (List.all_eq_true.1 List.all_takeWhile _ hmem) rfl
  refine ⟨?_, h.behind.skipBlanks, ?_⟩
  · rw [h.text, Scanner.skipBlanks, List.append_assoc, List.takeWhile_append_dropWhile]
  · rw [lastLine_append hnewline, Scanner.skipBlanks, List.append_assoc,
      List.takeWhile_append_dropWhile, h.lineStart]

theorem Within.advance {source before : List Char} {s : Scanner} (h : s.Within source before)
    {c : Char} {rest left : List Char} {lexeme : Lexeme} (hrest : s.rest = c :: rest)
    (hread : Lexeme.read? c rest = some (lexeme, left)) :
    (s.advance lexeme.kind lexeme.chars left).Within source (before ++ lexeme.chars) := by
  have hsplit := Lexeme.read?_eq_append hread
  obtain ⟨hnewline, hother⟩ := Lexeme.read?_newline hread
  refine ⟨?_, h.behind.advance hread, ?_⟩
  · rw [rest_advance, h.text, hrest, hsplit, List.append_assoc]
  · rw [rest_advance]
    by_cases hkind : lexeme.kind = .newline
    · rw [hkind, hnewline hkind, lastLine_newline]
      rfl
    · have hstart : (s.advance lexeme.kind lexeme.chars left).lineStart = s.lineStart := by
        unfold Scanner.advance
        split
        · next heq => exact absurd heq hkind
        · rfl
      rw [hstart, h.lineStart, lastLine_append (hother hkind), hrest, hsplit, List.append_assoc]

theorem Within.exists_stuck {file : String} {source before : List Char} {s : Scanner}
    (h : s.Within source before) {d : Diagnostic} (hfault : (s.run file).fault = some d) :
    ∃ (text : List Char) (last : Scanner) (c : Char) (rest : List Char),
      last.Within source text ∧ last.rest = c :: rest ∧ Lexeme.read? c rest = none ∧
        d = last.stuck file c := by
  induction hlength : s.rest.length using Nat.strongRecOn generalizing s before with
  | _ n ih =>
      rcases s.step_cases file with ⟨-, hstep⟩ | ⟨c, rest, hrest, hstep⟩ |
        ⟨c, rest, lexeme, left, hrest, hread, hstep⟩
      · rw [run_of_done hstep] at hfault
        cases hfault
      · rw [run_of_stuck hstep, Option.some.injEq] at hfault
        refine ⟨_, s.skipBlanks, c, rest, h.skipBlanks, hrest, ?_, hfault.symm⟩
        cases hread : Lexeme.read? c rest with
        | none => rfl
        | some found => simp [step, Scanner.read, Scanner.skipBlanks, hrest, hread] at hstep
      · rw [run_of_token hstep] at hfault
        exact ih _ (hlength ▸ length_step hstep) (h.skipBlanks.advance hrest hread) hfault rfl

/-- The line of a scan is the whole line around the place at which it stands. -/
theorem Within.currentLine {source before : List Char} {s : Scanner} (h : s.Within source before) :
    s.currentLine.toList = lastLine before ++ s.rest.takeWhile (· != '\n') := by
  have hall := forall_bne_newline (newline_notMem_lastLine before)
  rw [Scanner.currentLine, String.toList_ofList, h.lineStart, List.takeWhile_append_of_pos hall]

end Scanner

/-! ## What is shown -/

/-- A line of a text, between what stands above and below it: it holds no newline and cannot be
made longer. -/
structure IsLine (above line below : List Char) : Prop where
  start : ∀ c ∈ above.getLast?, c = '\n'
  line : '\n' ∉ line
  stop : ∀ c ∈ below.head?, c = '\n'

/-- The text of a diagnostic shows a line of source, behind four spaces, and puts one caret under
its character `c`, which `k` others stand in front of. -/
structure Diagnostic.Displays (d : Diagnostic) (line : List Char) (k : Nat) (c : Char) : Prop where
  rows : ∃ header advice, d.render.toList.splitOn '\n' =
    header :: ("    ".toList ++ line) :: (List.replicate (k + 4) ' ' ++ ['^']) :: advice
  under : ("    ".toList ++ line)[k + 4]? = some c

theorem Diagnostic.caretLine?_point (file : String) (line : Int) (k : Nat) :
    caretLine? (Span.point file line (k + 1)) =
      some (margin ++ String.ofList (List.replicate k ' ' ++ ['^'])) := by
  have hpositive : (0 : Int) < k + 1 := by omega
  have hstart : ((k : Int) + 1 - 1).toNat = k := by omega
  have hwidth : max 1 ((k : Int) + 1 - (k + 1) + 1).toNat = 1 := by omega
  simp only [caretLine?, Span.point, Span.between, if_true, if_pos hpositive, hstart, hwidth,
    List.replicate_one]

namespace Scanner

/-- What the first line of the text of a fault says is on one line. -/
theorem oneLine_message (c : Char) : OneLine (Fault.ofCharacter c).message := by
  unfold Fault.ofCharacter
  split
  · decide
  · have hwords : OneLine "Unexpected character " := by decide
    exact hwords.append (Fault.oneLine_describeCharacter _)

private theorem oneLine_code (c : Char) : OneLine (Fault.ofCharacter c).kind.code.render := by
  unfold Fault.ofCharacter
  split
  · decide
  · change OneLine Code.invalidCharacter.render
    decide

private theorem oneLine_severity (severity : Severity) : OneLine severity.label := by
  cases severity <;> decide

private theorem oneLine_advice (c : Char) : OneLine (Fault.ofCharacter c).advice := by
  unfold Fault.ofCharacter
  split
  · decide
  · exact List.not_mem_nil

/-- The lines of the fault of a stuck scan: the second one is the line of the scan, and nothing in
front of it or behind the caret breaks into lines. -/
theorem exists_lines_stuck {file : String} (hfile : OneLine file) {s : Scanner} {k : Nat}
    (hcolumn : s.column = k + 1) (hline : s.currentLine ≠ "") (c : Char) :
    ∃ header advice, OneLine header ∧ (∀ text ∈ advice, OneLine text) ∧
      (s.stuck file c).lines = header :: (Diagnostic.margin ++ s.currentLine) ::
        (Diagnostic.margin ++ String.ofList (List.replicate k ' ' ++ ['^'])) :: advice := by
  obtain ⟨d, hd⟩ : ∃ d, d = s.stuck file c := ⟨_, rfl⟩
  have hspan : d.span = Span.point file s.line (k + 1) := by
    rw [hd]
    exact congrArg (Span.point file s.line) (congrArg Nat.cast hcolumn)
  have hsource : d.sourceLine = s.currentLine := hd ▸ rfl
  have hadvice : d.hint = (Fault.ofCharacter c).advice := hd ▸ rfl
  refine ⟨d.span.render ++ ": " ++ d.severity.label ++ ": " ++ d.message ++ " [" ++
    d.code.render ++ "]", if d.hint = "" then [] else ["hint: " ++ d.hint], ?_, ?_, ?_⟩
  · have hplace : OneLine d.span.render := Span.oneLine_render (hspan ▸ hfile)
    have hmessage : OneLine d.message := hd ▸ oneLine_message c
    have hcode : OneLine d.code.render := hd ▸ oneLine_code c
    have hcolon : OneLine ": " := by decide
    have hopening : OneLine " [" := by decide
    have hclosing : OneLine "]" := by decide
    exact ((((((hplace.append hcolon).append (oneLine_severity _)).append hcolon).append
      hmessage).append hopening).append hcode).append hclosing
  · have hlabel : OneLine "hint: " := by decide
    intro text htext
    simp only [List.mem_ite_nil_left, List.mem_singleton] at htext
    rw [htext.2, hadvice]
    exact hlabel.append (oneLine_advice c)
  · have hnotes : d.notes = [] := hd ▸ rfl
    rw [← hd, Diagnostic.lines, hspan, Diagnostic.caretLine?_point, hsource, if_neg hline, hnotes]
    rfl

end Scanner

/-- The text of the fault that stops a scan points at the character that stops it.  Its second line
is the whole line of the source in which that character stands, behind four spaces, and its third
line is spaces and one caret, right under the character.  The fault's own place is there, no token
starts there, and the fault is that of this character. -/
theorem TokenStream.caret_under_fault {source file : String} {d : Diagnostic}
    (hfile : OneLine file) (h : (scan source file).fault = some d) :
    ∃ (above front : List Char) (c : Char) (tail below : List Char),
      source.toList = above ++ (front ++ c :: tail ++ below) ∧
      IsLine above (front ++ c :: tail) below ∧
      Lexeme.read? c (tail ++ below) = none ∧
      d.fault = .ofCharacter c ∧
      d.span = Span.point file (lineAfter above) (front.length + 1) ∧
      d.Displays (front ++ c :: tail) front.length c := by
  obtain ⟨before, s, c, rest, hs, hrest, hread, rfl⟩ :=
    (Scanner.within_start source).exists_stuck h
  obtain ⟨above, hbefore, habove⟩ := exists_append_lastLine before
  have hc : c ≠ '\n' := by
    rintro rfl
    rw [Lexeme.read?_newline_cons] at hread
    cases hread
  have hsplit := List.takeWhile_append_dropWhile (p := (· != '\n')) (l := rest)
  have hline : s.currentLine.toList = lastLine before ++ c :: rest.takeWhile (· != '\n') := by
    rw [hs.currentLine, hrest, List.takeWhile_cons, if_pos (bne_iff_ne.2 hc)]
  have hcolumn : s.column = (lastLine before).length + 1 := by
    rw [hs.behind.column, columnAfter_eq_lastLine, Nat.add_comm]
  have hrow : s.line = lineAfter above := by
    rw [hs.behind.line, hbefore, lineAfter_append (newline_notMem_lastLine before)]
  have hone : OneLine s.currentLine := by
    rw [Scanner.currentLine, oneLine_ofList]
    exact newline_notMem_takeWhile s.lineStart
  have hne : s.currentLine ≠ "" := by
    intro hempty
    rw [hempty] at hline
    simp at hline
  refine ⟨above, lastLine before, c, rest.takeWhile (· != '\n'), rest.dropWhile (· != '\n'),
    ?_, ⟨habove, hline ▸ hone, ?_⟩, by rwa [hsplit], rfl, ?_, ?_, ?_⟩
  · rw [List.append_assoc, List.cons_append, hsplit, ← List.append_assoc, ← hbefore, ← hrest]
    exact hs.text
  · intro x hx
    have hnewline := List.head?_dropWhile_not (· != '\n') rest
    rw [hx] at hnewline
    simpa using hnewline
  · change Span.point file s.line s.column = _
    rw [hrow, hcolumn]
    rfl
  · obtain ⟨header, advice, hheader, hadvice, hlines⟩ :=
      Scanner.exists_lines_stuck hfile hcolumn hne c
    have hmargin : OneLine Diagnostic.margin := by decide
    have hcaret :
        OneLine (String.ofList (List.replicate (lastLine before).length ' ' ++ ['^'])) := by
      rw [oneLine_ofList, List.mem_append, not_or]
      exact ⟨fun hmem => absurd (List.eq_of_mem_replicate hmem) (by decide), by decide⟩
    refine ⟨header.toList, advice.map String.toList, ?_⟩
    rw [Diagnostic.splitOn_render, hlines]
    · simp [Diagnostic.margin, hline, List.replicate_succ]
    · rw [hlines]
      simp only [List.forall_mem_cons]
      exact ⟨hheader, hmargin.append hone, hmargin.append hcaret, hadvice⟩
  · simp

/-- A stray character behind a tab, in the second of three lines. -/
theorem TokenStream.caret_under_fault_stray :
    let source := "x = 1\n\ty = a $ b\nz"
    OneLine "in" ∧ ∃ d, (scan source "in").fault = some d ∧
      d.render = "in:2:8: error: Unexpected character '$' [ODO-0001]\n    \ty = a $ b\n           ^" ∧
      ∃ (above front : List Char) (c : Char) (tail below : List Char),
        source.toList = above ++ (front ++ c :: tail ++ below) ∧
        IsLine above (front ++ c :: tail) below ∧
        Lexeme.read? c (tail ++ below) = none ∧
        d.fault = .ofCharacter c ∧
        d.span = Span.point "in" (lineAfter above) (front.length + 1) ∧
        d.Displays (front ++ c :: tail) front.length c := by
  have hfault : (scan "x = 1\n\ty = a $ b\nz" "in").fault = some ((Diagnostic.of
      (.invalidCharacter "$") (Span.point "in" 2 8)).withSource "\ty = a $ b") := by decide +kernel
  exact ⟨by decide, _, hfault, by decide +kernel, caret_under_fault (by decide) hfault⟩

end Scriptlet
