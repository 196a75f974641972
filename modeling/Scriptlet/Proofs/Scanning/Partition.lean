import Scriptlet.Proofs.Scanning.Lexemes
/-!
# Scanning as a partition

The tokens of a source are cut out of it one after the other: between them stand
runs of blanks that are as long as can be, and behind the last one nothing or
the character at which the scan is stuck.  Lines and columns, which a scan
counts as it goes, are those of the text that stands before a token.
-/

namespace Scriptlet

/-! ## Places in a text -/

/-- The line of what follows a text: one more than the newlines in it. -/
def lineAfter (text : List Char) : Nat :=
  1 + text.count '\n'

/-- The column of what follows a text: one more than the characters behind its last newline, or
than all of them if it has none. -/
def columnAfter (text : List Char) : Nat :=
  1 + (text.reverse.takeWhile (· != '\n')).length

theorem lineAfter_append {text more : List Char} (h : '\n' ∉ more) :
    lineAfter (text ++ more) = lineAfter text := by
  rw [lineAfter, List.count_append, List.count_eq_zero_of_not_mem h, Nat.add_zero, lineAfter]

theorem columnAfter_append {text more : List Char} (h : '\n' ∉ more) :
    columnAfter (text ++ more) = columnAfter text + more.length := by
  have hall : ∀ c ∈ more.reverse, (c != '\n') = true := by
    intro c hc
    rw [bne_iff_ne]
    rintro rfl
    exact h (List.mem_reverse.1 hc)
  rw [columnAfter, List.reverse_append, List.takeWhile_append_of_pos hall, List.length_append,
    List.length_reverse, columnAfter]
  omega

theorem lineAfter_newline (text : List Char) : lineAfter (text ++ ['\n']) = lineAfter text + 1 := by
  rw [lineAfter, List.count_append, lineAfter]
  rfl

private theorem columnAfter_newline (text : List Char) : columnAfter (text ++ ['\n']) = 1 := by
  simp [columnAfter]

/-! ## Runs of blanks -/

/-- A run of blanks that cannot be made longer where it stands. -/
structure MaximalBlanks (before run after : List Char) : Prop where
  blank : ∀ c ∈ run, Text.isBlank c = true
  left : ∀ c ∈ before.getLast?, Text.isBlank c = false
  right : ∀ c ∈ after.head?, Text.isBlank c = false

private theorem maximalBlanks_takeWhile {before : List Char}
    (h : ∀ c ∈ before.getLast?, Text.isBlank c = false) (text : List Char) :
    MaximalBlanks before (text.takeWhile Text.isBlank) (text.dropWhile Text.isBlank) := by
  refine ⟨List.all_eq_true.1 List.all_takeWhile, h, ?_⟩
  intro c hc
  have := List.head?_dropWhile_not Text.isBlank text
  rw [hc] at this
  simpa using this

/-! ## Steps of a scan -/

namespace Scanner

/-- What a scan does next: behind blanks it ends, is stuck, or reads a lexeme. -/
theorem step_cases (file : String) (s : Scanner) :
    (s.rest.dropWhile Text.isBlank = [] ∧ s.step file = .done) ∨
    (∃ c rest, s.rest.dropWhile Text.isBlank = c :: rest ∧
      s.step file = .stuck (s.skipBlanks.stuck file c)) ∨
    ∃ c rest lexeme left, s.rest.dropWhile Text.isBlank = c :: rest ∧
      Lexeme.read? c rest = some (lexeme, left) ∧
      s.step file = .token (s.skipBlanks.place file lexeme)
        (s.skipBlanks.advance lexeme.kind lexeme.chars left) := by
  cases hrest : s.rest.dropWhile Text.isBlank with
  | nil => exact .inl ⟨rfl, by simp [step, read, skipBlanks, hrest]⟩
  | cons c rest =>
      cases hread : Lexeme.read? c rest with
      | none => exact .inr (.inl ⟨c, rest, rfl, by simp [step, read, skipBlanks, hrest, hread]⟩)
      | some found =>
          obtain ⟨lexeme, left⟩ := found
          exact .inr (.inr ⟨c, rest, lexeme, left, rfl, hread, by
            simp [step, read, skipBlanks, hrest, hread]⟩)

theorem run_of_done {file : String} {s : Scanner} (h : s.step file = .done) :
    s.run file = ⟨[], none⟩ := by
  unfold run
  split <;> simp_all

theorem run_of_stuck {file : String} {s : Scanner} {diagnostic : Diagnostic}
    (h : s.step file = .stuck diagnostic) : s.run file = ⟨[], some diagnostic⟩ := by
  unfold run
  split <;> simp_all

theorem run_of_token {file : String} {s next : Scanner} {token : Token}
    (h : s.step file = .token token next) :
    s.run file = ⟨token :: (next.run file).tokens, (next.run file).fault⟩ := by
  rw [run.eq_def file s]
  split <;> simp_all

/-- The scan stands behind a text: its line and column are the place there. -/
structure Behind (text : List Char) (s : Scanner) : Prop where
  line : s.line = lineAfter text
  column : s.column = columnAfter text

theorem behind_start (source : String) : (start source).Behind [] :=
  ⟨rfl, rfl⟩

theorem Behind.skipBlanks {text : List Char} {s : Scanner} (h : s.Behind text) :
    s.skipBlanks.Behind (text ++ s.rest.takeWhile Text.isBlank) := by
  have hnewline : '\n' ∉ s.rest.takeWhile Text.isBlank := by
    intro hmem
    exact Text.ne_newline_of_isBlank (List.all_eq_true.1 List.all_takeWhile _ hmem) rfl
  refine ⟨?_, ?_⟩
  · rw [lineAfter_append hnewline]
    exact h.line
  · rw [columnAfter_append hnewline, ← h.column]
    rfl

/-- Lines are counted only at newline tokens, which suffices: no other lexeme holds a newline. -/
theorem Behind.advance {text : List Char} {s : Scanner} (h : s.Behind text) {c : Char}
    {rest left : List Char} {lexeme : Lexeme} (hread : Lexeme.read? c rest = some (lexeme, left)) :
    (s.advance lexeme.kind lexeme.chars left).Behind (text ++ lexeme.chars) := by
  obtain ⟨hnewline, hother⟩ := Lexeme.read?_newline hread
  by_cases hkind : lexeme.kind = .newline
  · rw [hkind, hnewline hkind]
    refine ⟨?_, (columnAfter_newline text).symm⟩
    rw [lineAfter_newline, ← h.line]
    rfl
  · have hadvance : s.advance lexeme.kind lexeme.chars left =
        { s with rest := left, column := s.column + lexeme.chars.length } := by
      unfold Scanner.advance
      split
      · next heq => exact absurd heq hkind
      · rfl
    rw [hadvance]
    refine ⟨?_, ?_⟩
    · rw [lineAfter_append (hother hkind)]
      exact h.line
    · rw [columnAfter_append (hother hkind), ← h.column]

end Scanner

/-! ## Partitions -/

def piecesText (pieces : List (List Char × Token)) : List Char :=
  pieces.flatMap fun piece => piece.1 ++ piece.2.lexeme.toList

/-- A text, behind another one, is cut into tokens, each behind its blanks, then blanks, then a
rest. -/
structure Partition (before text : List Char) (pieces : List (List Char × Token))
    (last rest : List Char) : Prop where
  text : text = piecesText pieces ++ (last ++ rest)
  placed : ∀ earlier run token later, pieces = earlier ++ (run, token) :: later →
    MaximalBlanks (before ++ piecesText earlier) run
      (token.lexeme.toList ++ (piecesText later ++ (last ++ rest))) ∧
    token.line = lineAfter (before ++ piecesText earlier ++ run) ∧
    token.column = columnAfter (before ++ piecesText earlier ++ run)
  ended : MaximalBlanks (before ++ piecesText pieces) last rest

theorem Partition.nil {before text : List Char}
    (h : ∀ c ∈ before.getLast?, Text.isBlank c = false) :
    Partition before text [] (text.takeWhile Text.isBlank) (text.dropWhile Text.isBlank) := by
  refine ⟨List.takeWhile_append_dropWhile.symm, ?_, ?_⟩
  · intro earlier run token later hpieces
    simp at hpieces
  · rw [piecesText, List.flatMap_nil, List.append_nil]
    exact maximalBlanks_takeWhile h _

theorem Partition.cons {before run text last rest : List Char} {token : Token}
    {pieces : List (List Char × Token)}
    (h : Partition (before ++ (run ++ token.lexeme.toList)) text pieces last rest)
    (hrun : MaximalBlanks before run (token.lexeme.toList ++ text))
    (hline : token.line = lineAfter (before ++ run))
    (hcolumn : token.column = columnAfter (before ++ run)) :
    Partition before (run ++ (token.lexeme.toList ++ text)) ((run, token) :: pieces) last rest := by
  have htext : ∀ others, piecesText ((run, token) :: others) =
      run ++ token.lexeme.toList ++ piecesText others := fun _ => rfl
  refine ⟨?_, ?_, ?_⟩
  · rw [htext, h.text]
    simp only [List.append_assoc]
  · intro earlier run' token' later hpieces
    cases earlier with
    | nil =>
        simp only [List.nil_append, List.cons.injEq, Prod.mk.injEq] at hpieces
        obtain ⟨⟨rfl, rfl⟩, rfl⟩ := hpieces
        rw [h.text] at hrun
        rw [piecesText, List.flatMap_nil, List.append_nil]
        exact ⟨hrun, hline, hcolumn⟩
    | cons first earlier =>
        simp only [List.cons_append, List.cons.injEq] at hpieces
        obtain ⟨rfl, rfl⟩ := hpieces
        have hplaced := h.placed earlier run' token' later rfl
        rw [htext]
        simp only [List.append_assoc] at hplaced ⊢
        exact hplaced
  · have hended := h.ended
    rw [htext]
    simp only [List.append_assoc] at hended ⊢
    exact hended

/-- What a scan says of the rest that it leaves behind a text: nothing if there is none, else a
fault at its first character. -/
def FaultAt (file : String) (before : List Char) : List Char → Option Diagnostic → Prop
  | [], fault => fault = none
  | c :: _, fault => ∃ diagnostic, fault = some diagnostic ∧
      diagnostic.span = Span.point file (lineAfter before) (columnAfter before) ∧
      diagnostic.fault =
        if c = '"' then .unterminatedText "\"" else .invalidCharacter (String.singleton c)

namespace Scanner

theorem Behind.step {file : String} {before : List Char} {s next : Scanner} {token : Token}
    (h : s.Behind before) (hbefore : ∀ c ∈ before.getLast?, Text.isBlank c = false)
    (hstep : s.step file = .token token next) :
    ∃ run, s.rest = run ++ (token.lexeme.toList ++ next.rest) ∧
      MaximalBlanks before run (token.lexeme.toList ++ next.rest) ∧
      token.line = lineAfter (before ++ run) ∧ token.column = columnAfter (before ++ run) ∧
      next.Behind (before ++ (run ++ token.lexeme.toList)) ∧
      ∀ c ∈ (before ++ (run ++ token.lexeme.toList)).getLast?, Text.isBlank c = false := by
  rcases s.step_cases file with ⟨-, hdone⟩ | ⟨c, rest, -, hstuck⟩ |
    ⟨c, rest, lexeme, left, hrest, hread, htoken⟩
  · rw [hdone] at hstep
    simp at hstep
  · rw [hstuck] at hstep
    simp at hstep
  rw [htoken, Step.token.injEq] at hstep
  obtain ⟨rfl, rfl⟩ := hstep
  have hblanks := h.skipBlanks
  have hlexeme : (s.skipBlanks.place file lexeme).lexeme.toList = lexeme.chars :=
    String.toList_ofList
  have hrun := maximalBlanks_takeWhile hbefore s.rest
  have htext := (List.takeWhile_append_dropWhile (p := Text.isBlank) (l := s.rest)).symm
  rw [hrest, Lexeme.read?_eq_append hread] at hrun htext
  rw [hlexeme, rest_advance]
  refine ⟨_, htext, hrun, ?_, ?_, ?_, ?_⟩
  · rw [← hblanks.line]
    rfl
  · rw [← hblanks.column]
    rfl
  · rw [← List.append_assoc]
    exact hblanks.advance hread
  · obtain ⟨d, hlast, hd⟩ := Lexeme.read?_getLast hread
    intro c hc
    rw [List.getLast?_append, List.getLast?_append, hlast] at hc
    obtain rfl := Option.some.inj hc
    exact hd

/-- A scan cuts what is left into tokens. -/
theorem run_partition (file : String) {before : List Char} {s : Scanner} (h : s.Behind before)
    (hbefore : ∀ c ∈ before.getLast?, Text.isBlank c = false) :
    ∃ pieces last rest, (s.run file).tokens = pieces.map Prod.snd ∧
      Partition before s.rest pieces last rest ∧
      FaultAt file (before ++ (piecesText pieces ++ last)) rest (s.run file).fault := by
  induction hlength : s.rest.length using Nat.strongRecOn generalizing s before with
  | _ n ih =>
      rcases s.step_cases file with ⟨hrest, hstep⟩ | ⟨c, rest, hrest, hstep⟩ |
        ⟨c, rest, lexeme, left, -, -, hstep⟩
      · rw [run_of_done hstep]
        refine ⟨[], _, _, rfl, .nil hbefore, ?_⟩
        rw [hrest]
        rfl
      · rw [run_of_stuck hstep]
        refine ⟨[], _, _, rfl, .nil hbefore, ?_⟩
        rw [hrest]
        refine ⟨_, rfl, ?_, rfl⟩
        have hblanks := h.skipBlanks
        rw [piecesText, List.flatMap_nil, List.nil_append, ← hblanks.line, ← hblanks.column]
        rfl
      · obtain ⟨run, htext, hrun, hline, hcolumn, hnext, hlast⟩ := h.step hbefore hstep
        obtain ⟨pieces, last, rest', htokens, hpartition, hfault⟩ :=
          ih _ (hlength ▸ length_step hstep) hnext hlast rfl
        rw [run_of_token hstep, htext]
        refine ⟨_ :: pieces, last, rest', ?_, hpartition.cons hrun hline hcolumn, ?_⟩
        · rw [htokens]
          rfl
        · rw [List.append_assoc] at hfault
          rw [piecesText, List.flatMap_cons, List.append_assoc]
          exact hfault

end Scanner

namespace TokenStream

/-- The tokens of a source, the blanks around them and a rest make up the source.
Every token stands where it says, the rest is empty exactly if the scan met no
fault, and otherwise the fault stands at the rest's first character: a quote
opens a text literal that does not end, any other character starts no token. -/
theorem scan_partitions (source file : String) :
    ∃ (pieces : List (List Char × Token)) (last rest : List Char),
      (scan source file).tokens = pieces.map Prod.snd ∧
      source.toList = piecesText pieces ++ (last ++ rest) ∧
      (∀ earlier run token later, pieces = earlier ++ (run, token) :: later →
        MaximalBlanks (piecesText earlier) run
          (token.lexeme.toList ++ (piecesText later ++ (last ++ rest))) ∧
        token.line = lineAfter (piecesText earlier ++ run) ∧
        token.column = columnAfter (piecesText earlier ++ run)) ∧
      MaximalBlanks (piecesText pieces) last rest ∧
      (rest = [] ↔ (scan source file).fault = none) ∧
      ∀ diagnostic, (scan source file).fault = some diagnostic →
        ∃ c more, rest = c :: more ∧
          diagnostic.span = Span.point file (lineAfter (piecesText pieces ++ last))
            (columnAfter (piecesText pieces ++ last)) ∧
          diagnostic.fault =
            if c = '"' then .unterminatedText "\"" else .invalidCharacter (String.singleton c) := by
  obtain ⟨pieces, last, rest, htokens, hpartition, hfault⟩ :=
    Scanner.run_partition file (Scanner.behind_start source) (by simp)
  refine ⟨pieces, last, rest, htokens, hpartition.text, hpartition.placed, hpartition.ended, ?_, ?_⟩
  · cases rest with
    | nil => exact ⟨fun _ => hfault, fun _ => rfl⟩
    | cons c more =>
        obtain ⟨diagnostic, hsome, -⟩ := hfault
        have hscan : (scan source file).fault = some diagnostic := hsome
        simp [hscan]
  · intro diagnostic hdiagnostic
    cases rest with
    | nil =>
        have hnone : (scan source file).fault = none := hfault
        rw [hnone] at hdiagnostic
        simp at hdiagnostic
    | cons c more =>
        obtain ⟨found, hsome, hspan, hcause⟩ := hfault
        have hscan : (scan source file).fault = some found := hsome
        rw [hscan, Option.some.injEq] at hdiagnostic
        subst hdiagnostic
        exact ⟨c, more, rfl, hspan, hcause⟩

end TokenStream

end Scriptlet
