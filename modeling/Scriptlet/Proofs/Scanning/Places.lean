import Scriptlet.Proofs.Scanning.Partition
/-!
# Places of tokens

Every token of a source says where it stands: it is what is read behind the text before
it.  A scan that gets stuck says where the character stands that no token starts with.
The place right behind a token follows from its own unless it is a newline, which ends
its line: one column behind a newline there is nothing.
-/

namespace Scriptlet

def Span.StartsBehind (span : Span) (text : List Char) : Prop :=
  span.line = lineAfter text ∧ span.column = columnAfter text

/-- The span starts at a character of the text or at its end. -/
def Span.StartsIn (span : Span) (text : List Char) : Prop :=
  ∃ before after, text = before ++ after ∧ span.StartsBehind before

structure Token.StandsBehind (token : Token) (before source : List Char) : Prop where
  read : ∃ c rest lexeme left, source = before ++ c :: rest ∧
    Lexeme.read? c rest = some (lexeme, left) ∧ token.kind = lexeme.kind ∧
    token.text = String.ofList lexeme.text ∧ token.lexeme = String.ofList lexeme.chars
  line : token.line = lineAfter before
  column : token.column = columnAfter before

/-! ## Places in a text -/

private theorem lineAfter_le_append (text more : List Char) :
    lineAfter text ≤ lineAfter (text ++ more) := by
  unfold lineAfter
  rw [List.count_append]
  omega

private theorem columnAfter_le_append {text more : List Char}
    (h : lineAfter (text ++ more) = lineAfter text) :
    columnAfter text ≤ columnAfter (text ++ more) := by
  have hcount : more.count '\n' = 0 := by
    unfold lineAfter at h
    rw [List.count_append] at h
    omega
  rw [columnAfter_append (List.count_eq_zero.1 hcount)]
  omega

/-- One column behind a newline is no place of a text. -/
theorem not_startsIn_behind_newline {span : Span} {before after : List Char}
    (hline : span.line = lineAfter before) (hcolumn : span.column = columnAfter before + 1) :
    ¬ span.StartsIn (before ++ '\n' :: after) := by
  rintro ⟨text, rest, htext, hsame⟩
  have hsameLine : lineAfter text = lineAfter before := by
    have := hsame.1
    omega
  have hsameColumn : columnAfter text = columnAfter before + 1 := by
    have := hsame.2
    omega
  rcases List.append_eq_append_iff.1 htext.symm with ⟨more, hbefore, -⟩ | ⟨more, hmore, hrest⟩
  · have hle : columnAfter text ≤ columnAfter (text ++ more) :=
      columnAfter_le_append (by rw [← hbefore, hsameLine])
    rw [← hbefore] at hle
    omega
  · cases more with
    | nil =>
        rw [List.append_nil] at hmore
        rw [hmore] at hsameColumn
        omega
    | cons c more =>
        have hc : c = '\n' := (List.cons.inj hrest).1.symm
        have hle := lineAfter_le_append (before ++ ['\n']) more
        rw [lineAfter_newline, List.append_assoc, List.singleton_append, ← hc, ← hmore] at hle
        omega

namespace Token.StandsBehind

variable {token : Token} {before source : List Char}

private theorem startsBehind (h : token.StandsBehind before source) :
    token.span.StartsBehind before :=
  ⟨h.line, h.column⟩

theorem startsIn (h : token.StandsBehind before source) : token.span.StartsIn source := by
  obtain ⟨c, rest, lexeme, left, hsource, -⟩ := h.read
  exact ⟨before, c :: rest, hsource, h.startsBehind⟩

theorem exists_after (h : token.StandsBehind before source) :
    ∃ after, source = before ++ (token.lexeme.toList ++ after) := by
  obtain ⟨c, rest, lexeme, left, hsource, hread, -, -, hlexeme⟩ := h.read
  refine ⟨left, ?_⟩
  rw [hlexeme, String.toList_ofList, ← Lexeme.read?_eq_append hread, hsource]

theorem lexeme_newline (h : token.StandsBehind before source) (hkind : token.kind = .newline) :
    token.lexeme.toList = ['\n'] := by
  obtain ⟨c, rest, lexeme, left, -, hread, hsame, -, hlexeme⟩ := h.read
  rw [hlexeme, String.toList_ofList]
  exact (Lexeme.read?_newline hread).1 (hsame.symm.trans hkind)

theorem newline_notMem (h : token.StandsBehind before source) (hkind : token.kind ≠ .newline) :
    '\n' ∉ token.lexeme.toList := by
  obtain ⟨c, rest, lexeme, left, -, hread, hsame, -, hlexeme⟩ := h.read
  rw [hlexeme, String.toList_ofList]
  exact (Lexeme.read?_newline hread).2 fun hnewline => hkind (hsame.trans hnewline)

theorem spelling (h : token.StandsBehind before source) : token.spelling = token.lexeme := by
  obtain ⟨c, rest, lexeme, left, -, hread, -, -, hlexeme⟩ := h.read
  obtain ⟨d, hlast, -⟩ := Lexeme.read?_getLast hread
  unfold Token.spelling
  rw [if_neg]
  intro hempty
  have hchars : lexeme.chars = [] := by
    rw [← String.toList_ofList (l := lexeme.chars), ← hlexeme, hempty]
    rfl
  rw [hchars] at hlast
  simp at hlast

end Token.StandsBehind

/-! ## What a scan says -/

/-- The fault of a character that no token starts with. -/
def Fault.ofCharacter (c : Char) : Fault :=
  if c = '"' then .unterminatedText "\"" else .invalidCharacter (String.singleton c)

/-- Tokens stand where they say, and a scan is stuck where it says. -/
theorem Scanner.run_places (file : String) {source before : List Char} {s : Scanner}
    (hsource : source = before ++ s.rest) (h : s.Behind before) :
    (∀ token ∈ (s.run file).tokens, token.file = file ∧
      ∃ text, token.StandsBehind text source) ∧
    ∀ d, (s.run file).fault = some d → ∃ text c after, source = text ++ c :: after ∧
      Lexeme.read? c after = none ∧ d.fault = .ofCharacter c ∧
      d.span = Span.point file (lineAfter text) (columnAfter text) := by
  induction hlength : s.rest.length using Nat.strongRecOn generalizing s before with
  | _ n ih =>
      have hblanks := h.skipBlanks
      have htext : source =
          (before ++ s.rest.takeWhile Text.isBlank) ++ s.rest.dropWhile Text.isBlank := by
        rw [List.append_assoc, List.takeWhile_append_dropWhile, hsource]
      rcases s.step_cases file with ⟨-, hstep⟩ | ⟨c, rest, hrest, hstep⟩ |
        ⟨c, rest, lexeme, left, hrest, hread, hstep⟩
      · rw [run_of_done hstep]
        simp
      · rw [hrest] at htext
        have hstuck : Lexeme.read? c rest = none := by
          cases hread : Lexeme.read? c rest with
          | none => rfl
          | some found => simp [step, Scanner.read, Scanner.skipBlanks, hrest, hread] at hstep
        rw [run_of_stuck hstep]
        refine ⟨by simp, ?_⟩
        intro d hd
        obtain rfl := Option.some.inj hd
        refine ⟨_, c, rest, htext, hstuck, rfl, ?_⟩
        rw [← hblanks.line, ← hblanks.column]
        rfl
      · rw [hrest] at htext
        have hnext : source = (before ++ s.rest.takeWhile Text.isBlank ++ lexeme.chars) ++
            (s.skipBlanks.advance lexeme.kind lexeme.chars left).rest := by
          rw [rest_advance, List.append_assoc, ← Lexeme.read?_eq_append hread, htext]
        obtain ⟨htokens, hfault⟩ :=
          ih _ (hlength ▸ length_step hstep) hnext (hblanks.advance hread) rfl
        have hplaced : (s.skipBlanks.place file lexeme).StandsBehind
            (before ++ s.rest.takeWhile Text.isBlank) source := {
          read := ⟨c, rest, lexeme, left, htext, hread, rfl, rfl, rfl⟩
          line := by rw [← hblanks.line]; rfl
          column := by rw [← hblanks.column]; rfl }
        rw [run_of_token hstep]
        exact ⟨List.forall_mem_cons.2 ⟨⟨rfl, _, hplaced⟩, htokens⟩, hfault⟩

namespace TokenStream

variable {source file : String}

theorem scan_standsBehind {token : Token} (h : token ∈ (scan source file).tokens) :
    token.file = file ∧ ∃ text, token.StandsBehind text source.toList :=
  (Scanner.run_places file rfl (Scanner.behind_start source)).1 token h

theorem scan_stuckBehind {d : Diagnostic} (h : (scan source file).fault = some d) :
    ∃ text c after, source.toList = text ++ c :: after ∧ Lexeme.read? c after = none ∧
      d.fault = .ofCharacter c ∧
      d.span = Span.point file (lineAfter text) (columnAfter text) :=
  (Scanner.run_places file rfl (Scanner.behind_start source)).2 d h

end TokenStream

end Scriptlet
