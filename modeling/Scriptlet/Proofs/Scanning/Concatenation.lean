import Mathlib.Data.List.TakeWhile
import Scriptlet.Proofs.Scanning.Partition
import Scriptlet.Proofs.Syntax.Lines
import Scriptlet.Proofs.Syntax.Recognition
import Scriptlet.Proofs.Syntax.Spelling
/-!
# Sources on top of each other

Two sources that can be read are put on top of each other, with a newline
between them.  No token reaches over the newline and no statement goes on behind
it, so the tokens and the statements are those of the first source and then those
of the second one, further down by the lines of the first.
-/

namespace Scriptlet

/-! ## Tokens -/

namespace Scanner

variable {file : String} {s t : Scanner} {n : Nat}

def lowered (n : Nat) (s : Scanner) : Scanner :=
  { s with line := s.line + n }

private theorem place_lowered (hline : 0 < s.line) (lexeme : Lexeme) :
    (s.lowered n).place file lexeme = (s.place file lexeme).down n := by
  have hknown : s.line ≠ 0 := by omega
  simp [place, lowered, Token.down, lowerLine, hknown]

private theorem advance_lowered (kind : Token.Kind) (lexeme rest : List Char) :
    (s.lowered n).advance kind lexeme rest = (s.advance kind lexeme rest).lowered n := by
  unfold advance
  split
  · simp only [lowered, Scanner.mk.injEq, true_and, and_true]
    omega
  · rfl

private theorem advance_congr (hline : t.line = s.line) (hcolumn : t.column = s.column)
    (kind : Token.Kind) (lexeme rest rest' : List Char) :
    (t.advance kind lexeme rest').line = (s.advance kind lexeme rest).line ∧
      (t.advance kind lexeme rest').column = (s.advance kind lexeme rest).column := by
  unfold advance
  split
  · exact ⟨congrArg (· + 1) hline, rfl⟩
  · exact ⟨hline, congrArg (· + lexeme.length) hcolumn⟩

private theorem line_advance (kind : Token.Kind) (lexeme rest : List Char) :
    s.line ≤ (s.advance kind lexeme rest).line := by
  unfold advance
  split
  · exact Nat.le_succ _
  · exact Nat.le_refl _

private theorem run_lowered (hline : 0 < s.line) (hfault : (s.run file).fault = none) :
    (s.lowered n).run file = ⟨(s.run file).tokens.map (Token.down n), none⟩ := by
  induction hlength : s.rest.length using Nat.strongRecOn generalizing s with
  | _ length ih =>
      rcases s.step_cases file with ⟨hrest, hstep⟩ | ⟨c, rest, -, hstep⟩ |
        ⟨c, rest, lexeme, left, hrest, hread, hstep⟩
      · have hdone : (s.lowered n).step file = .done := by
          simp [step, read, skipBlanks, lowered, hrest]
        rw [run_of_done hdone, run_of_done hstep, List.map_nil]
      · rw [run_of_stuck hstep] at hfault
        simp at hfault
      · have hblanks : 0 < s.skipBlanks.line := hline
        have htoken : (s.lowered n).step file = .token ((s.skipBlanks.place file lexeme).down n)
            ((s.skipBlanks.advance lexeme.kind lexeme.chars left).lowered n) := by
          have hskip : (s.lowered n).skipBlanks = s.skipBlanks.lowered n := rfl
          have hsame : (s.skipBlanks.lowered n).rest = c :: rest := hrest
          rw [← place_lowered hblanks, ← advance_lowered, step, hskip, read, hsame]
          simp [hread]
        rw [run_of_token hstep] at hfault ⊢
        have hnext := ih _ (hlength ▸ length_step hstep)
          (Nat.lt_of_lt_of_le hblanks (line_advance ..)) hfault rfl
        rw [run_of_token htoken, hnext, List.map_cons]

/-- The newlines that a scan has yet to pass make up the difference to its last line. -/
theorem line_step {token : Token} (h : s.step file = .token token t) :
    t.line + t.rest.count '\n' = s.line + s.rest.count '\n' := by
  rcases s.step_cases file with ⟨-, hstep⟩ | ⟨c, rest, -, hstep⟩ |
    ⟨c, rest, lexeme, left, hrest, hread, hstep⟩
  · rw [hstep] at h
    simp at h
  · rw [hstep] at h
    simp at h
  rw [hstep, Step.token.injEq] at h
  obtain ⟨-, rfl⟩ := h
  have hblanks : (s.rest.takeWhile Text.isBlank).count '\n' = 0 := by
    apply List.count_eq_zero_of_not_mem
    intro hmem
    exact Text.ne_newline_of_isBlank (List.all_eq_true.1 List.all_takeWhile _ hmem) rfl
  have hcount : s.rest.count '\n' = lexeme.chars.count '\n' + left.count '\n' := by
    rw [← List.takeWhile_append_dropWhile (p := Text.isBlank) (l := s.rest), List.count_append,
      hblanks, hrest, Lexeme.read?_eq_append hread, List.count_append, Nat.zero_add]
  obtain ⟨hnewline, hother⟩ := Lexeme.read?_newline hread
  rw [rest_advance, hcount]
  by_cases hkind : lexeme.kind = .newline
  · rw [hkind, hnewline hkind]
    simp only [advance, skipBlanks, List.count_singleton_self]
    omega
  · have hline : (s.skipBlanks.advance lexeme.kind lexeme.chars left).line = s.line := by
      unfold advance
      split
      · next heq => exact absurd heq hkind
      · rfl
    rw [hline, List.count_eq_zero_of_not_mem (hother hkind)]
    omega

/-- A scan without a fault comes to the newline behind its text, and goes on below. -/
theorem run_append_newline (more : List Char) (hrest : t.rest = s.rest ++ '\n' :: more)
    (hline : t.line = s.line) (hcolumn : t.column = s.column)
    (hfault : (s.run file).fault = none) :
    ∃ newline : Token, newline.kind = .newline ∧
      t.run file =
        let below : Scanner := ⟨more, s.line + s.rest.count '\n' + 1, 1, more⟩
        ⟨(s.run file).tokens ++ newline :: (below.run file).tokens, (below.run file).fault⟩ := by
  induction hlength : s.rest.length using Nat.strongRecOn generalizing s t with
  | _ length ih =>
      have hdrop := dropWhile_append_newline (p := Text.isBlank) (by decide) s.rest more
      have hskip : t.skipBlanks.column = s.skipBlanks.column := by
        simp only [skipBlanks, hcolumn, hrest,
          takeWhile_append_newline (p := Text.isBlank) (by decide) s.rest more]
      rcases s.step_cases file with ⟨hblank, hstep⟩ | ⟨c, rest, -, hstep⟩ |
        ⟨c, rest, lexeme, left, hleft, hread, hstep⟩
      · have htoken : t.step file = .token
            (t.skipBlanks.place file ⟨.newline, ['\n'], ['\n']⟩) ⟨more, t.line + 1, 1, more⟩ := by
          simp [step, read, skipBlanks, hrest, hdrop, hblank, Lexeme.read?_newline_cons, advance]
        have hcount : s.rest.count '\n' = 0 := by
          apply List.count_eq_zero_of_not_mem
          intro hmem
          rw [List.dropWhile_eq_nil_iff] at hblank
          exact Text.ne_newline_of_isBlank (hblank _ hmem) rfl
        rw [run_of_token htoken, run_of_done hstep, hline, hcount]
        exact ⟨_, rfl, rfl⟩
      · rw [run_of_stuck hstep] at hfault
        simp at hfault
      · have htoken : t.step file = .token (s.skipBlanks.place file lexeme)
            (t.skipBlanks.advance lexeme.kind lexeme.chars (left ++ '\n' :: more)) := by
          have hplace : t.skipBlanks.place file lexeme = s.skipBlanks.place file lexeme := by
            have hline : t.skipBlanks.line = s.skipBlanks.line := hline
            rw [place, place, hline, hskip]
          have hcons : t.skipBlanks.rest = c :: (rest ++ '\n' :: more) := by
            rw [skipBlanks, hrest, hdrop, hleft, List.cons_append]
          rw [← hplace, step, read, hcons]
          simp [Lexeme.read?_append_newline, hread]
        obtain ⟨hline', hcolumn'⟩ := advance_congr (s := s.skipBlanks) (t := t.skipBlanks) hline
          hskip lexeme.kind lexeme.chars left (left ++ '\n' :: more)
        rw [run_of_token hstep] at hfault ⊢
        obtain ⟨newline, hnewline, hrun⟩ := ih _ (hlength ▸ length_step hstep)
          (by rw [rest_advance, rest_advance]) hline' hcolumn' hfault rfl
        refine ⟨newline, hnewline, ?_⟩
        rw [run_of_token htoken, hrun, line_step hstep]
        rfl

end Scanner

theorem TokenStream.scan_newline {first second file : String}
    (hfirst : (scan first file).fault = none) (hsecond : (scan second file).fault = none) :
    ∃ newline : Token, newline.kind = .newline ∧
      scan (first ++ "\n" ++ second) file =
        ofList ((scan first file).tokens ++
          newline :: (scan second file).tokens.map (Token.down (first.toList.count '\n' + 1))) := by
  have hrest : (Scanner.start (first ++ "\n" ++ second)).rest =
      (Scanner.start first).rest ++ '\n' :: second.toList := by
    simp [Scanner.start]
  obtain ⟨newline, hnewline, hrun⟩ := Scanner.run_append_newline second.toList hrest rfl rfl hfirst
  refine ⟨newline, hnewline, ?_⟩
  have hbelow : (⟨second.toList, (Scanner.start first).line + first.toList.count '\n' + 1, 1,
      second.toList⟩ : Scanner) =
      (Scanner.start second).lowered (first.toList.count '\n' + 1) := by
    simp only [Scanner.lowered, Scanner.start, Scanner.mk.injEq, true_and, and_true]
    omega
  have hlowered := Scanner.run_lowered (n := first.toList.count '\n' + 1)
    (s := Scanner.start second) Nat.zero_lt_one hsecond
  rw [scan, hrun]
  dsimp only
  rw [show (Scanner.start first).rest = first.toList from rfl, hbelow, hlowered]
  rfl

/-! ## Statements -/

namespace Grammar

variable {n : Nat}

theorem Newlines.down {tokens : List Token} (h : Newlines tokens) :
    Newlines (tokens.map (Token.down n)) := by
  intro token htoken
  obtain ⟨old, hold, rfl⟩ := List.mem_map.1 htoken
  exact h old hold

theorem Factor.down {token : Token} {leaf : Tree} (h : Factor token leaf) :
    Factor (token.down n) (leaf.down n) := by
  cases h with
  | number hkind => exact .number hkind
  | truth hkind => exact .truth hkind
  | text hkind => exact .text hkind
  | name hkind => exact .name hkind

theorem Separator.down {tokens : List Token} (h : Separator tokens) :
    Separator (tokens.map (Token.down n)) := by
  cases h with
  | semicolon hkind hgap => exact .semicolon hkind hgap.down
  | newline hkind hgap => exact .newline hkind hgap.down

theorem Expression.down {tokens : List Token} {tree : Tree} (h : Expression tokens tree) :
    Expression (tokens.map (Token.down n)) (tree.down n) := by
  refine @Expression.rec
    (fun tokens tree _ => Expression (tokens.map (Token.down n)) (tree.down n))
    (fun leaf tokens tree _ => Suffix (leaf.down n) (tokens.map (Token.down n)) (tree.down n))
    (fun tokens values _ => Arguments (tokens.map (Token.down n)) (Tree.downAll n values))
    (fun tokens values _ => MoreArguments (tokens.map (Token.down n)) (Tree.downAll n values))
    ?intro ?nil ?assign ?call ?none ?some ?last ?trailing ?next tokens tree h
  case intro =>
    intro gap suffix token leaf tree hgap hfactor _ ih
    rw [List.map_append, List.map_cons]
    exact .intro hgap.down hfactor.down ih
  case nil => exact fun {tree} => .nil
  case assign =>
    intro target value equals right hequals _ ih
    exact .assign hequals ih
  case call =>
    intro callee tree values opening closing inside others hopening _ hclosing _ ihInside ihOthers
    rw [List.map_cons, List.map_append, List.map_cons]
    exact .call hopening ihInside hclosing ihOthers
  case none => exact fun {gap} hgap => .nil hgap.down
  case some =>
    intro gap first after others value values hgap _ hafter _ ihFirst ihOthers
    rw [List.map_append, List.map_append, List.map_append]
    exact .cons hgap.down ihFirst hafter.down ihOthers
  case last => exact .nil
  case trailing =>
    intro comma gap hcomma hgap
    exact .trailing hcomma hgap.down
  case next =>
    intro comma gap next after others value values hcomma hgap _ hafter _ ihNext ihOthers
    rw [List.map_cons, List.map_append, List.map_append, List.map_append]
    exact .cons hcomma hgap.down ihNext hafter.down ihOthers

/-- Tokens further down spell the same trees further down. -/
theorem Statements.down {tokens : List Token} {trees : List Tree} (h : Statements tokens trees) :
    Statements (tokens.map (Token.down n)) (Tree.downAll n trees) := by
  refine @Statements.rec
    (fun tokens tree _ => Statement (tokens.map (Token.down n)) (tree.down n))
    (fun tokens trees _ => Statements (tokens.map (Token.down n)) (Tree.downAll n trees))
    (fun tokens trees _ => MoreStatements (tokens.map (Token.down n)) (Tree.downAll n trees))
    ?declaration ?block ?conditional ?debugPrint ?expression ?none ?some ?last ?trailing ?next
    tokens trees h
  case declaration =>
    intro keyword name equals gap right value hkeyword hgap hname hequals hright
    rw [List.map_cons, List.map_append, List.map_cons, List.map_cons]
    exact .declaration hkeyword hgap.down hname hequals hright.down
  case block =>
    intro opening closing inside trees hopening _ hclosing ih
    rw [List.map_cons, List.map_append, List.map_singleton]
    exact .block hopening ih hclosing
  case conditional =>
    intro keyword test gap inner condition body hkeyword htest hgap _ ih
    rw [List.map_cons, List.map_append, List.map_append]
    exact .conditional hkeyword htest.down hgap.down ih
  case debugPrint =>
    intro marker inner operand hmarker hinner
    exact .debugPrint hmarker hinner.down
  case expression =>
    intro tokens tree hexpression
    exact .expression hexpression.down
  case none => exact fun {gap} hgap => .nil hgap.down
  case some =>
    intro gap first others tree trees hgap _ _ ihFirst ihOthers
    rw [List.map_append, List.map_append]
    exact .cons hgap.down ihFirst ihOthers
  case last => exact .nil
  case trailing =>
    intro separator hseparator
    exact .trailing hseparator.down
  case next =>
    intro separator next others tree trees hseparator _ _ ihNext ihOthers
    rw [List.map_append, List.map_append]
    exact .cons hseparator.down ihNext ihOthers

open Scriptlet.Parser (separator_append moreStatements_of_separator statements_newlines_append)

variable {newline : Token} {below : List Token} {others : List Tree}

/-- Statements behind a newline continue what is above them. -/
theorem MoreStatements.append {tokens : List Token} {trees : List Tree}
    (h : MoreStatements tokens trees) (hnewline : newline.kind = .newline)
    (hbelow : Statements below others) :
    MoreStatements (tokens ++ newline :: below) (trees ++ others) := by
  match h with
  | .nil =>
      have hmore := moreStatements_of_separator (.newline hnewline newlines_nil) hbelow
      exact hmore
  | .trailing hseparator =>
      have hgap : Newlines [newline] := newlines_cons.2 ⟨hnewline, newlines_nil⟩
      rw [List.append_cons]
      exact moreStatements_of_separator (separator_append hseparator hgap) hbelow
  | .cons hseparator hnext hmore =>
      have hrest := hmore.append hnewline hbelow
      rw [List.append_assoc, List.append_assoc]
      exact .cons hseparator hnext hrest

theorem Statements.append {tokens : List Token} {trees : List Tree} (h : Statements tokens trees)
    (hnewline : newline.kind = .newline) (hbelow : Statements below others) :
    Statements (tokens ++ newline :: below) (trees ++ others) := by
  cases h with
  | nil hgap =>
      rw [List.append_cons]
      refine statements_newlines_append (newlines_append.2 ⟨hgap, ?_⟩) hbelow
      exact newlines_cons.2 ⟨hnewline, newlines_nil⟩
  | cons hgap hfirst hmore =>
      rw [List.append_assoc, List.append_assoc]
      exact .cons hgap hfirst (hmore.append hnewline hbelow)

end Grammar

private theorem statements_of_parseProgram {source file : String} {trees : List Tree}
    (h : parseProgram source file = .ok trees) :
    (TokenStream.scan source file).fault = none ∧
      Grammar.Statements (TokenStream.scan source file).tokens trees := by
  have hfault := TokenStream.fault_of_program h
  have hstream : TokenStream.ofList (TokenStream.scan source file).tokens =
      TokenStream.scan source file := by
    rw [TokenStream.ofList, ← hfault]
  refine ⟨hfault, ?_⟩
  rw [← Parser.program_eq_ok_iff file, hstream]
  exact h

theorem parseProgram_newline {first second file : String} {trees others : List Tree}
    (hfirst : parseProgram first file = .ok trees)
    (hsecond : parseProgram second file = .ok others) :
    parseProgram (first ++ "\n" ++ second) file =
      .ok (trees ++ others.map (Tree.down (first.toList.count '\n' + 1))) := by
  obtain ⟨hfault, htrees⟩ := statements_of_parseProgram hfirst
  obtain ⟨hfault', hothers⟩ := statements_of_parseProgram hsecond
  obtain ⟨newline, hnewline, hscan⟩ := TokenStream.scan_newline hfault hfault'
  rw [parseProgram, hscan, Parser.program_eq_ok_iff, ← Tree.downAll_eq_map]
  exact htrees.append hnewline hothers.down

end Scriptlet
