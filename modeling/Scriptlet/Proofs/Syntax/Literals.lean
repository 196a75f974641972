import Mathlib.Data.List.Forall2
import Scriptlet.Proofs.Scanning.Partition
import Scriptlet.Proofs.Syntax.Completeness
import Scriptlet.Proofs.Syntax.Spelling
import Scriptlet.Text.Escaped
/-!
# Declarations of literals

How a name and a literal are written, and that the scanner and the parser read back a
declaration of the one with the other as its initial value.
-/

namespace Scriptlet

/-! ## Lexemes in order -/

namespace Lexeme

/-- The characters are the lexemes in order, with blanks around them; each lexeme is read with what
follows it present. -/
inductive Sequence : List Char → List Lexeme → Prop where
  | nil {chars : List Char} : chars.dropWhile Text.isBlank = [] → Sequence chars []
  | cons {chars rest left : List Char} {c : Char} {lexeme : Lexeme} {lexemes : List Lexeme} :
      chars.dropWhile Text.isBlank = c :: rest → read? c rest = some (lexeme, left) →
      Sequence left lexemes → Sequence chars (lexeme :: lexemes)

def Makes (lexeme : Lexeme) (token : Token) : Prop :=
  token.kind = lexeme.kind ∧ token.text = String.ofList lexeme.text

theorem Sequence.blank {c : Char} {chars : List Char} {lexemes : List Lexeme}
    (hc : Text.isBlank c = true) (h : Sequence chars lexemes) : Sequence (c :: chars) lexemes := by
  have hdrop : (c :: chars).dropWhile Text.isBlank = chars.dropWhile Text.isBlank :=
    List.dropWhile_cons_of_pos hc
  cases h with
  | nil hblank => exact .nil (hdrop.trans hblank)
  | cons hchars hread hrest => exact .cons (hdrop.trans hchars) hread hrest

theorem Sequence.here {c : Char} {rest left : List Char} {lexeme : Lexeme} {lexemes : List Lexeme}
    (hc : Text.isBlank c = false) (hread : read? c rest = some (lexeme, left))
    (h : Sequence left lexemes) : Sequence (c :: rest) (lexeme :: lexemes) :=
  .cons (List.dropWhile_cons_of_neg (by simp [hc])) hread h

end Lexeme

open Lexeme (Sequence Makes)

/-- A scan makes a token of each lexeme. -/
theorem Scanner.run_of_sequence {lexemes : List Lexeme} {s : Scanner}
    (h : Sequence s.rest lexemes) (file : String) :
    ∃ tokens, s.run file = ⟨tokens, none⟩ ∧ List.Forall₂ Makes lexemes tokens := by
  generalize hrest : s.rest = chars at h
  induction h generalizing s with
  | nil hblank =>
      have hstep : s.step file = .done := by
        simp [step, read, skipBlanks, hrest, hblank]
      exact ⟨[], run_of_done hstep, .nil⟩
  | @cons chars rest left c lexeme lexemes hchars hread _ ih =>
      have hstep : s.step file = .token (s.skipBlanks.place file lexeme)
          (s.skipBlanks.advance lexeme.kind lexeme.chars left) := by
        simp [step, read, skipBlanks, hrest, hchars, hread]
      obtain ⟨tokens, hrun, hmakes⟩ := ih (rest_advance _ _ _ _)
      exact ⟨_, by rw [run_of_token hstep, hrun], .cons ⟨rfl, rfl⟩ hmakes⟩

theorem TokenStream.scan_of_sequence {source : String} {lexemes : List Lexeme}
    (h : Sequence source.toList lexemes) (file : String) :
    ∃ tokens, scan source file = ⟨tokens, none⟩ ∧ List.Forall₂ Makes lexemes tokens :=
  Scanner.run_of_sequence (show Sequence (Scanner.start source).rest lexemes from h) file

theorem Scanner.sequence_of_run {file : String} {s : Scanner} {tokens : List Token}
    (h : s.run file = ⟨tokens, none⟩) :
    ∃ lexemes, Sequence s.rest lexemes ∧ List.Forall₂ Makes lexemes tokens := by
  induction tokens generalizing s with
  | nil =>
      rcases s.step_cases file with ⟨hblank, -⟩ | ⟨c, rest, -, hstep⟩ |
        ⟨c, rest, lexeme, left, -, -, hstep⟩
      · exact ⟨[], .nil hblank, .nil⟩
      · rw [run_of_stuck hstep] at h
        cases h
      · rw [run_of_token hstep] at h
        cases h
  | cons token tokens ih =>
      rcases s.step_cases file with ⟨-, hstep⟩ | ⟨c, rest, -, hstep⟩ |
        ⟨c, rest, lexeme, left, hchars, hread, hstep⟩
      · rw [run_of_done hstep] at h
        cases h
      · rw [run_of_stuck hstep] at h
        cases h
      · rw [run_of_token hstep] at h
        simp only [TokenStream.mk.injEq, List.cons.injEq] at h
        obtain ⟨⟨rfl, htokens⟩, hfault⟩ := h
        have hrun : (s.skipBlanks.advance lexeme.kind lexeme.chars left).run file =
            ⟨tokens, none⟩ := by
          rw [← htokens, ← hfault]
        obtain ⟨lexemes, hsequence, hmakes⟩ := ih hrun
        rw [rest_advance] at hsequence
        exact ⟨lexeme :: lexemes, .cons hchars hread hsequence, .cons ⟨rfl, rfl⟩ hmakes⟩

/-! ## Names -/

def IsName (name : String) : Prop :=
  ∃ file token, TokenStream.scan name file = ⟨[token], none⟩ ∧ token.kind = .name ∧
    token.text = name

theorem span_append {p : Char → Bool} {run more : List Char} (hrun : ∀ c ∈ run, p c = true)
    (hmore : ∀ c ∈ more.head?, p c = false) :
    (run ++ more).takeWhile p = run ∧ (run ++ more).dropWhile p = more := by
  rw [List.takeWhile_append_of_pos hrun, List.dropWhile_append_of_pos hrun]
  cases more with
  | nil => simp
  | cons c more => simp [hmore c rfl]

namespace Lexeme

theorem read?_word {c : Char} {word more : List Char} (hc : Text.isNameStart c = true)
    (hword : ∀ d ∈ word, Text.isWord d = true) (hmore : ∀ d ∈ more.head?, Text.isWord d = false) :
    read? c (word ++ more) =
      some (⟨(keyword? (c :: word)).getD .name, c :: word, c :: word⟩, more) := by
  obtain ⟨htake, hdrop⟩ := span_append hword hmore
  rw [read?, if_pos hc, htake, hdrop]

theorem read?_digits {c : Char} {digits more : List Char} (hc : c.isDigit = true)
    (hdigits : ∀ d ∈ digits, d.isDigit = true) (hmore : ∀ d ∈ more.head?, d.isDigit = false) :
    read? c (digits ++ more) = some (⟨.number, c :: digits, c :: digits⟩, more) := by
  obtain ⟨htake, hdrop⟩ := span_append hdigits hmore
  have hstart : Text.isNameStart c = false := by
    simp [Text.isNameStart, Text.isDecimalDigit, Numeral.decimalValue?_of_isDigit hc]
  rw [read?, if_neg (by simp [hstart]), if_pos hc, htake, hdrop]

end Lexeme

theorem IsName.exists_chars {name : String} (h : IsName name) :
    ∃ c word, name.toList = c :: word ∧ Text.isNameStart c = true ∧
      (∀ d ∈ word, Text.isWord d = true) ∧
      (Lexeme.keyword? (c :: word)).getD .name = .name := by
  obtain ⟨file, token, hscan, hkind, htext⟩ := h
  obtain ⟨lexemes, hsequence, hmakes⟩ := Scanner.sequence_of_run hscan
  obtain ⟨lexeme, _, ⟨hlexeme, hspelled⟩, -, rfl⟩ := List.forall₂_cons_right_iff.1 hmakes
  cases hsequence with
  | @cons _ rest left c _ _ _ hread _ =>
      obtain ⟨hstart, hword, hkeyword⟩ := Lexeme.read?_name hread (hlexeme.symm.trans hkind)
      have hchars : name.toList = lexeme.text := by
        rw [← htext, hspelled, String.toList_ofList]
      rw [hword] at hchars hkeyword
      exact ⟨c, _, hchars, hstart, List.all_eq_true.1 List.all_takeWhile, hkeyword⟩

/-- A name is one lexeme, whatever follows that cannot be part of it. -/
theorem IsName.sequence {name : String} (h : IsName name) {more : List Char}
    {lexemes : List Lexeme} (hmore : ∀ d ∈ more.head?, Text.isWord d = false)
    (hlexemes : Sequence more lexemes) :
    Sequence (name.toList ++ more) (⟨.name, name.toList, name.toList⟩ :: lexemes) := by
  obtain ⟨c, word, hchars, hstart, hword, hkeyword⟩ := h.exists_chars
  have hread : Lexeme.read? c (word ++ more) = some (⟨.name, c :: word, c :: word⟩, more) := by
    rw [Lexeme.read?_word hstart hword hmore, hkeyword]
  rw [hchars]
  exact .here (Text.not_isBlank_of_isWord (Text.isWord_of_isNameStart hstart)) hread hlexemes

/-! ## Literals -/

/-- How values are written as literals: integers in decimal, perhaps with zeros in front but never
with too many digits, truth values by their words, and texts between double quotes, with the
backslash, the double quote and the newline escaped. -/
inductive Primitive.WrittenAs : Primitive → String → Prop where
  | integer {zeros n : Nat} : zeros + (Nat.toDigits 10 n).length ≤ Numeral.digitLimit →
      WrittenAs (.integer n) (String.ofList (List.replicate zeros '0' ++ Nat.toDigits 10 n))
  | truth (b : Bool) : WrittenAs (.truth b) (if b then "true" else "false")
  | text (s : String) : WrittenAs (.text s) (Text.lineLiteral s)

namespace Numeral

private theorem ofDigits_eq_ofDigitChars (chars : List Char) :
    ofDigits (chars.map fun c => c.toNat - 0x30) = Nat.ofDigitChars 10 chars 0 := by
  rw [ofDigits, List.foldl_map]
  rfl

private theorem ofDigits_zeros (zeros n : Nat) :
    ofDigits ((List.replicate zeros '0' ++ Nat.toDigits 10 n).map fun c => c.toNat - 0x30) = n := by
  have hzeros : ∀ zeros, Nat.ofDigitChars 10 (List.replicate zeros '0') 0 = 0 := by
    intro zeros
    induction zeros with
    | zero => rfl
    | succ zeros ih => exact Nat.ofDigitChars_cons.trans ih
  rw [ofDigits_eq_ofDigitChars, Nat.ofDigitChars_append, hzeros, Nat.ofDigitChars_ten_toDigits]

private theorem digits_written (zeros n : Nat) :
    List.replicate zeros '0' ++ Nat.toDigits 10 n ≠ [] ∧
      ∀ c ∈ List.replicate zeros '0' ++ Nat.toDigits 10 n, c.isDigit = true := by
  refine ⟨List.append_ne_nil_of_right_ne_nil _
    (List.ne_nil_of_length_pos Nat.length_toDigits_pos), ?_⟩
  rw [List.forall_mem_append]
  refine ⟨fun c hc => ?_, fun c hc => Nat.isDigit_of_mem_toDigits (by decide) (by decide) hc⟩
  rw [(List.mem_replicate.1 hc).2]
  rfl

end Numeral

theorem Lexeme.Sequence.digits {chars : List Char} (hne : chars ≠ [])
    (hdigits : ∀ c ∈ chars, c.isDigit = true) : Sequence chars [⟨.number, chars, chars⟩] := by
  obtain ⟨c, digits, rfl⟩ := List.exists_cons_of_ne_nil hne
  rw [List.forall_mem_cons] at hdigits
  have hread : read? c (digits ++ []) = some (⟨.number, c :: digits, c :: digits⟩, []) :=
    read?_digits hdigits.1 hdigits.2 (by simp)
  rw [List.append_nil] at hread
  exact .here (Text.not_isBlank_of_isWord (Text.isWord_of_isDigit hdigits.1)) hread (.nil rfl)

theorem Lexeme.textBody?_escaped (text more : List Char) :
    textBody? (text.flatMap Text.escapedLineChar ++ '"' :: more) =
      some (text, text.flatMap Text.escapedLineChar ++ ['"'], more) := by
  induction text with
  | nil => rfl
  | cons c text ih =>
      rw [List.flatMap_cons, List.append_assoc, Text.escapedLineChar, Text.escapedChar]
      by_cases hnewline : c = '\n'
      · subst hnewline
        simp [textBody?, unescape, ih]
      · by_cases hescaped : c = '\\' ∨ c = '"'
        · rw [if_neg hnewline, if_pos hescaped]
          rcases hescaped with rfl | rfl
          · simp [textBody?, unescape, ih]
          · simp [textBody?, unescape, ih]
        · rw [not_or] at hescaped
          rw [if_neg hnewline, if_neg (not_or.2 hescaped)]
          simp [textBody?, hnewline, hescaped, ih]

theorem Lexeme.read?_quoted (text more : List Char) :
    read? '"' (text.flatMap Text.escapedLineChar ++ '"' :: more) =
      some (⟨.text, text, '"' :: (text.flatMap Text.escapedLineChar ++ ['"'])⟩, more) := by
  rw [read?_openingQuote, textBody?_escaped, Option.map_some]

theorem Lexeme.Sequence.lineLiteral (text : String) : Sequence (Text.lineLiteral text).toList
    [⟨.text, text.toList, '"' :: (text.toList.flatMap Text.escapedLineChar ++ ['"'])⟩] := by
  rw [Text.lineLiteral, String.toList_ofList]
  exact .here (by decide) (read?_quoted text.toList []) (.nil rfl)

structure Token.Denotes (token : Token) (value : Primitive) : Prop where
  kind : Parser.literalKind? token.kind = some value.kind
  read : Session.literalValue token value.kind = .ok value
  size : ¬ token.IsOversized value.kind

theorem Token.denotes_integer {token : Token} {zeros n : Nat}
    (hsize : zeros + (Nat.toDigits 10 n).length ≤ Numeral.digitLimit) (hkind : token.kind = .number)
    (htext : token.text.toList = List.replicate zeros '0' ++ Nat.toDigits 10 n) :
    token.Denotes (.integer n) := by
  obtain ⟨hne, hdigits⟩ := Numeral.digits_written zeros n
  have hlength : token.text.toList.length ≤ Numeral.digitLimit := by
    rw [htext, List.length_append, List.length_replicate]
    exact hsize
  rw [← htext] at hne hdigits
  have hread : Numeral.read token.text = .ok n := by
    rw [Numeral.read_of_digits hne hdigits, if_neg (Nat.not_lt.2 hlength), htext,
      Numeral.ofDigits_zeros]
  refine ⟨by rw [hkind]; rfl, ?_, fun hbig => Nat.not_lt.2 hlength hbig.2⟩
  rw [Primitive.kind, Session.literalValue, hread]

theorem Token.denotes_truth {token : Token} {b : Bool} (hkind : token.kind = .truth)
    (htext : token.text = if b then "true" else "false") : token.Denotes (.truth b) := by
  refine ⟨by rw [hkind]; rfl, ?_, fun hbig => nomatch hbig.1⟩
  rw [Primitive.kind, Session.literalValue, htext]
  cases b <;> rfl

theorem Token.denotes_text {token : Token} (hkind : token.kind = .text) :
    token.Denotes (.text token.text) :=
  ⟨by rw [hkind]; rfl, rfl, fun hbig => nomatch hbig.1⟩

/-- A literal is one lexeme, and its token denotes the value that was written. -/
theorem Primitive.WrittenAs.sequence {value : Primitive} {literal : String}
    (h : value.WrittenAs literal) :
    ∃ lexeme, Sequence literal.toList [lexeme] ∧
      ∀ token, Makes lexeme token → token.Denotes value := by
  cases h with
  | @integer zeros n hsize =>
      obtain ⟨hne, hdigits⟩ := Numeral.digits_written zeros n
      rw [String.toList_ofList]
      refine ⟨_, .digits hne hdigits, ?_⟩
      rintro token ⟨hkind, htext⟩
      exact Token.denotes_integer hsize hkind (by rw [htext, String.toList_ofList])
  | truth b =>
      have hword : ∀ b : Bool, Sequence (if b then "true" else "false").toList
          [⟨.truth, (if b then "true" else "false").toList,
            (if b then "true" else "false").toList⟩] := by
        intro b
        cases b with
        | true => exact .here (by decide) rfl (.nil rfl)
        | false => exact .here (by decide) rfl (.nil rfl)
      refine ⟨_, hword b, ?_⟩
      rintro token ⟨hkind, htext⟩
      rw [String.ofList_toList] at htext
      exact Token.denotes_truth hkind htext
  | text s =>
      refine ⟨_, .lineLiteral s, ?_⟩
      rintro token ⟨hkind, htext⟩
      rw [String.ofList_toList] at htext
      rw [← htext]
      exact Token.denotes_text hkind

/-! ## Declarations -/

theorem parseProgram_of_sequence {source : String} {lexemes : List Lexeme}
    (h : Sequence source.toList lexemes) (file : String) :
    ∃ tokens, List.Forall₂ Makes lexemes tokens ∧
      ∀ trees, Grammar.Statements tokens trees → parseProgram source file = .ok trees := by
  obtain ⟨tokens, hscan, hmakes⟩ := TokenStream.scan_of_sequence h file
  refine ⟨tokens, hmakes, fun trees htrees => ?_⟩
  rw [parseProgram, hscan]
  exact Parser.program_complete file htrees

theorem parseProgram_name {name : String} (h : IsName name) (file : String) :
    ∃ token, parseProgram name file = .ok [.reference token] ∧ token.text = name := by
  have hsequence := h.sequence (by simp) (.nil rfl : Sequence [] [])
  rw [List.append_nil] at hsequence
  obtain ⟨tokens, hmakes, hparse⟩ := parseProgram_of_sequence hsequence file
  obtain ⟨token, _, ⟨hkind, htext⟩, hnil, rfl⟩ := List.forall₂_cons_left_iff.1 hmakes
  obtain rfl := List.forall₂_nil_left_iff.1 hnil
  have hgrammar : Grammar.Statements ([] ++ ([] ++ token :: [] ++ [])) [.reference token] :=
    .cons Grammar.newlines_nil (.expression (.intro Grammar.newlines_nil (.name hkind) .nil)) .nil
  exact ⟨token, hparse _ hgrammar, by rw [htext, String.ofList_toList]⟩

theorem parseProgram_numeral {digits : String} (hne : digits.toList ≠ [])
    (hdigits : ∀ c ∈ digits.toList, c.isDigit = true) (file : String) :
    ∃ token, parseProgram digits file = .ok [.literal token .integer] ∧ token.text = digits := by
  obtain ⟨tokens, hmakes, hparse⟩ := parseProgram_of_sequence (.digits hne hdigits) file
  obtain ⟨token, _, ⟨hkind, htext⟩, hnil, rfl⟩ := List.forall₂_cons_left_iff.1 hmakes
  obtain rfl := List.forall₂_nil_left_iff.1 hnil
  have hgrammar : Grammar.Statements ([] ++ ([] ++ token :: [] ++ [])) [.literal token .integer] :=
    .cons Grammar.newlines_nil (.expression (.intro Grammar.newlines_nil (.number hkind) .nil)) .nil
  exact ⟨token, hparse _ hgrammar, by rw [htext, String.ofList_toList]⟩

theorem Token.Denotes.factor {token : Token} {value : Primitive} (h : token.Denotes value) :
    Grammar.Factor token (.literal token value.kind) := by
  have hkind := h.kind
  unfold Parser.literalKind? at hkind
  split at hkind
  · next hnumber =>
    rw [← Option.some.inj hkind]
    exact .number hnumber
  · next htruth =>
    rw [← Option.some.inj hkind]
    exact .truth htruth
  · next htext =>
    rw [← Option.some.inj hkind]
    exact .text htext
  · cases hkind

theorem parseProgram_declaration {name literal : String} {value : Primitive} (hname : IsName name)
    (hliteral : value.WrittenAs literal) (file : String) :
    ∃ token initializer, parseProgram ("var " ++ name ++ " = " ++ literal) file =
        .ok [.declare token (.literal initializer value.kind)] ∧
      token.text = name ∧ initializer.Denotes value := by
  obtain ⟨lexeme, hlexeme, hdenotes⟩ := hliteral.sequence
  have hequals : Lexeme.read? '=' (' ' :: literal.toList) =
      some (⟨.assign, ['='], ['=']⟩, ' ' :: literal.toList) := by
    have hstart : Text.isNameStart '=' = false := by decide
    have hdigit : '='.isDigit = false := by decide
    simp [Lexeme.read?, hstart, hdigit, Lexeme.punctuation?]
  have hvalue : Sequence (' ' :: '=' :: ' ' :: literal.toList) [⟨.assign, ['='], ['=']⟩, lexeme] :=
    .blank (by decide) (.here (by decide) hequals (.blank (by decide) hlexeme))
  have hblank : ∀ rest : List Char, ∀ d ∈ (' ' :: rest).head?, Text.isWord d = false := by
    rintro rest d ⟨⟩
    decide
  have hrest := hname.sequence (hblank _) hvalue
  have hword : ∀ d ∈ ['a', 'r'], Text.isWord d = true := by
    rw [List.forall_mem_cons, List.forall_mem_singleton]
    decide
  have hvar : ∀ rest, Lexeme.read? 'v' (['a', 'r'] ++ ' ' :: rest) =
      some (⟨.var, ['v', 'a', 'r'], ['v', 'a', 'r']⟩, ' ' :: rest) :=
    fun rest => Lexeme.read?_word (by decide) hword (hblank rest)
  have hsource : ("var " ++ name ++ " = " ++ literal).toList =
      'v' :: (['a', 'r'] ++ ' ' :: (name.toList ++ ' ' :: '=' :: ' ' :: literal.toList)) := by
    simp
  have hsequence : Sequence ("var " ++ name ++ " = " ++ literal).toList
      [⟨.var, ['v', 'a', 'r'], ['v', 'a', 'r']⟩, ⟨.name, name.toList, name.toList⟩,
        ⟨.assign, ['='], ['=']⟩, lexeme] := by
    rw [hsource]
    exact .here (by decide) (hvar _) (.blank (by decide) hrest)
  obtain ⟨tokens, hmakes, hparse⟩ := parseProgram_of_sequence hsequence file
  simp only [List.forall₂_cons_left_iff, List.forall₂_nil_left_iff] at hmakes
  obtain ⟨keyword, _, ⟨hkeyword, -⟩, ⟨token, _, ⟨hkind, htext⟩, ⟨equals, _, ⟨hassign, -⟩,
    ⟨initializer, _, hinitializer, rfl, rfl⟩, rfl⟩, rfl⟩, rfl⟩ := hmakes
  have hdenoted := hdenotes initializer hinitializer
  refine ⟨token, initializer, hparse _ ?_, by rw [htext, String.ofList_toList], hdenoted⟩
  have hgrammar : Grammar.Statements
      ([] ++ ((keyword :: ([] ++ token :: equals :: ([] ++ initializer :: []))) ++ []))
      [.declare token (.literal initializer value.kind)] :=
    .cons Grammar.newlines_nil (.declaration hkeyword Grammar.newlines_nil hkind hassign
      (.intro Grammar.newlines_nil hdenoted.factor .nil)) .nil
  exact hgrammar

end Scriptlet
