import Scriptlet.Proofs.Syntax.Building
import Scriptlet.Proofs.Syntax.Soundness
import Scriptlet.Session.Execute
/-!
# Trees that come from a source

The scanner spells literals in a fixed way and the parser puts expressions and
statements in their places, so the trees of a source have a narrower shape than
trees in general.  A name that the scanner reads as one word never looks like a
function type, and a spelled literal has a value unless it is an integer of too
many digits.
-/

namespace Scriptlet

/-- The token is a literal of the given sort as the scanner spells it. -/
def Token.Spells (token : Token) : Primitive.Kind → Prop
  | .integer => token.text.toList ≠ [] ∧ ∀ c ∈ token.text.toList, c.isDigit = true
  | .decimal => False
  | .text => True
  | .truth => token.text = "true" ∨ token.text = "false"

def Token.IsSpelled (token : Token) : Prop :=
  (token.kind = .number → token.Spells .integer) ∧ (token.kind = .truth → token.Spells .truth)

/-- The token has the kind and the text of a lexeme that can be read. -/
def Token.IsScanned (token : Token) : Prop :=
  ∃ c rest lexeme left, Lexeme.read? c rest = some (lexeme, left) ∧ token.kind = lexeme.kind ∧
    token.text = String.ofList lexeme.text

/-- The scanner reads the text as one name and nothing else. -/
def ReadsAsName (name : String) : Prop :=
  ∃ file token, TokenStream.scan name file = ⟨[token], none⟩ ∧ token.kind = .name

inductive Tree.IsExpression : Tree → Prop where
  | literal {token : Token} {kind : Primitive.Kind} :
      token.Spells kind → IsExpression (.literal token kind)
  | reference {name : Token} : IsExpression (.reference name)
  | assign {target value : Tree} {token : Token} :
      IsExpression target → IsExpression value → IsExpression (.assign target value token)
  | call {callee : Tree} {arguments : List Tree} {token : Token} :
      IsExpression callee → (∀ argument ∈ arguments, IsExpression argument) →
      IsExpression (.call callee arguments token)

inductive Tree.IsStatement : Tree → Prop where
  | expression {tree : Tree} : tree.IsExpression → IsStatement tree
  | declare {name : Token} {initializer : Tree} :
      initializer.IsExpression → IsStatement (.declare name initializer)
  | block {statements : List Tree} {token : Option Token} :
      (∀ statement ∈ statements, IsStatement statement) → IsStatement (.block statements token)
  | conditional {condition body : Tree} {token : Token} :
      condition.IsExpression → IsStatement body → IsStatement (.conditional condition body token)
  | debugPrint {operand : Tree} {token : Token} :
      operand.IsExpression → IsStatement (.debugPrint operand token)

/-! ## What the scanner reads -/

namespace Lexeme

private theorem keyword?_eq_truth {word : List Char} (h : keyword? word = some .truth) :
    String.ofList word = "true" ∨ String.ofList word = "false" := by
  unfold keyword? at h
  split at h
  · simp at h
  · exact .inl ‹_›
  · exact .inr ‹_›
  · simp at h
  · simp at h

private theorem punctuation?_ne {c : Char} {kind : Token.Kind} (h : punctuation? c = some kind) :
    kind ≠ .number ∧ kind ≠ .truth := by
  unfold punctuation? at h
  split at h <;> simp at h <;> subst h <;> decide

private theorem punctuation?_ne_name {c : Char} {kind : Token.Kind}
    (h : punctuation? c = some kind) :
    kind ≠ .name := by
  unfold punctuation? at h
  split at h <;> simp at h <;> subst h <;> decide

private theorem keyword?_ne_number (word : List Char) : (keyword? word).getD .name ≠ .number := by
  unfold keyword?
  split <;> simp

theorem read?_name {c : Char} {rest left : List Char} {lexeme : Lexeme}
    (h : read? c rest = some (lexeme, left)) (hkind : lexeme.kind = .name) :
    Text.isNameStart c = true ∧ lexeme.text = c :: rest.takeWhile Text.isWord ∧
      (keyword? lexeme.text).getD .name = .name := by
  unfold read? at h
  split at h
  · next hstart =>
    simp only [Option.some.injEq, Prod.mk.injEq] at h
    obtain ⟨rfl, -⟩ := h
    exact ⟨hstart, rfl, hkind⟩
  · split at h
    · simp only [Option.some.injEq, Prod.mk.injEq] at h
      obtain ⟨rfl, -⟩ := h
      cases hkind
    · split at h
      · obtain ⟨⟨text, body, left'⟩, -, heq⟩ := Option.map_eq_some_iff.1 h
        simp only [Prod.mk.injEq] at heq
        obtain ⟨rfl, -⟩ := heq
        cases hkind
      · obtain ⟨kind, hpunctuation, heq⟩ := Option.map_eq_some_iff.1 h
        simp only [Prod.mk.injEq] at heq
        obtain ⟨rfl, -⟩ := heq
        exact absurd hkind (punctuation?_ne_name hpunctuation)

private theorem read?_isSpelled {c : Char} {rest left : List Char} {lexeme : Lexeme}
    (h : read? c rest = some (lexeme, left)) {token : Token} (hkind : token.kind = lexeme.kind)
    (htext : token.text = String.ofList lexeme.text) : token.IsSpelled := by
  unfold read? at h
  split at h
  · simp only [Option.some.injEq, Prod.mk.injEq] at h
    obtain ⟨rfl, -⟩ := h
    refine ⟨fun hnumber => ?_, fun htruth => ?_⟩
    · exact absurd (hkind.symm.trans hnumber) (keyword?_ne_number _)
    · rw [hkind] at htruth
      have hkeyword : keyword? (c :: rest.takeWhile Text.isWord) = some .truth := by
        cases hk : keyword? (c :: rest.takeWhile Text.isWord) with
        | none => simp [hk] at htruth
        | some kind => simpa [hk] using htruth
      unfold Token.Spells
      rw [htext]
      exact keyword?_eq_truth hkeyword
  · split at h
    · next hdigit =>
      simp only [Option.some.injEq, Prod.mk.injEq] at h
      obtain ⟨rfl, -⟩ := h
      refine ⟨fun _ => ?_, fun htruth => ?_⟩
      · rw [Token.Spells, htext, String.toList_ofList]
        refine ⟨List.cons_ne_nil _ _, ?_⟩
        rintro d hd
        rcases List.mem_cons.1 hd with rfl | hd
        · exact hdigit
        · exact List.all_eq_true.1 List.all_takeWhile d hd
      · rw [hkind] at htruth
        exact absurd htruth (by simp)
    · split at h
      · obtain ⟨⟨text, chars, rest'⟩, -, he⟩ := Option.map_eq_some_iff.1 h
        simp only [Prod.mk.injEq] at he
        obtain ⟨rfl, -⟩ := he
        exact ⟨fun h => by simp [hkind] at h, fun h => by simp [hkind] at h⟩
      · obtain ⟨kind, hkind', he⟩ := Option.map_eq_some_iff.1 h
        simp only [Prod.mk.injEq] at he
        obtain ⟨rfl, -⟩ := he
        have hne := punctuation?_ne hkind'
        exact ⟨fun h => absurd (hkind.symm.trans h) hne.1,
          fun h => absurd (hkind.symm.trans h) hne.2⟩

end Lexeme

/-- Every token of a scan is a lexeme that was read. -/
theorem Scanner.run_isScanned (file : String) (s : Scanner) :
    ∀ token ∈ (s.run file).tokens, token.IsScanned := by
  induction hlength : s.rest.length using Nat.strongRecOn generalizing s with
  | _ n ih =>
      unfold Scanner.run
      split
      · simp
      · simp
      · next token next hstep =>
        intro other hother
        rcases List.mem_cons.1 hother with rfl | hother
        · unfold Scanner.step Scanner.read at hstep
          split at hstep
          · simp at hstep
          · split at hstep
            · simp at hstep
            · next hread =>
              simp only [Step.token.injEq] at hstep
              obtain ⟨rfl, -⟩ := hstep
              exact ⟨_, _, _, _, hread, rfl, rfl⟩
        · exact ih next.rest.length (hlength ▸ Scanner.length_step hstep) next rfl other hother

theorem Token.IsScanned.isSpelled {token : Token} (h : token.IsScanned) : token.IsSpelled := by
  obtain ⟨c, rest, lexeme, left, hread, hkind, htext⟩ := h
  exact Lexeme.read?_isSpelled hread hkind htext

theorem Scanner.run_isSpelled (file : String) (s : Scanner) :
    ∀ token ∈ (s.run file).tokens, token.IsSpelled :=
  fun token htoken => (run_isScanned file s token htoken).isSpelled

theorem ReadsAsName.head_ne {name : String} (h : ReadsAsName name) :
    name.toList.head? ≠ some '<' := by
  obtain ⟨file, token, hscan, -⟩ := h
  intro hhead
  obtain ⟨rest, hrest⟩ := List.head?_eq_some_iff.1 hhead
  have hstep : (Scanner.start name).step file = .stuck ((Scanner.start name).stuck file '<') := by
    have hblank : Text.isBlank '<' = false := by decide
    have hread : Lexeme.read? '<' rest = none := by
      have hstart : Text.isNameStart '<' = false := by decide
      simp [Lexeme.read?, hstart, Lexeme.punctuation?]
    simp [Scanner.step, Scanner.read, Scanner.skipBlanks, Scanner.start, hrest, hblank, hread]
  unfold TokenStream.scan Scanner.run at hscan
  split at hscan <;> simp_all

/-! ## What the parser builds -/

theorem Tree.TermOver.isExpression {tree : Tree} (h : tree.TermOver Token.IsSpelled) :
    tree.IsExpression := by
  induction h with
  | factor htoken hfactor =>
      cases hfactor with
      | number hkind => exact .literal (htoken.1 hkind)
      | truth hkind => exact .literal (htoken.2 hkind)
      | text => exact .literal trivial
      | name => exact .reference
  | assign _ _ _ _ ihTarget ihValue => exact .assign ihTarget ihValue
  | call _ _ _ _ ihCallee ihArguments => exact .call ihCallee ihArguments

theorem Tree.StatementOver.isStatement {tree : Tree} (h : tree.StatementOver Token.IsSpelled) :
    tree.IsStatement := by
  induction h with
  | term h => exact .expression h.isExpression
  | declare _ _ h => exact .declare h.isExpression
  | block _ _ _ ih => exact .block ih
  | conditional _ _ hcondition _ ih => exact .conditional hcondition.isExpression ih
  | debugPrint _ _ h => exact .debugPrint h.isExpression

theorem TokenStream.fault_of_program {stream : TokenStream} {file : String} {trees : List Tree}
    (h : stream.program file = .ok trees) : stream.fault = none :=
  (program_ok_iff.1 h).1

/-- The trees of a program are the statements that its tokens spell. -/
theorem TokenStream.program_reads {stream : TokenStream} {file : String} {trees : List Tree}
    (h : stream.program file = .ok trees) : Grammar.Statements stream.tokens trees := by
  have hfault := fault_of_program h
  have hreads := Parser.program_reads file stream.tokens
  have hstream : ofList stream.tokens = stream := by
    rw [ofList, ← hfault]
  rw [hstream, h] at hreads
  exact hreads

theorem parseProgram_isStatement {source file : String} {trees : List Tree}
    (h : parseProgram source file = .ok trees) : ∀ tree ∈ trees, tree.IsStatement :=
  fun tree htree => ((TokenStream.program_reads h).statementOver
    (Scanner.run_isSpelled file _) tree htree).isStatement

/-! ## What literals denote -/

namespace Numeral

theorem toNat_of_isDigit {c : Char} (h : c.isDigit = true) : 0x30 ≤ c.toNat ∧ c.toNat ≤ 0x39 := by
  simp only [Char.isDigit, Bool.and_eq_true, decide_eq_true_eq] at h
  exact ⟨UInt32.le_iff_toNat_le.1 h.1, UInt32.le_iff_toNat_le.1 h.2⟩

theorem decimalValue?_of_isDigit {c : Char} (h : c.isDigit = true) :
    Text.decimalValue? c = some (c.toNat - 0x30) := by
  have hbound := (toNat_of_isDigit h).2
  rw [Text.decimalValue?, if_pos (by omega), if_pos h]

private theorem digitGroup_of_digits {chars : List Char} (h : ∀ c ∈ chars, c.isDigit = true) :
    digitGroup chars = (chars.map fun c => c.toNat - 0x30, []) := by
  fun_induction digitGroup chars with
  | case1 => rfl
  | case2 c next tail => exact absurd (h '_' (by simp)) (by decide)
  | case3 c next tail => exact absurd (h '_' (by simp)) (by decide)
  | case4 c next tail => exact absurd (h '_' (by simp)) (by decide)
  | case5 c rest _ hvalue =>
      rw [decimalValue?_of_isDigit (h c List.mem_cons_self)] at hvalue
      simp at hvalue
  | case6 c rest _ value hvalue values left hrest ih =>
      rw [decimalValue?_of_isDigit (h c List.mem_cons_self), Option.some.injEq] at hvalue
      have htail := ih fun d hd => h d (List.mem_cons_of_mem _ hd)
      rw [hrest, Prod.mk.injEq] at htail
      rw [← hvalue, htail.1, htail.2, List.map_cons]

private theorem not_isNumeralSpace_of_isDigit {c : Char} (h : c.isDigit = true) :
    Text.isNumeralSpace c = false := by
  obtain ⟨hlow, hhigh⟩ := toNat_of_isDigit h
  have hne : ∀ d : Char, d.toNat < 0x30 → (c == d) = false := by
    intro d hd
    rw [beq_eq_false_iff_ne]
    rintro rfl
    omega
  have hctrl : (decide (0x0B ≤ c.toNat) && decide (c.toNat ≤ 0x0D)) = false := by
    rw [decide_eq_false (by omega : ¬ c.toNat ≤ 0x0D), Bool.and_false]
  rw [Text.isNumeralSpace, Text.isBlank, if_pos (by omega), hne ' ' (by decide),
    hne '\t' (by decide), hne '\n' (by decide), hctrl]
  rfl

/-- Digits are read as an integer unless there are too many. -/
theorem read_of_digits {text : String} (hne : text.toList ≠ [])
    (h : ∀ c ∈ text.toList, c.isDigit = true) :
    read text =
      if digitLimit < text.toList.length then .error (.tooManyDigits text.toList.length)
      else .ok (ofDigits (text.toList.map fun c => c.toNat - 0x30)) := by
  obtain ⟨c, rest, hchars⟩ := List.exists_cons_of_ne_nil hne
  have hc := h c (by rw [hchars]; exact List.mem_cons_self)
  have hdrop : text.toList.dropWhile Text.isNumeralSpace = text.toList := by
    rw [hchars, List.dropWhile_cons, not_isNumeralSpace_of_isDigit hc]
    rfl
  have hsign : sign text.toList = (false, text.toList) := by
    rw [hchars]
    unfold sign
    split
    · next heq =>
      obtain ⟨rfl, -⟩ := List.cons.inj heq
      exact absurd hc (by decide)
    · next heq =>
      obtain ⟨rfl, -⟩ := List.cons.inj heq
      exact absurd hc (by decide)
    · rfl
  rw [read, hdrop, hsign]
  simp only [digitGroup_of_digits h]
  split
  · simp_all
  · simp_all

end Numeral

/-- The token is an integer literal with more digits than can be read. -/
def Token.IsOversized (token : Token) (kind : Primitive.Kind) : Prop :=
  kind = .integer ∧ Numeral.digitLimit < token.text.toList.length

def malformedLiteral (token : Token) (kind : Primitive.Kind) : Diagnostic :=
  Diagnostic.of (.internal ("malformed " ++ kind.label ++ " literal " ++ Text.quoted token.text))
    token.span

theorem literalValue_of_oversized {token : Token} {kind : Primitive.Kind} (h : token.Spells kind)
    (hsize : token.IsOversized kind) :
    Session.literalValue token kind = .error (malformedLiteral token kind) := by
  obtain ⟨rfl, hlength⟩ := hsize
  rw [Session.literalValue, Numeral.read_of_digits h.1 h.2, if_pos hlength]
  rfl

theorem literalValue_of_spells {token : Token} {kind : Primitive.Kind} (h : token.Spells kind)
    (hsize : ¬ token.IsOversized kind) :
    ∃ value, Session.literalValue token kind = .ok value ∧ value.kind = kind := by
  cases kind with
  | integer =>
      have hlength : ¬ Numeral.digitLimit < token.text.toList.length := fun hlt => hsize ⟨rfl, hlt⟩
      rw [Session.literalValue, Numeral.read_of_digits h.1 h.2, if_neg hlength]
      exact ⟨_, rfl, rfl⟩
  | decimal => exact h.elim
  | text => exact ⟨_, rfl, rfl⟩
  | truth =>
      rcases h with htext | htext
      · exact ⟨.truth true, by simp [Session.literalValue, htext], rfl⟩
      · exact ⟨.truth false, by simp [Session.literalValue, htext], rfl⟩

end Scriptlet
