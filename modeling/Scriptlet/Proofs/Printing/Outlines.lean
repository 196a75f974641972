import Scriptlet.Proofs.Printing.Reading
import Scriptlet.Proofs.Sessions.Readability
/-!
# Outlines of trees

What the dump of a tree shows can be told from the tree itself.  All atoms of the dump of a
statement are legible: names are words, numbers are digits, and texts stand between quotes.
-/

namespace Scriptlet

/-! ## Tokens of the scanner -/

theorem Token.IsScanned.name {token : Token} (h : token.IsScanned) (hname : token.kind = .name) :
    token.text.toList ≠ [] ∧ ∀ c ∈ token.text.toList, Text.isWord c = true := by
  obtain ⟨c, rest, lexeme, left, hread, hkind, htext⟩ := h
  obtain ⟨hstart, hword, -⟩ := Lexeme.read?_name hread (hkind.symm.trans hname)
  rw [htext, String.toList_ofList, hword]
  refine ⟨List.cons_ne_nil _ _, ?_⟩
  rw [List.forall_mem_cons]
  exact ⟨Text.isWord_of_isNameStart hstart, List.all_eq_true.1 List.all_takeWhile⟩

theorem Lexeme.punctuation?_label {c : Char} {kind : Token.Kind} (h : punctuation? c = some kind)
    (hline : kind ≠ .newline) : kind.label = "'" ++ String.ofList [c] ++ "'" := by
  unfold punctuation? at h
  split at h <;> simp only [Option.some.injEq, reduceCtorEq] at h <;> subst h
  · exact absurd rfl hline
  all_goals decide

theorem Lexeme.keyword?_label {word : List Char}
    (hopen : ((keyword? word).getD .name).isOpen = false) :
    ((keyword? word).getD .name).label = "'" ++ String.ofList word ++ "'" := by
  unfold keyword? at hopen ⊢
  split at hopen
  · next hword => rw [hword]; rfl
  · cases hopen
  · cases hopen
  · next hword => rw [hword]; rfl
  · cases hopen

theorem Token.IsScanned.label {token : Token} (h : token.IsScanned)
    (hopen : token.kind.isOpen = false) (hline : token.kind ≠ .newline) :
    token.kind.label = "'" ++ token.text ++ "'" := by
  obtain ⟨c, rest, lexeme, left, hread, hkind, htext⟩ := h
  rw [htext]
  rw [hkind] at hopen hline ⊢
  unfold Lexeme.read? at hread
  split at hread
  · simp only [Option.some.injEq, Prod.mk.injEq] at hread
    obtain ⟨rfl, -⟩ := hread
    exact Lexeme.keyword?_label hopen
  · split at hread
    · simp only [Option.some.injEq, Prod.mk.injEq] at hread
      obtain ⟨rfl, -⟩ := hread
      cases hopen
    · split at hread
      · obtain ⟨⟨text, body, left'⟩, -, heq⟩ := Option.map_eq_some_iff.1 hread
        simp only [Prod.mk.injEq] at heq
        obtain ⟨rfl, -⟩ := heq
        cases hopen
      · obtain ⟨kind, hpunctuation, heq⟩ := Option.map_eq_some_iff.1 hread
        simp only [Prod.mk.injEq] at heq
        obtain ⟨rfl, -⟩ := heq
        exact Lexeme.punctuation?_label hpunctuation hline

theorem Token.IsScanned.text_eq {left right : Token} (hleft : left.IsScanned)
    (hright : right.IsScanned) (hkind : left.kind = right.kind) (hopen : left.kind.isOpen = false)
    (hline : left.kind ≠ .newline) : left.text = right.text := by
  have hlabel := hleft.label hopen hline
  rw [hkind] at hopen hline
  rw [hkind, hright.label hopen hline] at hlabel
  have htexts := congrArg String.toList hlabel
  simp only [String.toList_append, List.append_cancel_left_eq, List.append_cancel_right_eq] at htexts
  exact (String.toList_inj.1 htexts).symm

/-! ## Numbers without zeros in front -/

namespace Numeral

def withoutZeros : List Char → List Char
  | '0' :: c :: rest => withoutZeros (c :: rest)
  | chars => chars

private theorem digitChar_of_isDigit {c : Char} (h : c.isDigit = true) :
    (c.toNat - '0'.toNat).digitChar = c := by
  obtain ⟨hlow, hhigh⟩ := toNat_of_isDigit h
  have hzero : '0'.toNat = 0x30 := rfl
  rw [← Char.toNat_inj, Nat.toNat_digitChar_of_lt_ten (by omega)]
  omega

private theorem toDigits_of_isDigit {c : Char} (h : c.isDigit = true) :
    Nat.toDigits 10 (c.toNat - '0'.toNat) = [c] := by
  have hhigh := (toNat_of_isDigit h).2
  have hzero : '0'.toNat = 0x30 := rfl
  rw [Nat.toDigits_of_lt_base (by omega), digitChar_of_isDigit h]

private theorem toDigits_ofDigitChars_append {n : Nat} (hn : 0 < n) {chars : List Char}
    (h : ∀ c ∈ chars, c.isDigit = true) :
    Nat.toDigits 10 (Nat.ofDigitChars 10 chars n) = Nat.toDigits 10 n ++ chars := by
  induction chars generalizing n with
  | nil => rw [Nat.ofDigitChars_nil, List.append_nil]
  | cons c chars ih =>
      rw [List.forall_mem_cons] at h
      have hhigh := (toNat_of_isDigit h.1).2
      have hzero : '0'.toNat = 0x30 := rfl
      rw [Nat.ofDigitChars_cons, ih (by omega) h.2,
        ← Nat.toDigits_append_toDigits (by decide) hn (by omega), toDigits_of_isDigit h.1,
        List.append_assoc, List.singleton_append]

/-- The digits of the number that digits denote are these without the zeros in front. -/
theorem toDigits_ofDigitChars {chars : List Char} (hne : chars ≠ [])
    (h : ∀ c ∈ chars, c.isDigit = true) :
    Nat.toDigits 10 (Nat.ofDigitChars 10 chars 0) = withoutZeros chars := by
  fun_induction withoutZeros chars with
  | case1 c rest ih => exact ih (List.cons_ne_nil _ _) fun d hd => h d (List.mem_cons_of_mem _ hd)
  | case2 chars hzeros =>
      obtain ⟨c, rest, rfl⟩ := List.exists_cons_of_ne_nil hne
      rw [List.forall_mem_cons] at h
      by_cases hc : c = '0'
      · -- A zero stays only as the last digit.
        subst hc
        cases rest with
        | nil => rfl
        | cons d rest => exact (hzeros d rest rfl).elim
      · have hpos : 0 < c.toNat - '0'.toNat := by
          have hlow := (toNat_of_isDigit h.1).1
          have hne : c.toNat ≠ '0'.toNat := fun heq => hc (Char.toNat_inj.1 heq)
          have hzero : '0'.toNat = 0x30 := rfl
          omega
        rw [Nat.ofDigitChars_cons, Nat.mul_zero, Nat.zero_add,
          toDigits_ofDigitChars_append hpos h.2, toDigits_of_isDigit h.1, List.singleton_append]

end Numeral

/-! ## Atoms of dumps -/

namespace Sexp

private theorem isDelimiter_of_isWord {c : Char} (h : Text.isWord c = true) :
    isDelimiter c = false := by
  rw [Bool.eq_false_iff]
  intro hdelimiter
  simp only [isDelimiter, Bool.or_eq_true, beq_iff_eq] at hdelimiter
  rcases hdelimiter with (((rfl | rfl) | rfl) | rfl) | rfl <;> exact absurd h (by decide)

private theorem legible_of_isWord {chars : List Char} (hne : chars ≠ [])
    (h : ∀ c ∈ chars, Text.isWord c = true) : Legible chars :=
  .bare hne fun c hc => ⟨isDelimiter_of_isWord (h c hc), Text.ne_newline_of_isWord (h c hc)⟩

private theorem writeWord_eq {value : String} (hne : value.toList ≠ [])
    (h : ∀ c ∈ value.toList, isDelimiter c = false) : writeWord value = value.toList := by
  have hany : (value.toList.isEmpty || value.toList.any isDelimiter) = false := by
    rw [Bool.or_eq_false_iff, List.isEmpty_eq_false_iff, List.any_eq_false]
    exact ⟨hne, fun c hc => by rw [h c hc]; exact Bool.false_ne_true⟩
  rw [writeWord, if_neg (by rw [hany]; exact Bool.false_ne_true)]

private theorem writeDatum_natCast (n : Nat) : writeDatum (.integer n) = Nat.toDigits 10 n := by
  have hnegative : ¬ (n : Int) < 0 := Int.not_lt.2 (Int.natCast_nonneg n)
  rw [writeDatum, Datum.written, Numeral.text, if_neg hnegative, String.toList_ofList,
    Int.natAbs_natCast]
  · exact nofun
  · exact nofun

private theorem legible_toDigits (n : Nat) : Legible (Nat.toDigits 10 n) :=
  legible_of_isWord Nat.toDigits_ne_nil fun _ hc =>
    Text.isWord_of_isDigit (Nat.isDigit_of_mem_toDigits (by decide) (by decide) hc)

private theorem legible_truth (value : Bool) : Legible (writeDatum (.truth value)) := by
  have hchars : ∀ c : Char, isDelimiter c = false ∧ c ≠ '\n' →
      ∀ d ∈ ['#', c], isDelimiter d = false ∧ d ≠ '\n' := by
    intro c hc
    rw [List.forall_mem_cons, List.forall_mem_singleton]
    exact ⟨by decide, hc⟩
  cases value with
  | true => exact .bare (List.cons_ne_nil _ _) (hchars 't' (by decide))
  | false => exact .bare (List.cons_ne_nil _ _) (hchars 'f' (by decide))

private theorem legible_word {value : String} (hne : value ≠ "")
    (h : (value.toList.all fun c => !isDelimiter c && c != '\n') = true) :
    Legible (writeWord value) := by
  have hchars : ∀ c ∈ value.toList, isDelimiter c = false ∧ c ≠ '\n' := by
    simpa using h
  have hnil : value.toList ≠ [] := fun hnil => hne (String.toList_eq_nil_iff.1 hnil)
  rw [writeWord_eq hnil fun c hc => (hchars c hc).1]
  exact .bare hnil hchars

end Sexp

theorem Token.IsScanned.legible_name {token : Token} (h : token.IsScanned)
    (hname : token.kind = .name) : Sexp.Legible (Sexp.writeWord token.text) := by
  obtain ⟨hne, hword⟩ := h.name hname
  rw [Sexp.writeWord_eq hne fun c hc => Sexp.isDelimiter_of_isWord (hword c hc)]
  exact Sexp.legible_of_isWord hne hword

/-! ## Outlines of trees -/

def Sexp.Outline.word (value : String) : Sexp.Outline :=
  .atom (Sexp.writeWord value)

/-- What a dump shows of a literal besides its sort. -/
def Token.outline (token : Token) : Primitive.Kind → Sexp.Outline
  | .integer => .atom (Numeral.withoutZeros token.text.toList)
  | .truth => .atom (Sexp.writeDatum (.truth (token.text = "true")))
  | .text => .atom (Text.lineLiteral token.text).toList
  | .decimal => .word token.text

namespace Tree

open Sexp (Legible Outline outlines)

mutual

def outline : Tree → Outline
  | block statements _ => .list (.word "block" :: outlineAll statements)
  | literal token kind => .list [.word kind.label, token.outline kind]
  | reference name => .list [.word "var-ref", .word name.text]
  | declare name initializer => .list [.word "declare", .word name.text, initializer.outline]
  | assign target value _ => .list [.word "assign", target.outline, value.outline]
  | call callee arguments _ => .list (.word "call" :: callee.outline :: outlineAll arguments)
  | conditional condition body _ => .list [.word "if", condition.outline, body.outline]
  | debugPrint operand _ => .list [.word "debug-print", operand.outline]
  | foreign _ => .list []

def outlineAll : List Tree → List Outline
  | [] => []
  | tree :: trees => tree.outline :: outlineAll trees

end

/-- The S-expression of the tree, if there is one, has legible atoms and the outline of the tree. -/
def ShowsOutline (tree : Tree) : Prop :=
  ∀ sexp, tree.toSexp = .ok sexp → sexp.Atoms Legible ∧ sexp.outline = tree.outline

theorem exists_of_bind_eq_ok {α β : Type} {work : Except HostError α}
    {next : α → Except HostError β} {value : β} (h : work >>= next = .ok value) :
    ∃ first, work = .ok first ∧ next first = .ok value := by
  cases work with
  | error error => cases h
  | ok first => exact ⟨first, rfl, h⟩

private theorem showsOutline_all {trees : List Tree} (h : ∀ tree ∈ trees, tree.ShowsOutline)
    {sexps : List Sexp} (hsexps : toSexpAll trees = .ok sexps) :
    (∀ sexp ∈ sexps, sexp.Atoms Legible) ∧ outlines sexps = outlineAll trees := by
  induction trees generalizing sexps with
  | nil =>
      cases hsexps
      exact ⟨by simp, rfl⟩
  | cons tree trees ih =>
      rw [List.forall_mem_cons] at h
      rw [toSexpAll] at hsexps
      obtain ⟨first, hfirst, hsexps⟩ := exists_of_bind_eq_ok hsexps
      obtain ⟨rest, hrest, hsexps⟩ := exists_of_bind_eq_ok hsexps
      cases hsexps
      obtain ⟨hatoms, houtline⟩ := h.1 first hfirst
      obtain ⟨hatomsAll, houtlines⟩ := ih h.2 hrest
      rw [outlines, outlineAll, houtline, houtlines]
      exact ⟨List.forall_mem_cons.2 ⟨hatoms, hatomsAll⟩, rfl⟩

theorem atoms_list {word : String} {items : List Sexp} (hne : word ≠ "")
    (hword : (word.toList.all fun c => !Sexp.isDelimiter c && c != '\n') = true)
    (h : ∀ item ∈ items, item.Atoms Legible) : (Sexp.list (.word word :: items)).Atoms Legible :=
  .list (List.forall_mem_cons.2 ⟨.word (Sexp.legible_word hne hword), h⟩)

theorem showsOutline_literal {token : Token} {kind : Primitive.Kind} (h : token.Spells kind) :
    (literal token kind).ShowsOutline := by
  intro sexp hsexp
  rw [toSexp] at hsexp
  cases kind with
  | integer =>
      rw [ofLiteral_integer h] at hsexp
      split at hsexp
      · cases hsexp
      · -- The value is written without the zeros that stand in front of the literal.
        cases hsexp
        have hwritten := Sexp.writeDatum_natCast (Nat.ofDigitChars 10 token.text.toList 0)
        refine ⟨atoms_list (by decide) (by decide) ?_, ?_⟩
        · rw [List.forall_mem_singleton]
          exact .datum (hwritten ▸ Sexp.legible_toDigits _)
        · rw [outline, Token.outline, ← Numeral.toDigits_ofDigitChars h.1 h.2, ← hwritten]
          rfl
  | decimal => exact h.elim
  | text =>
      cases hsexp
      refine ⟨atoms_list (by decide) (by decide) ?_, rfl⟩
      rw [List.forall_mem_singleton]
      exact .text (.quoted _)
  | truth =>
      cases hsexp
      refine ⟨atoms_list (by decide) (by decide) ?_, rfl⟩
      rw [List.forall_mem_singleton]
      exact .datum (Sexp.legible_truth _)

theorem TermOver.showsOutline {tree : Tree} (h : tree.TermOver Token.IsScanned) :
    tree.ShowsOutline := by
  induction h with
  | @factor token leaf htoken hfactor =>
      cases hfactor with
      | number hkind => exact showsOutline_literal (htoken.isSpelled.1 hkind)
      | truth hkind => exact showsOutline_literal (htoken.isSpelled.2 hkind)
      | text => exact showsOutline_literal trivial
      | name hkind =>
          intro sexp hsexp
          cases hsexp
          refine ⟨atoms_list (by decide) (by decide) ?_, rfl⟩
          rw [List.forall_mem_singleton]
          exact .word (htoken.legible_name hkind)
  | assign _ _ _ _ ihTarget ihValue =>
      intro sexp hsexp
      rw [toSexp] at hsexp
      obtain ⟨target, htarget, hsexp⟩ := exists_of_bind_eq_ok hsexp
      obtain ⟨value, hvalue, hsexp⟩ := exists_of_bind_eq_ok hsexp
      cases hsexp
      obtain ⟨hatoms, houtline⟩ := ihTarget target htarget
      obtain ⟨hatoms', houtline'⟩ := ihValue value hvalue
      rw [outline, ← houtline, ← houtline']
      exact ⟨atoms_list (by decide) (by decide) (by simp [hatoms, hatoms']), rfl⟩
  | call _ _ _ _ ihCallee ihArguments =>
      intro sexp hsexp
      rw [toSexp] at hsexp
      obtain ⟨callee, hcallee, hsexp⟩ := exists_of_bind_eq_ok hsexp
      obtain ⟨arguments, harguments, hsexp⟩ := exists_of_bind_eq_ok hsexp
      cases hsexp
      obtain ⟨hatoms, houtline⟩ := ihCallee callee hcallee
      obtain ⟨hatoms', houtlines⟩ := showsOutline_all ihArguments harguments
      rw [outline, ← houtline, ← houtlines]
      exact ⟨atoms_list (by decide) (by decide) (List.forall_mem_cons.2 ⟨hatoms, hatoms'⟩),
        rfl⟩

/-- The dump of a statement of a source, if there is one, shows the outline of the statement. -/
theorem StatementOver.showsOutline {tree : Tree} (h : tree.StatementOver Token.IsScanned) :
    tree.ShowsOutline := by
  induction h with
  | term h => exact h.showsOutline
  | @declare name initializer hname hkind hinitializer =>
      intro sexp hsexp
      rw [toSexp] at hsexp
      obtain ⟨value, hvalue, hsexp⟩ := exists_of_bind_eq_ok hsexp
      cases hsexp
      obtain ⟨hatoms, houtline⟩ := hinitializer.showsOutline value hvalue
      rw [outline, ← houtline]
      refine ⟨atoms_list (by decide) (by decide) ?_, rfl⟩
      rw [List.forall_mem_cons, List.forall_mem_singleton]
      exact ⟨.word (hname.legible_name hkind), hatoms⟩
  | block _ _ _ ih =>
      intro sexp hsexp
      rw [toSexp] at hsexp
      obtain ⟨statements, hstatements, hsexp⟩ := exists_of_bind_eq_ok hsexp
      cases hsexp
      obtain ⟨hatoms, houtlines⟩ := showsOutline_all ih hstatements
      rw [outline, ← houtlines]
      exact ⟨atoms_list (by decide) (by decide) hatoms, rfl⟩
  | conditional _ _ hcondition _ ih =>
      intro sexp hsexp
      rw [toSexp] at hsexp
      obtain ⟨condition, hcondition', hsexp⟩ := exists_of_bind_eq_ok hsexp
      obtain ⟨body, hbody, hsexp⟩ := exists_of_bind_eq_ok hsexp
      cases hsexp
      obtain ⟨hatoms, houtline⟩ := hcondition.showsOutline condition hcondition'
      obtain ⟨hatoms', houtline'⟩ := ih body hbody
      rw [outline, ← houtline, ← houtline']
      exact ⟨atoms_list (by decide) (by decide) (by simp [hatoms, hatoms']), rfl⟩
  | debugPrint _ _ hoperand =>
      intro sexp hsexp
      rw [toSexp] at hsexp
      obtain ⟨operand, hoperand', hsexp⟩ := exists_of_bind_eq_ok hsexp
      cases hsexp
      obtain ⟨hatoms, houtline⟩ := hoperand.showsOutline operand hoperand'
      rw [outline, ← houtline]
      exact ⟨atoms_list (by decide) (by decide) (List.forall_mem_singleton.2 hatoms), rfl⟩

end Tree

end Scriptlet
