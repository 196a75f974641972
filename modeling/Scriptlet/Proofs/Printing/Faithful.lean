import Scriptlet.Proofs.Printing.Outlines
import Scriptlet.Proofs.Syntax.Origins
/-!
# Faithful dumps

Two statements have the same dump exactly if they say the same.  A dump leaves out where tokens
stand, how their lexemes are spelled and zeros in front of numbers, and nothing else.
-/

namespace Scriptlet

/-! ## What statements say -/

/-- A token without its place, its lexeme and the zeros in front of a number. -/
def Token.essence (token : Token) : Token where
  kind := token.kind
  text :=
    if token.kind = .number then String.ofList (Numeral.withoutZeros token.text.toList)
    else token.text
  line := 0
  column := 0
  lexeme := ""
  file := ""

mutual

/-- A tree with the essences of its tokens. -/
def Tree.essence : Tree → Tree
  | .block statements token => .block (essenceAll statements) (token.map Token.essence)
  | .literal token kind => .literal token.essence kind
  | .reference name => .reference name.essence
  | .declare name initializer => .declare name.essence initializer.essence
  | .assign target value token => .assign target.essence value.essence token.essence
  | .call callee arguments token => .call callee.essence (essenceAll arguments) token.essence
  | .conditional condition body token =>
    .conditional condition.essence body.essence token.essence
  | .debugPrint operand token => .debugPrint operand.essence token.essence
  | .foreign sort => .foreign sort

def Tree.essenceAll : List Tree → List Tree
  | [] => []
  | tree :: trees => tree.essence :: essenceAll trees

end

namespace Token

variable {left right : Token}

theorem essence_eq_iff (hkind : left.kind = right.kind) (hnumber : left.kind ≠ .number) :
    left.essence = right.essence ↔ left.text = right.text := by
  have hnumber' : right.kind ≠ .number := hkind ▸ hnumber
  simp [essence, hkind, hnumber']

private theorem essence_eq_iff_number (hleft : left.kind = .number)
    (hright : right.kind = .number) :
    left.essence = right.essence ↔
      Numeral.withoutZeros left.text.toList = Numeral.withoutZeros right.text.toList := by
  simp [essence, hleft, hright, ← String.toList_inj]

theorem IsScanned.essence_eq (hleft : left.IsScanned) (hright : right.IsScanned)
    {kind : Token.Kind} (hkind : left.kind = kind) (hkind' : right.kind = kind)
    (hopen : kind.isOpen = false) (hline : kind ≠ .newline) : left.essence = right.essence := by
  subst hkind
  have hnumber : left.kind ≠ .number := by
    intro heq
    rw [heq] at hopen
    cases hopen
  exact (essence_eq_iff hkind'.symm hnumber).2 (hleft.text_eq hright hkind'.symm hopen hline)

end Token

/-! ## Outlines of atoms -/

namespace Sexp

private theorem writeWord_injective {left right : String} (h : writeWord left = writeWord right) :
    left = right := by
  have hbare : ∀ {value other : String},
      ¬ (value.toList.isEmpty || value.toList.any isDelimiter) = true →
      value.toList ≠ '"' :: other.toList ++ ['"'] := by
    intro value other hvalue heq
    refine hvalue ?_
    rw [heq]
    rfl
  unfold writeWord at h
  dsimp only at h
  rw [← String.toList_inj]
  split at h
  · split at h
    · exact List.append_cancel_right (List.cons.inj h).2
    · next hright => exact absurd h.symm (hbare hright)
  · next hleft =>
    split at h
    · exact absurd h (hbare hleft)
    · exact h

theorem Outline.word_inj {left right : String} : Outline.word left = .word right ↔ left = right :=
  ⟨fun h => writeWord_injective (Outline.atom.inj h), congrArg _⟩

private theorem lineLiteral_inj {left right : String} :
    (Text.lineLiteral left).toList = (Text.lineLiteral right).toList ↔ left = right := by
  refine ⟨fun h => ?_, fun h => by rw [h]⟩
  have happend : (Text.lineLiteral left).toList ++ [] = (Text.lineLiteral right).toList ++ [] := by
    rw [h]
  exact (lineLiteral_append_inj happend).1

private theorem writeDatum_truth_inj {left right : Bool} :
    writeDatum (.truth left) = writeDatum (.truth right) ↔ left = right := by
  cases left <;> cases right <;> decide

end Sexp

namespace Tree

open Sexp (Outline)

private theorem token_outline_eq_iff {left right : Token} {kind : Primitive.Kind}
    (hleft : left.IsScanned) (hfactor : Grammar.Factor left (.literal left kind))
    (hright : right.IsScanned) (hfactor' : Grammar.Factor right (.literal right kind)) :
    left.outline kind = right.outline kind ↔ left.essence = right.essence := by
  cases hfactor with
  | number hkind =>
      cases hfactor' with
      | number hkind' =>
          rw [Token.essence_eq_iff_number hkind hkind', Token.outline, Token.outline,
            Outline.atom.injEq]
  | truth hkind =>
      cases hfactor' with
      | truth hkind' =>
          have hsame := Token.essence_eq_iff (hkind.trans hkind'.symm) (by rw [hkind]; decide)
          rw [hsame, Token.outline, Token.outline, Outline.atom.injEq, Sexp.writeDatum_truth_inj]
          rcases hleft.isSpelled.2 hkind with htext | htext <;>
            rcases hright.isSpelled.2 hkind' with htext' | htext' <;>
            rw [htext, htext'] <;> decide
  | text hkind =>
      cases hfactor' with
      | text hkind' =>
          have hsame := Token.essence_eq_iff (hkind.trans hkind'.symm) (by rw [hkind]; decide)
          rw [hsame, Token.outline, Token.outline, Outline.atom.injEq, Sexp.lineLiteral_inj]

/-- A dump tells the tree from all statements that say something else. -/
def IsTold (tree : Tree) : Prop :=
  ∀ other : Tree, other.StatementOver Token.IsScanned →
    (tree.outline = other.outline ↔ tree.essence = other.essence)

private theorem outlineAll_eq_iff {trees : List Tree} (h : ∀ tree ∈ trees, tree.IsTold)
    {others : List Tree} (hothers : ∀ other ∈ others, other.StatementOver Token.IsScanned) :
    outlineAll trees = outlineAll others ↔ essenceAll trees = essenceAll others := by
  induction trees generalizing others with
  | nil => cases others <;> simp [outlineAll, essenceAll]
  | cons tree trees ih =>
      cases others with
      | nil => simp [outlineAll, essenceAll]
      | cons other others =>
          rw [List.forall_mem_cons] at h hothers
          simp only [outlineAll, essenceAll, List.cons.injEq, h.1 other hothers.1, ih h.2 hothers.2]

theorem isTold_literal {token : Token} {kind : Primitive.Kind} (htoken : token.IsScanned)
    (hfactor : Grammar.Factor token (.literal token kind)) : (literal token kind).IsTold := by
  intro other hother
  cases other with
  | literal token' kind' =>
      obtain ⟨htoken', hfactor'⟩ := statementOver_literal.1 hother
      have hlabel : kind.label = kind'.label ↔ kind = kind' :=
        ⟨Primitive.Kind.label_inj, congrArg _⟩
      simp only [outline, essence, Outline.list.injEq, List.cons.injEq, and_true, literal.injEq,
        Outline.word_inj, hlabel]
      by_cases hkind : kind = kind'
      · subst hkind
        rw [and_comm, token_outline_eq_iff htoken hfactor htoken' hfactor']
      · simp [hkind]
  | _ => cases kind <;> simp [outline, essence, Outline.word_inj, Primitive.Kind.label]

private theorem isTold_reference {name : Token} (hkind : name.kind = .name) :
    (reference name).IsTold := by
  intro other hother
  cases other with
  | reference name' =>
      obtain ⟨-, hkind'⟩ := statementOver_reference.1 hother
      have hsame := Token.essence_eq_iff (hkind.trans hkind'.symm) (by rw [hkind]; decide)
      simp only [outline, essence, Outline.list.injEq, List.cons.injEq, reference.injEq, true_and,
        and_true, Outline.word_inj, hsame]
  | literal _ kind => cases kind <;> simp [outline, essence, Outline.word_inj, Primitive.Kind.label]
  | _ => simp [outline, essence, Outline.word_inj]

theorem TermOver.isTold {tree : Tree} (h : tree.TermOver Token.IsScanned) : tree.IsTold := by
  induction h with
  | @factor token leaf htoken hfactor =>
      cases hfactor with
      | number hkind => exact isTold_literal htoken (.number hkind)
      | truth hkind => exact isTold_literal htoken (.truth hkind)
      | text hkind => exact isTold_literal htoken (.text hkind)
      | name hkind => exact isTold_reference hkind
  | @assign target value token _ _ htoken hkind ihTarget ihValue =>
      intro other hother
      cases other with
      | assign target' value' token' =>
          obtain ⟨htarget', hvalue', htoken', hkind'⟩ := statementOver_assign.1 hother
          have hoperator := htoken.essence_eq htoken' hkind hkind' (by decide) (by decide)
          simp only [outline, essence, Outline.list.injEq, List.cons.injEq, assign.injEq, true_and,
            and_true, hoperator, ihTarget target' (.term htarget'), ihValue value' (.term hvalue')]
      | _ => simp [outline, essence, Outline.word_inj]
  | @call callee arguments token _ _ htoken hkind ihCallee ihArguments =>
      intro other hother
      cases other with
      | call callee' arguments' token' =>
          obtain ⟨hcallee', harguments', htoken', hkind'⟩ := statementOver_call.1 hother
          have hopening := htoken.essence_eq htoken' hkind hkind' (by decide) (by decide)
          have hvalues := outlineAll_eq_iff ihArguments fun value hvalue =>
            .term (harguments' value hvalue)
          simp only [outline, essence, Outline.list.injEq, List.cons.injEq, call.injEq, true_and,
            and_true, hopening, ihCallee callee' (.term hcallee'), hvalues]
      | literal _ kind =>
          cases kind <;> simp [outline, essence, Outline.word_inj, Primitive.Kind.label]
      | _ => simp [outline, essence, Outline.word_inj]

theorem StatementOver.isTold {tree : Tree} (h : tree.StatementOver Token.IsScanned) :
    tree.IsTold := by
  induction h with
  | term h => exact h.isTold
  | @declare name initializer hname hkind hinitializer =>
      intro other hother
      cases other with
      | declare name' initializer' =>
          obtain ⟨-, hkind', hinitializer'⟩ := statementOver_declare.1 hother
          have hsame := Token.essence_eq_iff (hkind.trans hkind'.symm) (by rw [hkind]; decide)
          simp only [outline, essence, Outline.list.injEq, List.cons.injEq, declare.injEq, true_and,
            and_true, Outline.word_inj, hsame,
            hinitializer.isTold initializer' (.term hinitializer')]
      | _ => simp [outline, essence, Outline.word_inj]
  | @block statements token htoken hkind _ ih =>
      intro other hother
      cases other with
      | block statements' opening =>
          obtain ⟨token', rfl, htoken', hkind', hstatements'⟩ := statementOver_block.1 hother
          have hopening := htoken.essence_eq htoken' hkind hkind' (by decide) (by decide)
          simp only [outline, essence, Outline.list.injEq, List.cons.injEq, block.injEq, true_and,
            and_true, Option.map_some, hopening, outlineAll_eq_iff ih hstatements']
      | literal _ kind =>
          cases kind <;> simp [outline, essence, Outline.word_inj, Primitive.Kind.label]
      | _ => simp [outline, essence, Outline.word_inj]
  | @conditional condition body token htoken hkind hcondition _ ih =>
      intro other hother
      cases other with
      | conditional condition' body' token' =>
          obtain ⟨htoken', hkind', hcondition', hbody'⟩ := statementOver_conditional.1 hother
          have hkeyword := htoken.essence_eq htoken' hkind hkind' (by decide) (by decide)
          simp only [outline, essence, Outline.list.injEq, List.cons.injEq, conditional.injEq,
            true_and, and_true, hkeyword, hcondition.isTold condition' (.term hcondition'),
            ih body' hbody']
      | _ => simp [outline, essence, Outline.word_inj]
  | @debugPrint operand token htoken hkind hoperand =>
      intro other hother
      cases other with
      | debugPrint operand' token' =>
          obtain ⟨htoken', hkind', hoperand'⟩ := statementOver_debugPrint.1 hother
          have hmarker := htoken.essence_eq htoken' hkind hkind' (by decide) (by decide)
          simp only [outline, essence, Outline.list.injEq, List.cons.injEq, debugPrint.injEq,
            true_and, and_true, hmarker, hoperand.isTold operand' (.term hoperand')]
      | literal _ kind =>
          cases kind <;> simp [outline, essence, Outline.word_inj, Primitive.Kind.label]
      | _ => simp [outline, essence, Outline.word_inj]

/-- Dumps on one page are equal just if the statements say the same. -/
theorem StatementOver.dump_eq_iff {left right : Tree} (hleft : left.StatementOver Token.IsScanned)
    (hright : right.StatementOver Token.IsScanned) {page : Sexp.Page} {dump dump' : String}
    (hdump : left.dump page = .ok dump) (hdump' : right.dump page = .ok dump') :
    dump = dump' ↔ left.essence = right.essence := by
  obtain ⟨sexp, hsexp, heq⟩ := exists_of_bind_eq_ok hdump
  obtain ⟨sexp', hsexp', heq'⟩ := exists_of_bind_eq_ok hdump'
  obtain ⟨hatoms, houtline⟩ := hleft.showsOutline sexp hsexp
  obtain ⟨hatoms', houtline'⟩ := hright.showsOutline sexp' hsexp'
  obtain rfl := Except.ok.inj heq
  obtain rfl := Except.ok.inj heq'
  rw [← hleft.isTold right hright, ← houtline, ← houtline', ← Sexp.layout_eq_iff page 0 hatoms hatoms',
    Sexp.render, Sexp.render, ← String.toList_inj, String.toList_ofList, String.toList_ofList]

theorem ReadFrom.isStatement {source file : String} {tree : Tree} (h : tree.ReadFrom source file) :
    tree.IsStatement :=
  (h.statementOver.mono fun _ => Token.IsScanned.isSpelled).isStatement

/-- Dumps are faithful.  Statements of any sources whose numbers can be read have dumps on every
page, and these are equal exactly if the statements are equal but for the places of tokens, the
spelling of lexemes and zeros in front of numbers. -/
theorem dumps_faithful {source source' file file' : String} {left right : Tree}
    (hleft : left.ReadFrom source file) (hright : right.ReadFrom source' file')
    (hsize : left.IsReadable) (hsize' : right.IsReadable) (page : Sexp.Page) :
    ∃ dump dump', left.dump page = .ok dump ∧ right.dump page = .ok dump' ∧
      (dump = dump' ↔ left.essence = right.essence) := by
  obtain ⟨dump, hdump⟩ := (hleft.isStatement.succeeds_dump page).2 hsize
  obtain ⟨dump', hdump'⟩ := (hright.isStatement.succeeds_dump page).2 hsize'
  exact ⟨dump, dump', hdump, hdump',
    hleft.statementOver.dump_eq_iff hright.statementOver hdump hdump'⟩

/-- Blanks and zeros do not show in a dump. -/
theorem dumps_faithful_spelling :
    ∃ left right, parseProgram "x = 007" "a" = .ok [left] ∧ parseProgram "x  =\t7;" "b" = .ok [right] ∧
      (left.IsReadable ∧ right.IsReadable) ∧
      ∃ dump, left.dump .standard = .ok dump ∧ right.dump .standard = .ok dump := by
  let left := assign (.reference ⟨.name, "x", 1, 1, "x", "a"⟩)
    (.literal ⟨.number, "007", 1, 5, "007", "a"⟩ .integer) ⟨.assign, "=", 1, 3, "=", "a"⟩
  let right := assign (.reference ⟨.name, "x", 1, 1, "x", "b"⟩)
    (.literal ⟨.number, "7", 1, 6, "7", "b"⟩ .integer) ⟨.assign, "=", 1, 4, "=", "b"⟩
  have hleft : parseProgram "x = 007" "a" = .ok [left] := by decide +kernel
  have hright : parseProgram "x  =\t7;" "b" = .ok [right] := by decide +kernel
  have hreadable : left.IsReadable ∧ right.IsReadable := by
    constructor
    all_goals
      intro token kind hmem
      simp only [left, right, preorder, List.cons_append, List.nil_append, List.mem_cons,
        reduceCtorEq, literal.injEq, List.not_mem_nil, false_or, or_false] at hmem
      obtain ⟨rfl, rfl⟩ := hmem
      exact fun hsize => absurd hsize.2 (by decide)
  obtain ⟨dump, dump', hdump, hdump', hiff⟩ :=
    dumps_faithful (.program hleft (List.mem_singleton_self _))
      (.program hright (List.mem_singleton_self _)) hreadable.1 hreadable.2 .standard
  have hsame : left.essence = right.essence := rfl
  rw [← hiff.2 hsame] at hdump'
  exact ⟨left, right, hleft, hright, hreadable, dump, hdump, hdump'⟩

end Tree

end Scriptlet
