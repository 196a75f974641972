import Scriptlet.Proofs.Syntax.Grammar
/-!
# What the parser builds

A tree that the grammar makes of tokens has a fixed shape, and every token in it stands where its
kind belongs.  Whatever holds of all tokens holds of those in the tree.
-/

namespace Scriptlet

variable {p : Token → Prop}

/-- An expression as the parser builds it, from tokens with the given property. -/
inductive Tree.TermOver (p : Token → Prop) : Tree → Prop where
  | factor {token : Token} {leaf : Tree} : p token → Grammar.Factor token leaf → TermOver p leaf
  | assign {target value : Tree} {token : Token} :
      TermOver p target → TermOver p value → p token → token.kind = .assign →
      TermOver p (.assign target value token)
  | call {callee : Tree} {arguments : List Tree} {token : Token} :
      TermOver p callee → (∀ argument ∈ arguments, TermOver p argument) → p token →
      token.kind = .leftParen → TermOver p (.call callee arguments token)

inductive Tree.StatementOver (p : Token → Prop) : Tree → Prop where
  | term {tree : Tree} : tree.TermOver p → StatementOver p tree
  | declare {name : Token} {initializer : Tree} :
      p name → name.kind = .name → initializer.TermOver p →
      StatementOver p (.declare name initializer)
  | block {statements : List Tree} {token : Token} :
      p token → token.kind = .leftCurly → (∀ statement ∈ statements, StatementOver p statement) →
      StatementOver p (.block statements (some token))
  | conditional {condition body : Tree} {token : Token} :
      p token → token.kind = .if_ → condition.TermOver p → StatementOver p body →
      StatementOver p (.conditional condition body token)
  | debugPrint {operand : Tree} {token : Token} :
      p token → token.kind = .debugPrint → operand.TermOver p →
      StatementOver p (.debugPrint operand token)

namespace Tree

theorem TermOver.mono {q : Token → Prop} {tree : Tree} (h : tree.TermOver p)
    (hpq : ∀ token, p token → q token) : tree.TermOver q := by
  induction h with
  | factor htoken hfactor => exact .factor (hpq _ htoken) hfactor
  | assign _ _ htoken hkind ihTarget ihValue => exact .assign ihTarget ihValue (hpq _ htoken) hkind
  | call _ _ htoken hkind ihCallee ihArguments =>
      exact .call ihCallee ihArguments (hpq _ htoken) hkind

theorem StatementOver.mono {q : Token → Prop} {tree : Tree} (h : tree.StatementOver p)
    (hpq : ∀ token, p token → q token) : tree.StatementOver q := by
  induction h with
  | term h => exact .term (h.mono hpq)
  | declare hname hkind h => exact .declare (hpq _ hname) hkind (h.mono hpq)
  | block htoken hkind _ ih => exact .block (hpq _ htoken) hkind ih
  | conditional htoken hkind hcondition _ ih =>
      exact .conditional (hpq _ htoken) hkind (hcondition.mono hpq) ih
  | debugPrint htoken hkind h => exact .debugPrint (hpq _ htoken) hkind (h.mono hpq)

/-! What the tokens of a statement are can be told from its outermost node. -/

section Inversion

variable {token : Token} {condition body operand target value callee : Tree}
  {statements arguments : List Tree}

theorem statementOver_literal {kind : Primitive.Kind} :
    (literal token kind).StatementOver p ↔ p token ∧ Grammar.Factor token (.literal token kind) := by
  refine ⟨?_, fun h => .term (.factor h.1 h.2)⟩
  rintro (h | _)
  cases h with
  | factor htoken hfactor =>
      cases hfactor with
      | number hkind => exact ⟨htoken, .number hkind⟩
      | truth hkind => exact ⟨htoken, .truth hkind⟩
      | text hkind => exact ⟨htoken, .text hkind⟩

theorem statementOver_reference :
    (reference token).StatementOver p ↔ p token ∧ token.kind = .name := by
  refine ⟨?_, fun h => .term (.factor h.1 (.name h.2))⟩
  rintro (h | _)
  cases h with
  | factor htoken hfactor =>
      cases hfactor with
      | name hkind => exact ⟨htoken, hkind⟩

theorem statementOver_assign :
    (assign target value token).StatementOver p ↔
      target.TermOver p ∧ value.TermOver p ∧ p token ∧ token.kind = .assign := by
  refine ⟨?_, fun h => .term (.assign h.1 h.2.1 h.2.2.1 h.2.2.2)⟩
  rintro (h | _)
  cases h with
  | factor _ hfactor => cases hfactor
  | assign htarget hvalue htoken hkind => exact ⟨htarget, hvalue, htoken, hkind⟩

theorem statementOver_call :
    (call callee arguments token).StatementOver p ↔
      callee.TermOver p ∧ (∀ argument ∈ arguments, argument.TermOver p) ∧ p token ∧
        token.kind = .leftParen := by
  refine ⟨?_, fun h => .term (.call h.1 h.2.1 h.2.2.1 h.2.2.2)⟩
  rintro (h | _)
  cases h with
  | factor _ hfactor => cases hfactor
  | call hcallee harguments htoken hkind => exact ⟨hcallee, harguments, htoken, hkind⟩

theorem statementOver_declare :
    (declare token value).StatementOver p ↔ p token ∧ token.kind = .name ∧ value.TermOver p := by
  refine ⟨?_, fun h => .declare h.1 h.2.1 h.2.2⟩
  rintro (h | ⟨htoken, hkind, hvalue⟩)
  · cases h with
    | factor _ hfactor => cases hfactor
  · exact ⟨htoken, hkind, hvalue⟩

theorem statementOver_block {opening : Option Token} :
    (block statements opening).StatementOver p ↔ ∃ token, opening = some token ∧ p token ∧
      token.kind = .leftCurly ∧ ∀ statement ∈ statements, statement.StatementOver p := by
  constructor
  · intro h
    cases h with
    | term h =>
        cases h with
        | factor _ hfactor => cases hfactor
    | block htoken hkind hstatements => exact ⟨_, rfl, htoken, hkind, hstatements⟩
  · rintro ⟨token, rfl, htoken, hkind, hstatements⟩
    exact .block htoken hkind hstatements

theorem statementOver_conditional :
    (conditional condition body token).StatementOver p ↔
      p token ∧ token.kind = .if_ ∧ condition.TermOver p ∧ body.StatementOver p := by
  constructor
  · intro h
    cases h with
    | term h =>
        cases h with
        | factor _ hfactor => cases hfactor
    | conditional htoken hkind hcondition hbody => exact ⟨htoken, hkind, hcondition, hbody⟩
  · exact fun h => .conditional h.1 h.2.1 h.2.2.1 h.2.2.2

theorem statementOver_debugPrint :
    (debugPrint operand token).StatementOver p ↔
      p token ∧ token.kind = .debugPrint ∧ operand.TermOver p := by
  constructor
  · intro h
    cases h with
    | term h =>
        cases h with
        | factor _ hfactor => cases hfactor
    | debugPrint htoken hkind hoperand => exact ⟨htoken, hkind, hoperand⟩
  · exact fun h => .debugPrint h.1 h.2.1 h.2.2

end Inversion

end Tree

namespace Grammar

theorem Expression.termOver {tokens : List Token} {tree : Tree} (h : Expression tokens tree)
    (htokens : ∀ token ∈ tokens, p token) : tree.TermOver p := by
  refine @Expression.rec
    (fun tokens tree _ => (∀ token ∈ tokens, p token) → tree.TermOver p)
    (fun leaf tokens tree _ => leaf.TermOver p → (∀ token ∈ tokens, p token) → tree.TermOver p)
    (fun tokens values _ => (∀ token ∈ tokens, p token) → ∀ value ∈ values, value.TermOver p)
    (fun tokens values _ => (∀ token ∈ tokens, p token) → ∀ value ∈ values, value.TermOver p)
    ?intro ?nil ?assign ?call ?none ?some ?last ?trailing ?next tokens tree h htokens
  case intro =>
    intro gap suffix token leaf tree _ hfactor _ ih htokens
    simp only [List.forall_mem_append, List.forall_mem_cons] at htokens
    exact ih (.factor htokens.2.1 hfactor) htokens.2.2
  case nil =>
    intro tree hleaf _
    exact hleaf
  case assign =>
    intro target value equals right hequals _ ih htarget htokens
    rw [List.forall_mem_cons] at htokens
    exact .assign htarget (ih htokens.2) htokens.1 hequals
  case call =>
    intro callee tree values opening closing inside others hopening _ _ _ ihInside ihOthers hcallee
      htokens
    simp only [List.forall_mem_cons, List.forall_mem_append] at htokens
    exact ihOthers (.call hcallee (ihInside htokens.2.1) htokens.1 hopening) htokens.2.2.2
  case none => simp
  case some =>
    intro gap first after others value values _ _ _ _ ihFirst ihOthers htokens
    simp only [List.forall_mem_append] at htokens
    exact List.forall_mem_cons.2 ⟨ihFirst htokens.2.1, ihOthers htokens.2.2.2⟩
  case last => simp
  case trailing => simp
  case next =>
    intro comma gap next after others value values _ _ _ _ _ ihNext ihOthers htokens
    simp only [List.forall_mem_cons, List.forall_mem_append] at htokens
    exact List.forall_mem_cons.2 ⟨ihNext htokens.2.2.1, ihOthers htokens.2.2.2.2⟩

theorem Statements.statementOver {tokens : List Token} {trees : List Tree}
    (h : Statements tokens trees) (htokens : ∀ token ∈ tokens, p token) :
    ∀ tree ∈ trees, tree.StatementOver p := by
  refine @Statements.rec
    (fun tokens tree _ => (∀ token ∈ tokens, p token) → tree.StatementOver p)
    (fun tokens trees _ => (∀ token ∈ tokens, p token) → ∀ tree ∈ trees, tree.StatementOver p)
    (fun tokens trees _ => (∀ token ∈ tokens, p token) → ∀ tree ∈ trees, tree.StatementOver p)
    ?declaration ?block ?conditional ?debugPrint ?expression ?none ?some ?last ?trailing ?next
    tokens trees h htokens
  case declaration =>
    intro keyword name equals gap right value _ _ hname _ hright htokens
    simp only [List.forall_mem_cons, List.forall_mem_append] at htokens
    exact .declare htokens.2.2.1 hname (hright.termOver htokens.2.2.2.2)
  case block =>
    intro opening closing inside trees hopening _ _ ih htokens
    simp only [List.forall_mem_cons, List.forall_mem_append] at htokens
    exact .block htokens.1 hopening (ih htokens.2.1)
  case conditional =>
    intro keyword test gap inner condition body hkeyword htest _ _ ih htokens
    simp only [List.forall_mem_cons, List.forall_mem_append] at htokens
    exact .conditional htokens.1 hkeyword (htest.termOver htokens.2.1) (ih htokens.2.2.2)
  case debugPrint =>
    intro marker inner operand hmarker hinner htokens
    rw [List.forall_mem_cons] at htokens
    exact .debugPrint htokens.1 hmarker (hinner.termOver htokens.2)
  case expression =>
    intro tokens tree hexpression htokens
    exact .term (hexpression.termOver htokens)
  case none => simp
  case some =>
    intro gap first others tree trees _ _ _ ihFirst ihOthers htokens
    simp only [List.forall_mem_append] at htokens
    exact List.forall_mem_cons.2 ⟨ihFirst htokens.2.1, ihOthers htokens.2.2⟩
  case last => simp
  case trailing => simp
  case next =>
    intro separator next others tree trees _ _ _ ihNext ihOthers htokens
    simp only [List.forall_mem_append] at htokens
    exact List.forall_mem_cons.2 ⟨ihNext htokens.2.1, ihOthers htokens.2.2⟩

end Grammar

end Scriptlet
