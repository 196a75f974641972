import Mathlib.Data.List.Nodup
import Mathlib.Data.Option.Basic
import Scriptlet.Proofs.Syntax.Spelling
/-!
# The tokens of a program

Read from left to right, the trees of a program show again the tokens that they were read from.
Newlines, semicolons and commas leave no trace; of the word in front of a declaration, of equals
signs and of closing brackets only that they were there.  Nothing else is lost, nothing appears
twice and nothing changes its place.
-/

namespace Scriptlet

/-! ## Nodes in order -/

namespace Tree

/-- What a node is known by if it keeps a token: literals, names and declared names are words. -/
inductive Role where
  | word
  | conditional
  | debugPrint
  | block
  | call
deriving DecidableEq

def role? : Tree → Option Role
  | literal .. | reference _ | declare .. => some .word
  | conditional .. => some .conditional
  | debugPrint .. => some .debugPrint
  | block .. => some .block
  | call .. => some .call
  | assign .. | foreign _ => none

def isDeclaration : Tree → Bool
  | declare .. => true
  | _ => false

def isAssignment : Tree → Bool
  | assign .. => true
  | _ => false

mutual

/-- All nodes of a tree from left to right, each where its own token stands: an assignment or a
call behind what is on its left, every other node in front of its parts. -/
def inOrder : Tree → List Tree
  | block statements token => block statements token :: inOrderAll statements
  | assign target value token => target.inOrder ++ assign target value token :: value.inOrder
  | declare name initializer => declare name initializer :: initializer.inOrder
  | call callee arguments token =>
    callee.inOrder ++ call callee arguments token :: inOrderAll arguments
  | conditional condition body token =>
    conditional condition body token :: (condition.inOrder ++ body.inOrder)
  | debugPrint operand token => debugPrint operand token :: operand.inOrder
  | leaf => [leaf]

def inOrderAll : List Tree → List Tree
  | [] => []
  | tree :: trees => tree.inOrder ++ inOrderAll trees

end

end Tree

def Token.Kind.role? : Token.Kind → Option Tree.Role
  | .number | .truth | .text | .name => some .word
  | .if_ => some .conditional
  | .debugPrint => some .debugPrint
  | .leftCurly => some .block
  | .leftParen => some .call
  | .var | .assign | .semicolon | .rightCurly | .rightParen | .comma | .newline => none

/-! ## Marks -/

inductive Mark where
  /-- The token itself, kept by a node. -/
  | own (role : Tree.Role) (token : Token)
  /-- That some token of the kind was there. -/
  | sign (kind : Token.Kind)
deriving DecidableEq

def Token.mark? (token : Token) : Option Mark :=
  match token.kind.role? with
  | some role => some (.own role token)
  | none =>
    if token.kind ∈ [.newline, .semicolon, .comma] then none else some (.sign token.kind)

namespace Tree

mutual

def marks : Tree → List Mark
  | block statements (some token) =>
    .own .block token :: (marksAll statements ++ [.sign .rightCurly])
  | block statements none => marksAll statements
  | literal token _ | reference token => [.own .word token]
  | assign target value _ => target.marks ++ .sign .assign :: value.marks
  | declare name initializer =>
    .sign .var :: .own .word name :: .sign .assign :: initializer.marks
  | call callee arguments token =>
    callee.marks ++ .own .call token :: (marksAll arguments ++ [.sign .rightParen])
  | conditional condition body token =>
    .own .conditional token :: (condition.marks ++ body.marks)
  | debugPrint operand token => .own .debugPrint token :: operand.marks
  | foreign _ => []

def marksAll : List Tree → List Mark
  | [] => []
  | tree :: trees => tree.marks ++ marksAll trees

end

end Tree

namespace Grammar

theorem Newlines.marks {gap : List Token} (h : Newlines gap) : gap.filterMap Token.mark? = [] := by
  rw [List.filterMap_eq_nil_iff]
  intro token htoken
  simp [Token.mark?, h token htoken, Token.Kind.role?]

theorem Factor.marks {token : Token} {leaf : Tree} (h : Factor token leaf) :
    leaf.marks = [.own .word token] ∧ token.mark? = some (.own .word token) := by
  cases h <;> simp_all [Tree.marks, Token.mark?, Token.Kind.role?]

theorem Separator.marks {tokens : List Token} (h : Separator tokens) :
    tokens.filterMap Token.mark? = [] := by
  cases h with
  | semicolon hkind hgap =>
      simp [Token.mark?, hkind, Token.Kind.role?, hgap.marks]
  | newline hkind hgap =>
      simp [Token.mark?, hkind, Token.Kind.role?, hgap.marks]

theorem Expression.marks {tokens : List Token} {tree : Tree} (h : Expression tokens tree) :
    tree.marks = tokens.filterMap Token.mark? := by
  -- A suffix adds its marks behind those of what stands in front of it.
  refine @Expression.rec
    (fun tokens tree _ => tree.marks = tokens.filterMap Token.mark?)
    (fun leaf tokens tree _ => tree.marks = leaf.marks ++ tokens.filterMap Token.mark?)
    (fun tokens values _ => Tree.marksAll values = tokens.filterMap Token.mark?)
    (fun tokens values _ => Tree.marksAll values = tokens.filterMap Token.mark?)
    ?intro ?nil ?assign ?call ?none ?some ?last ?trailing ?next tokens tree h
  case intro =>
    intro gap suffix token leaf tree hgap hfactor _ ih
    obtain ⟨hleaf, htoken⟩ := hfactor.marks
    simp [ih, hleaf, htoken, hgap.marks]
  case nil => simp
  case assign =>
    intro target value equals right hequals _ ih
    simp [Tree.marks, ih, Token.mark?, hequals, Token.Kind.role?]
  case call =>
    intro callee tree values opening closing inside others hopening _ hclosing _ ihInside ihOthers
    simp [Tree.marks, ihInside, ihOthers, Token.mark?, hopening, hclosing, Token.Kind.role?]
  case none =>
    intro gap hgap
    simp [Tree.marksAll, hgap.marks]
  case some =>
    intro gap first after others value values hgap _ hafter _ ihFirst ihOthers
    simp [Tree.marksAll, ihFirst, ihOthers, hgap.marks, hafter.marks]
  case last => simp [Tree.marksAll]
  case trailing =>
    intro comma gap hcomma hgap
    simp [Tree.marksAll, Token.mark?, hcomma, Token.Kind.role?, hgap.marks]
  case next =>
    intro comma gap next after others value values hcomma hgap _ hafter _ ihNext ihOthers
    simp [Tree.marksAll, ihNext, ihOthers, Token.mark?, hcomma, Token.Kind.role?, hgap.marks,
      hafter.marks]

/-- The marks of trees are those of the tokens that spell them, in the same order. -/
theorem Statements.marks {tokens : List Token} {trees : List Tree} (h : Statements tokens trees) :
    Tree.marksAll trees = tokens.filterMap Token.mark? := by
  refine @Statements.rec
    (fun tokens tree _ => tree.marks = tokens.filterMap Token.mark?)
    (fun tokens trees _ => Tree.marksAll trees = tokens.filterMap Token.mark?)
    (fun tokens trees _ => Tree.marksAll trees = tokens.filterMap Token.mark?)
    ?declaration ?block ?conditional ?debugPrint ?expression ?none ?some ?last ?trailing ?next
    tokens trees h
  case declaration =>
    intro keyword name equals gap right value hkeyword hgap hname hequals hright
    simp [Tree.marks, hright.marks, Token.mark?, hkeyword, hname, hequals, Token.Kind.role?,
      hgap.marks]
  case block =>
    intro opening closing inside trees hopening _ hclosing ih
    simp [Tree.marks, ih, Token.mark?, hopening, hclosing, Token.Kind.role?]
  case conditional =>
    intro keyword test gap inner condition body hkeyword htest hgap _ ih
    simp [Tree.marks, htest.marks, ih, Token.mark?, hkeyword, Token.Kind.role?, hgap.marks]
  case debugPrint =>
    intro marker inner operand hmarker hinner
    simp [Tree.marks, hinner.marks, Token.mark?, hmarker, Token.Kind.role?]
  case expression =>
    intro tokens tree hexpression
    exact hexpression.marks
  case none =>
    intro gap hgap
    simp [Tree.marksAll, hgap.marks]
  case some =>
    intro gap first others tree trees hgap _ _ ihFirst ihOthers
    simp [Tree.marksAll, ihFirst, ihOthers, hgap.marks]
  case last => simp [Tree.marksAll]
  case trailing =>
    intro separator hseparator
    simp [Tree.marksAll, hseparator.marks]
  case next =>
    intro separator next others tree trees hseparator _ _ ihNext ihOthers
    simp [Tree.marksAll, ihNext, ihOthers, hseparator.marks]

end Grammar

/-! ## Marks and nodes -/

def Mark.token? (role : Tree.Role) : Mark → Option Token
  | own other token => if other = role then some token else none
  | sign _ => none

theorem Token.filterMap_mark? (role : Tree.Role) (tokens : List Token) :
    (tokens.filterMap Token.mark?).filterMap (Mark.token? role) =
      tokens.filter fun token => token.kind.role? = some role := by
  have hmark : ∀ token : Token, token.mark?.bind (Mark.token? role) =
      if token.kind.role? = some role then some token else none := by
    intro token
    unfold Token.mark?
    cases token.kind.role? with
    | some other => by_cases heq : other = role <;> simp [Mark.token?, heq]
    | none =>
        dsimp only
        split <;> simp [Mark.token?]
  induction tokens with
  | nil => rfl
  | cons token tokens ih =>
      have hmark := hmark token
      rw [List.filter_cons, ← ih, List.filterMap_cons]
      by_cases hrole : token.kind.role? = some role
      · rw [if_pos hrole, Option.bind_eq_some_iff] at hmark
        obtain ⟨mark, hsome, htoken⟩ := hmark
        simp [hsome, htoken, hrole]
      · rw [if_neg hrole] at hmark
        cases hsome : token.mark? with
        | none => simp [hrole]
        | some mark =>
            rw [hsome, Option.bind_some] at hmark
            simp [hmark, hrole]

theorem Token.count_filterMap_mark? {kind : Token.Kind}
    (hkind : kind ∈ [Token.Kind.var, .assign, .rightCurly, .rightParen]) (tokens : List Token) :
    (tokens.filterMap Token.mark?).count (.sign kind) =
      tokens.countP fun token => token.kind = kind := by
  have hmark : ∀ token : Token, token.mark? = some (.sign kind) ↔ token.kind = kind := by
    intro token
    unfold Token.mark?
    simp only [List.mem_cons, List.not_mem_nil, or_false] at hkind
    rcases hkind with rfl | rfl | rfl | rfl <;> cases token.kind <;> simp [Token.Kind.role?]
  induction tokens with
  | nil => rfl
  | cons token tokens ih =>
      have hmark := hmark token
      rw [List.filterMap_cons, List.countP_cons, ← ih]
      cases hcase : token.mark? with
      | none => simp_all
      | some mark =>
          rw [hcase, Option.some.injEq] at hmark
          rw [List.count_cons]
          simp [hmark]

namespace Tree

mutual

/-- The nodes of a tree, from left to right, are all its nodes. -/
theorem inOrder_perm (tree : Tree) : tree.inOrder.Perm tree.preorder := by
  match tree with
  | block statements token => exact (inOrderAll_perm statements).cons _
  | literal _ _ | reference _ | foreign _ => exact .refl _
  | assign target value token =>
      refine List.perm_middle.trans (.cons _ ?_)
      exact (inOrder_perm target).append (inOrder_perm value)
  | declare name initializer => exact (inOrder_perm initializer).cons _
  | call callee arguments token =>
      refine List.perm_middle.trans (.cons _ ?_)
      exact (inOrder_perm callee).append (inOrderAll_perm arguments)
  | conditional condition body token =>
      exact ((inOrder_perm condition).append (inOrder_perm body)).cons _
  | debugPrint operand token => exact (inOrder_perm operand).cons _

theorem inOrderAll_perm (trees : List Tree) : (inOrderAll trees).Perm (preorderAll trees) := by
  match trees with
  | [] => exact .refl _
  | tree :: trees => exact (inOrder_perm tree).append (inOrderAll_perm trees)

end

def ownToken? (role : Role) (node : Tree) : Option Token :=
  if node.role? = some role then node.token? else none

private theorem filterMap_filter_role? (role : Role) (nodes : List Tree) :
    (nodes.filter fun node => node.role? = some role).filterMap token? =
      nodes.filterMap (ownToken? role) := by
  rw [List.filterMap_filter]
  simp only [decide_eq_true_eq]
  rfl

mutual

theorem filterMap_inOrder (role : Role) (tree : Tree) :
    tree.inOrder.filterMap (ownToken? role) = tree.marks.filterMap (Mark.token? role) := by
  match tree with
  | block statements (some token) | block statements none =>
      cases role <;> simp [inOrder, marks, ownToken?, role?, token?, Mark.token?,
        List.filterMap_cons, filterMap_inOrderAll]
  | literal _ _ | reference _ | foreign _ =>
      cases role <;> simp [inOrder, marks, ownToken?, role?, token?, Mark.token?]
  | assign target value token =>
      simp [inOrder, marks, ownToken?, role?, Mark.token?, List.filterMap_cons,
        filterMap_inOrder role target, filterMap_inOrder role value]
  | declare name initializer =>
      cases role <;> simp [inOrder, marks, ownToken?, role?, token?, Mark.token?,
        List.filterMap_cons, filterMap_inOrder]
  | call callee arguments token =>
      cases role <;> simp [inOrder, marks, ownToken?, role?, token?, Mark.token?,
        List.filterMap_cons, filterMap_inOrder, filterMap_inOrderAll]
  | conditional condition body token =>
      cases role <;> simp [inOrder, marks, ownToken?, role?, token?, Mark.token?, filterMap_inOrder]
  | debugPrint operand token =>
      cases role <;> simp [inOrder, marks, ownToken?, role?, token?, Mark.token?, filterMap_inOrder]

theorem filterMap_inOrderAll (role : Role) (trees : List Tree) :
    (inOrderAll trees).filterMap (ownToken? role) =
      (marksAll trees).filterMap (Mark.token? role) := by
  match trees with
  | [] => rfl
  | tree :: trees =>
      simp [inOrderAll, marksAll, filterMap_inOrder role tree, filterMap_inOrderAll role trees]

end

/-- How often signs stand among the marks of nodes. -/
structure Counts (marks : List Mark) (nodes : List Tree) : Prop where
  var : marks.count (.sign .var) = nodes.countP isDeclaration
  assign : marks.count (.sign .assign) = nodes.countP isDeclaration + nodes.countP isAssignment
  curly : marks.count (.sign .rightCurly) = (marks.filterMap (Mark.token? .block)).length
  paren : marks.count (.sign .rightParen) = (marks.filterMap (Mark.token? .call)).length

theorem Counts.append {marks marks' : List Mark} {nodes nodes' : List Tree}
    (h : Counts marks nodes) (h' : Counts marks' nodes') :
    Counts (marks ++ marks') (nodes ++ nodes') where
  var := by rw [List.count_append, List.countP_append, h.var, h'.var]
  assign := by
    rw [List.count_append, List.countP_append, List.countP_append, h.assign, h'.assign]
    omega
  curly := by rw [List.count_append, List.filterMap_append, List.length_append, h.curly, h'.curly]
  paren := by rw [List.count_append, List.filterMap_append, List.length_append, h.paren, h'.paren]

theorem Counts.cons {marks : List Mark} {nodes : List Tree} {role : Role} {token : Token}
    {node : Tree} (h : Counts marks nodes) (hrole : role ≠ .block ∧ role ≠ .call)
    (hnode : node.isDeclaration = false ∧ node.isAssignment = false) :
    Counts (.own role token :: marks) (node :: nodes) := by
  refine ⟨?_, ?_, ?_, ?_⟩
  · simp [h.var, hnode]
  · simp [h.assign, hnode]
  · simp [h.curly, hrole, Mark.token?]
  · simp [h.paren, hrole, Mark.token?]

mutual

theorem counts_marks (tree : Tree) : Counts tree.marks tree.inOrder := by
  match tree with
  | block statements (some token) =>
      have h := counts_marksAll statements
      refine ⟨?_, ?_, ?_, ?_⟩
      · simp [inOrder, marks, h.var, isDeclaration]
      · simp [inOrder, marks, h.assign, isDeclaration, isAssignment]
      · simp [marks, h.curly, Mark.token?]
      · simp [marks, h.paren, Mark.token?]
  | block statements none =>
      have h := counts_marksAll statements
      refine ⟨?_, ?_, h.curly, h.paren⟩
      · simp [inOrder, marks, h.var, isDeclaration]
      · simp [inOrder, marks, h.assign, isDeclaration, isAssignment]
  | literal _ _ | reference _ => exact .cons ⟨rfl, rfl, rfl, rfl⟩ (by decide) ⟨rfl, rfl⟩
  | foreign _ => exact ⟨rfl, rfl, rfl, rfl⟩
  | assign target value token =>
      refine (counts_marks target).append ?_
      have h := counts_marks value
      refine ⟨?_, ?_, h.curly, h.paren⟩
      · simp [h.var, isDeclaration]
      · simp [h.assign, List.countP_cons, isDeclaration, isAssignment, Nat.add_assoc]
  | declare name initializer =>
      have h := counts_marks initializer
      refine ⟨?_, ?_, ?_, ?_⟩
      · simp [inOrder, marks, h.var, List.countP_cons, isDeclaration]
      · simp [inOrder, marks, h.assign, List.countP_cons, isDeclaration, isAssignment]
        omega
      · simp [marks, h.curly, List.filterMap_cons, Mark.token?]
      · simp [marks, h.paren, List.filterMap_cons, Mark.token?]
  | call callee arguments token =>
      refine (counts_marks callee).append ?_
      have h := counts_marksAll arguments
      refine ⟨?_, ?_, ?_, ?_⟩
      · simp [h.var, isDeclaration]
      · simp [h.assign, isDeclaration, isAssignment]
      · simp [h.curly, Mark.token?]
      · simp [h.paren, Mark.token?]
  | conditional condition body token =>
      exact ((counts_marks condition).append (counts_marks body)).cons (by decide) ⟨rfl, rfl⟩
  | debugPrint operand token => exact (counts_marks operand).cons (by decide) ⟨rfl, rfl⟩

theorem counts_marksAll (trees : List Tree) : Counts (marksAll trees) (inOrderAll trees) := by
  match trees with
  | [] => exact ⟨rfl, rfl, rfl, rfl⟩
  | tree :: trees => exact (counts_marks tree).append (counts_marksAll trees)

end

end Tree

/-- Parsing loses no token, makes none twice and puts none elsewhere.  The words of the trees, and
the own tokens of conditionals, debug output, blocks and calls, are the tokens of their kinds in the
order in which they were read.  There is an equals sign for every declaration and assignment, the
word that introduces it for every declaration, and a closing bracket for every opening one. -/
theorem TokenStream.program_keeps_tokens {file : String} {stream : TokenStream}
    {trees : List Tree} (h : stream.program file = .ok trees) :
    let nodes := Tree.inOrderAll trees
    nodes.Perm (Tree.preorderAll trees) ∧
    (∀ role, (nodes.filter fun node => node.role? = some role).filterMap Tree.token? =
      stream.tokens.filter fun token => token.kind.role? = some role) ∧
    stream.tokens.countP (·.kind = .assign) =
      nodes.countP Tree.isDeclaration + nodes.countP Tree.isAssignment ∧
    stream.tokens.countP (·.kind = .var) = nodes.countP Tree.isDeclaration ∧
    stream.tokens.countP (·.kind = .rightCurly) = stream.tokens.countP (·.kind = .leftCurly) ∧
    stream.tokens.countP (·.kind = .rightParen) = stream.tokens.countP (·.kind = .leftParen) := by
  have hmarks := (program_reads h).marks
  have hcounts := Tree.counts_marksAll trees
  have hown : ∀ role, (Tree.marksAll trees).filterMap (Mark.token? role) =
      stream.tokens.filter fun token => token.kind.role? = some role := by
    intro role
    rw [hmarks, Token.filterMap_mark?]
  have hsign : ∀ kind ∈ [Token.Kind.var, .assign, .rightCurly, .rightParen],
      (Tree.marksAll trees).count (.sign kind) = stream.tokens.countP (·.kind = kind) := by
    intro kind hkind
    rw [hmarks, Token.count_filterMap_mark? hkind]
  have hopening : ∀ role opening, (∀ kind : Token.Kind, kind.role? = some role ↔ kind = opening) →
      ((Tree.marksAll trees).filterMap (Mark.token? role)).length =
        stream.tokens.countP (·.kind = opening) := by
    intro role opening hrole
    rw [hown, ← List.countP_eq_length_filter]
    simp only [hrole]
  refine ⟨Tree.inOrderAll_perm trees, ?_, ?_, ?_, ?_, ?_⟩
  · intro role
    rw [← hown, ← Tree.filterMap_inOrderAll, Tree.filterMap_filter_role?]
  · rw [← hsign _ (by decide), hcounts.assign]
  · rw [← hsign _ (by decide), hcounts.var]
  · rw [← hsign _ (by decide), hcounts.curly, hopening .block .leftCurly (by rintro ⟨⟩ <;> decide)]
  · rw [← hsign _ (by decide), hcounts.paren, hopening .call .leftParen (by rintro ⟨⟩ <;> decide)]

/-- A call of the result of a call, with an assignment among its arguments. -/
theorem TokenStream.program_keeps_tokens_nested :
    let stream := scan "var x = f(1)(y = 2,)\nif t \x7b : x \x7d" ""
    ∃ trees, stream.program "" = .ok trees ∧
      (((Tree.inOrderAll trees).filter fun node => node.role? = some .word).filterMap
        Tree.token?).map Token.text = ["x", "f", "1", "y", "2", "t", "x"] ∧
      (((Tree.inOrderAll trees).filter fun node => node.role? = some .call).filterMap
        Tree.token?).map Token.column = [10, 13] ∧
      (Tree.inOrderAll trees).countP Tree.isDeclaration +
        (Tree.inOrderAll trees).countP Tree.isAssignment = 2 := by
  dsimp only
  obtain ⟨trees, hprogram, -⟩ : ∃ trees,
      (scan "var x = f(1)(y = 2,)\nif t \x7b : x \x7d" "").program "" = .ok trees ∧
        trees.length = 2 := by
    decide +kernel
  obtain ⟨-, hown, hassign, -⟩ := program_keeps_tokens hprogram
  refine ⟨trees, hprogram, ?_, ?_, ?_⟩
  · rw [hown .word]
    decide +kernel
  · rw [hown .call]
    decide +kernel
  · rw [← hassign]
    decide +kernel

end Scriptlet
