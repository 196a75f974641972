import Mathlib.Data.List.Basic
import Scriptlet.Proofs.Analysis.Resolution
import Scriptlet.Proofs.Syntax.Recognition
import Scriptlet.Proofs.Syntax.Spelling
/-!
# What nodes are read from

The parser reads a node from consecutive tokens: those of its parts, in order, and between them the
tokens that the node takes itself.  What stands on the left of an assignment or a call is read
before the node is known to be there, so its tokens start the tokens of the node.  The place of a
node is that of the first token that is read for it, newlines apart, and of a declaration that of
the next one, its name.
-/

namespace Scriptlet

namespace Grammar

open Scriptlet.Parser (Spaced)

/-! ## Layouts -/

/-- Tokens that consist of pieces, each of which spells a tree, and of separators around them. -/
inductive Pieces (separators : List Token.Kind) : List Token → List (List Token × Tree) → Prop
  | nil {between : List Token} :
      (∀ token ∈ between, token.kind ∈ separators) → Pieces separators between []
  | cons {between own others : List Token} {tree : Tree} {pieces : List (List Token × Tree)} :
      (∀ token ∈ between, token.kind ∈ separators) → Spaced own tree →
      Pieces separators others pieces →
      Pieces separators (between ++ (own ++ others)) ((own, tree) :: pieces)

def argumentSeparators : List Token.Kind := [.newline, .comma]

def statementSeparators : List Token.Kind := [.newline, .semicolon]

/-- The parts of a node that is read from the given tokens, each with the tokens that it is read
from. -/
inductive Parts : List Token → Tree → List (List Token × Tree) → Prop
  | factor {gap : List Token} {token : Token} {leaf : Tree} :
      Newlines gap → Factor token leaf → Parts (gap ++ [token]) leaf []
  | assign {left right : List Token} {target value : Tree} {equals : Token} :
      Spaced left target → equals.kind = .assign → Spaced right value →
      Parts (left ++ equals :: right) (.assign target value equals)
        [(left, target), (right, value)]
  | call {left inside : List Token} {callee : Tree} {opening closing : Token}
      {values : List (List Token × Tree)} :
      Spaced left callee → opening.kind = .leftParen → Pieces argumentSeparators inside values →
      closing.kind = .rightParen →
      Parts (left ++ opening :: (inside ++ [closing]))
        (.call callee (values.map Prod.snd) opening) ((left, callee) :: values)
  | declaration {gap between right : List Token} {keyword name equals : Token} {value : Tree} :
      Newlines gap → keyword.kind = .var → Newlines between → name.kind = .name →
      equals.kind = .assign → Spaced right value →
      Parts (gap ++ keyword :: (between ++ name :: equals :: right)) (.declare name value)
        [(right, value)]
  | block {gap inside : List Token} {opening closing : Token}
      {statements : List (List Token × Tree)} :
      Newlines gap → opening.kind = .leftCurly → Pieces statementSeparators inside statements →
      closing.kind = .rightCurly →
      Parts (gap ++ opening :: (inside ++ [closing]))
        (.block (statements.map Prod.snd) (some opening)) statements
  | conditional {gap test inner : List Token} {keyword : Token} {condition body : Tree} :
      Newlines gap → keyword.kind = .if_ → Spaced test condition → Spaced inner body →
      Parts (gap ++ keyword :: (test ++ inner)) (.conditional condition body keyword)
        [(test, condition), (inner, body)]
  | debugPrint {gap inner : List Token} {marker : Token} {operand : Tree} :
      Newlines gap → marker.kind = .debugPrint → Spaced inner operand →
      Parts (gap ++ marker :: inner) (.debugPrint operand marker) [(inner, operand)]

/-- The tokens of a program that are read for one of its nodes: those of a statement, and those of
a part of a node that is read from the tokens that it has among those of the node. -/
inductive Extent (tokens : List Token) (trees : List Tree) : List Token → Tree → Prop
  | statement {pieces : List (List Token × Tree)} {own : List Token} {tree : Tree} :
      Pieces statementSeparators tokens pieces → pieces.map Prod.snd = trees →
      (own, tree) ∈ pieces → Extent tokens trees own tree
  | part {whole own : List Token} {tree node : Tree} {parts : List (List Token × Tree)} :
      Extent tokens trees whole tree → Parts whole tree parts → (own, node) ∈ parts →
      Extent tokens trees own node

variable {tokens own whole : List Token} {trees : List Tree} {tree node : Tree}
  {separators : List Token.Kind} {pieces parts : List (List Token × Tree)}

theorem Pieces.mem (h : Pieces separators tokens pieces) (hmem : (own, tree) ∈ pieces) :
    own <:+: tokens ∧ Spaced own tree := by
  induction h with
  | nil => cases hmem
  | cons _ hfirst _ ih =>
      rcases List.mem_cons.1 hmem with heq | hmem
      · obtain ⟨rfl, rfl⟩ := Prod.mk.inj heq
        exact ⟨List.infix_append' .., hfirst⟩
      · obtain ⟨hwithin, hspaced⟩ := ih hmem
        exact ⟨.trans hwithin (.trans List.infix_append_right List.infix_append_right), hspaced⟩

theorem Parts.mem (h : Parts whole tree parts) (hmem : (own, node) ∈ parts) :
    own <:+: whole ∧ Spaced own node := by
  cases h with
  | factor => cases hmem
  | assign htarget _ hvalue =>
      rcases List.mem_pair.1 hmem with heq | heq <;> obtain ⟨rfl, rfl⟩ := Prod.mk.inj heq
      · exact ⟨List.infix_append_left, htarget⟩
      · exact ⟨List.infix_append_of_infix_right (List.infix_cons List.infix_rfl), hvalue⟩
  | call hcallee _ hvalues =>
      rcases List.mem_cons.1 hmem with heq | hmem
      · obtain ⟨rfl, rfl⟩ := Prod.mk.inj heq
        exact ⟨List.infix_append_left, hcallee⟩
      · obtain ⟨hwithin, hspaced⟩ := hvalues.mem hmem
        refine ⟨List.infix_append_of_infix_right (List.infix_cons ?_), hspaced⟩
        exact List.infix_append_of_infix_left hwithin
  | declaration _ _ _ _ _ hvalue =>
      obtain ⟨rfl, rfl⟩ := Prod.mk.inj (List.mem_singleton.1 hmem)
      refine ⟨List.infix_append_of_infix_right (List.infix_cons ?_), hvalue⟩
      exact List.infix_append_of_infix_right (List.infix_cons (List.infix_cons List.infix_rfl))
  | block _ _ hstatements =>
      obtain ⟨hwithin, hspaced⟩ := hstatements.mem hmem
      refine ⟨List.infix_append_of_infix_right (List.infix_cons ?_), hspaced⟩
      exact List.infix_append_of_infix_left hwithin
  | conditional _ _ hcondition hbody =>
      rcases List.mem_pair.1 hmem with heq | heq <;> obtain ⟨rfl, rfl⟩ := Prod.mk.inj heq
      · refine ⟨List.infix_append_of_infix_right (List.infix_cons ?_), hcondition⟩
        exact List.infix_append_left
      · refine ⟨List.infix_append_of_infix_right (List.infix_cons ?_), hbody⟩
        exact List.infix_append_right
  | debugPrint _ _ hoperand =>
      obtain ⟨rfl, rfl⟩ := Prod.mk.inj (List.mem_singleton.1 hmem)
      exact ⟨List.infix_append_of_infix_right (List.infix_cons List.infix_rfl), hoperand⟩

theorem Parts.children (h : Parts whole tree parts) : parts.map Prod.snd = tree.children := by
  cases h with
  | factor _ hfactor => cases hfactor <;> rfl
  | assign | call | declaration | block | conditional | debugPrint => rfl

theorem Extent.spaced (h : Extent tokens trees own node) : Spaced own node := by
  cases h with
  | statement hpieces _ hmem => exact (hpieces.mem hmem).2
  | part _ hparts hmem => exact (hparts.mem hmem).2

theorem Extent.isInfix (h : Extent tokens trees own node) : own <:+: tokens := by
  induction h with
  | statement hpieces _ hmem => exact (hpieces.mem hmem).1
  | part _ hparts hmem ih => exact (hparts.mem hmem).1.trans ih

/-! ## Every node has an extent -/

theorem Expression.spaced (h : Expression tokens tree) : Spaced tokens tree :=
  ⟨[], tokens, rfl, newlines_nil, .expression h⟩

theorem Pieces.behind {between : List Token} (hbetween : ∀ token ∈ between, token.kind ∈ separators)
    (h : Pieces separators tokens pieces) : Pieces separators (between ++ tokens) pieces := by
  cases h with
  | nil hmore => exact .nil (List.forall_mem_append.2 ⟨hbetween, hmore⟩)
  | cons hmore hfirst hothers =>
      rw [← List.append_assoc]
      exact .cons (List.forall_mem_append.2 ⟨hbetween, hmore⟩) hfirst hothers

theorem Newlines.separates {gap : List Token} (h : Newlines gap)
    (hnewline : Token.Kind.newline ∈ separators) : ∀ token ∈ gap, token.kind ∈ separators := by
  intro token htoken
  rw [h token htoken]
  exact hnewline

theorem MoreArguments.exists_pieces {tokens : List Token} {values : List Tree} :
    MoreArguments tokens values →
      ∃ pieces, Pieces argumentSeparators tokens pieces ∧ pieces.map Prod.snd = values
  | .nil => ⟨[], .nil (by simp), rfl⟩
  | .trailing hcomma hgap =>
      ⟨[], .nil (List.forall_mem_cons.2
        ⟨by rw [hcomma]; decide, hgap.separates (by decide)⟩), rfl⟩
  | .cons hcomma hgap hnext hafter hothers => by
      obtain ⟨pieces, hpieces, rfl⟩ := hothers.exists_pieces
      refine ⟨_, .cons (List.forall_mem_cons.2 ⟨?_, hgap.separates (by decide)⟩) hnext.spaced
        (hpieces.behind (hafter.separates (by decide))), rfl⟩
      rw [hcomma]
      decide

theorem Arguments.exists_pieces {values : List Tree} (h : Arguments tokens values) :
    ∃ pieces, Pieces argumentSeparators tokens pieces ∧ pieces.map Prod.snd = values := by
  cases h with
  | nil hgap => exact ⟨[], .nil (hgap.separates (by decide)), rfl⟩
  | cons hgap hfirst hafter hothers =>
      obtain ⟨pieces, hpieces, rfl⟩ := hothers.exists_pieces
      exact ⟨_, .cons (hgap.separates (by decide)) hfirst.spaced
        (hpieces.behind (hafter.separates (by decide))), rfl⟩

theorem Separator.separates (h : Separator tokens) :
    ∀ token ∈ tokens, token.kind ∈ statementSeparators := by
  cases h with
  | semicolon hkind hgap | newline hkind hgap =>
      exact List.forall_mem_cons.2 ⟨by rw [hkind]; decide, hgap.separates (by decide)⟩

theorem Statement.spaced (h : Statement tokens tree) : Spaced tokens tree :=
  ⟨[], tokens, rfl, newlines_nil, h⟩

theorem MoreStatements.exists_pieces {tokens : List Token} {trees : List Tree} :
    MoreStatements tokens trees →
      ∃ pieces, Pieces statementSeparators tokens pieces ∧ pieces.map Prod.snd = trees
  | .nil => ⟨[], .nil (by simp), rfl⟩
  | .trailing hseparator => ⟨[], .nil hseparator.separates, rfl⟩
  | .cons hseparator hnext hothers => by
      obtain ⟨pieces, hpieces, rfl⟩ := hothers.exists_pieces
      exact ⟨_, .cons hseparator.separates hnext.spaced hpieces, rfl⟩

theorem Statements.exists_pieces (h : Statements tokens trees) :
    ∃ pieces, Pieces statementSeparators tokens pieces ∧ pieces.map Prod.snd = trees := by
  cases h with
  | nil hgap => exact ⟨[], .nil (hgap.separates (by decide)), rfl⟩
  | cons hgap hfirst hothers =>
      obtain ⟨pieces, hpieces, rfl⟩ := hothers.exists_pieces
      exact ⟨_, .cons (hgap.separates (by decide)) hfirst.spaced hpieces, rfl⟩

theorem Suffix.append {leaf first tree : Tree} {tokens more : List Token}
    (hfirst : ¬ first.IsAssignment) :
    Suffix leaf tokens first → Suffix first more tree → Suffix leaf (tokens ++ more) tree
  | .nil, hmore => hmore
  | .assign _ _, _ => absurd trivial hfirst
  | .call hopening hvalues hclosing hothers, hmore => by
      have hwhole := Suffix.call hopening hvalues hclosing (hothers.append hfirst hmore)
      simpa only [List.cons_append, List.append_assoc] using hwhole

/-- Along a suffix, what has been read so far is the part on the left of what is read next. -/
theorem Suffix.exists_parts {leaf first tree : Tree} {gap suffix : List Token} {token : Token}
    (hgap : Newlines gap) (hfactor : Factor token leaf) :
    Suffix first suffix tree → ∀ ⦃tokens : List Token⦄ ⦃parts : List (List Token × Tree)⦄,
      Suffix leaf tokens first → ¬ first.IsAssignment →
      Parts (gap ++ token :: tokens) first parts →
      ∃ parts, Parts (gap ++ token :: (tokens ++ suffix)) tree parts
  | .nil, _, parts, _, _, hparts => ⟨parts, by rwa [List.append_nil]⟩
  | .assign hequals hright, _, _, hleft, _, _ => by
      have hspaced := Expression.spaced (.intro hgap hfactor hleft)
      have hassign := Parts.assign hspaced hequals hright.spaced
      exact ⟨_, by simpa only [List.append_assoc, List.cons_append] using hassign⟩
  | .call hopening hvalues hclosing hothers, _, _, hleft, hfirst, _ => by
      have ih := hothers.exists_parts hgap hfactor
      have hspaced := Expression.spaced (.intro hgap hfactor hleft)
      have hstep := hleft.append hfirst (.call hopening hvalues hclosing .nil)
      obtain ⟨pieces, hpieces, rfl⟩ := hvalues.exists_pieces
      have hcall := Parts.call hspaced hopening hpieces hclosing
      rw [List.append_assoc, List.cons_append] at hcall
      obtain ⟨parts, hparts⟩ := ih hstep id hcall
      refine ⟨parts, ?_⟩
      simpa only [List.append_assoc, List.cons_append, List.nil_append] using hparts

theorem Expression.exists_parts (h : Expression tokens tree) {gap : List Token}
    (hgap : Newlines gap) : ∃ parts, Parts (gap ++ tokens) tree parts := by
  obtain ⟨hinner, hfactor, hsuffix⟩ := h
  have hall := newlines_append.2 ⟨hgap, hinner⟩
  obtain ⟨parts, hparts⟩ := hsuffix.exists_parts hall hfactor .nil hfactor.not_isAssignment
    (.factor hall hfactor)
  exact ⟨parts, by rwa [← List.append_assoc]⟩

/-- The tokens of a node fall into those of its parts and those that it takes itself. -/
theorem exists_parts (h : Spaced own tree) : ∃ parts, Parts own tree parts := by
  obtain ⟨gap, tokens, rfl, hgap, hstatement⟩ := h
  cases hstatement with
  | declaration hkeyword hbetween hname hequals hvalue =>
      exact ⟨_, .declaration hgap hkeyword hbetween hname hequals hvalue.spaced⟩
  | block hopening hinside hclosing =>
      obtain ⟨pieces, hpieces, rfl⟩ := hinside.exists_pieces
      exact ⟨_, .block hgap hopening hpieces hclosing⟩
  | conditional hkeyword htest hafter hbody =>
      exact ⟨_, .conditional hgap hkeyword htest.spaced ⟨_, _, rfl, hafter, hbody⟩⟩
  | debugPrint hmarker hoperand => exact ⟨_, .debugPrint hgap hmarker hoperand.spaced⟩
  | expression h => exact h.exists_parts hgap

/-- Every node inside of one that is read from some tokens is read from some of them. -/
theorem Extent.exists_of_mem_preorder {own : List Token} {tree : Tree}
    (h : Extent tokens trees own tree) (hnode : node ∈ tree.preorder) :
    ∃ own, Extent tokens trees own node := by
  rw [Tree.preorder_eq, List.mem_cons] at hnode
  rcases hnode with rfl | hnode
  · exact ⟨own, h⟩
  · obtain ⟨child, hchild, hnode⟩ := Tree.mem_preorderAll.1 hnode
    obtain ⟨parts, hparts⟩ := exists_parts h.spaced
    obtain ⟨⟨inner, part⟩, hpart, hsame⟩ := List.mem_map.1 (hparts.children ▸ hchild)
    have hextent : Extent tokens trees inner child := .part h hparts (hsame ▸ hpart)
    exact hextent.exists_of_mem_preorder hnode
termination_by sizeOf tree
decreasing_by exact Tree.sizeOf_lt_of_mem_children hchild

theorem Statements.exists_extent (h : Statements tokens trees)
    (hnode : node ∈ Tree.preorderAll trees) : ∃ own, Extent tokens trees own node := by
  obtain ⟨pieces, hpieces, rfl⟩ := h.exists_pieces
  obtain ⟨tree, htree, hnode⟩ := Tree.mem_preorderAll.1 hnode
  obtain ⟨⟨own, _⟩, hmem, rfl⟩ := List.mem_map.1 htree
  exact (Extent.statement hpieces rfl hmem).exists_of_mem_preorder hnode

/-! ## Places -/

/-- Newlines apart, the first of the tokens tells the place of the node.  If the node is a
declaration, the first one is the word that introduces it, the next one is the declared name, and
the place is that of the name. -/
def PlacedBy (tokens : List Token) (node : Tree) : Prop :=
  ∃ first others, tokens.filter (·.kind ≠ .newline) = first :: others ∧
    match node with
    | .declare name _ =>
      first.kind = .var ∧ others.head? = some name ∧ node.span = .ok name.span
    | _ => node.span = .ok first.span

theorem Newlines.filter_append {gap : List Token} (h : Newlines gap) (tokens : List Token) :
    (gap ++ tokens).filter (·.kind ≠ .newline) = tokens.filter (·.kind ≠ .newline) := by
  have hgap : gap.filter (·.kind ≠ .newline) = [] := by
    rw [List.filter_eq_nil_iff]
    intro token htoken
    simp [h token htoken]
  rw [List.filter_append, hgap, List.nil_append]

theorem filter_cons_of_kind {token : Token} {kind : Token.Kind} (hkind : token.kind = kind)
    (hne : kind ≠ .newline) (tokens : List Token) :
    (token :: tokens).filter (·.kind ≠ .newline) = token :: tokens.filter (·.kind ≠ .newline) :=
  List.filter_cons_of_pos (by simp [hkind, hne])

theorem Factor.span {token : Token} {leaf : Tree} (h : Factor token leaf) :
    leaf.span = .ok token.span := by
  cases h <;> rfl

/-- Whatever is called or assigned along a suffix, the place stays that of the first factor. -/
theorem Suffix.span {first tree : Tree} {tokens : List Token} :
    Suffix first tokens tree → tree.span = first.span
  | .nil => rfl
  | .assign _ _ => by rw [Tree.span]
  | .call _ _ _ hothers => by rw [hothers.span, Tree.span]

theorem Expression.placedBy (h : Expression tokens tree) : PlacedBy tokens tree := by
  have hterm : tree.TermOver fun _ => True := h.termOver fun _ _ => trivial
  obtain ⟨hgap, hfactor, hsuffix⟩ := h
  have hspan := hsuffix.span.trans hfactor.span
  refine ⟨_, _, (hgap.filter_append _).trans (List.filter_cons_of_pos ?_), ?_⟩
  · cases hfactor <;> simp [*]
  · cases hterm with
    | factor _ hleaf => cases hleaf <;> exact hspan
    | assign | call => exact hspan

theorem Statement.placedBy (h : Statement tokens tree) : PlacedBy tokens tree := by
  cases h with
  | @declaration keyword name equals gap right value hkeyword hgap hname hequals _ =>
      refine ⟨keyword, _, filter_cons_of_kind hkeyword (by decide) _, hkeyword, ?_, rfl⟩
      rw [hgap.filter_append, filter_cons_of_kind hname (by decide), List.head?_cons]
  | block hopening => exact ⟨_, _, filter_cons_of_kind hopening (by decide) _, rfl⟩
  | conditional hkeyword => exact ⟨_, _, filter_cons_of_kind hkeyword (by decide) _, rfl⟩
  | debugPrint hmarker => exact ⟨_, _, filter_cons_of_kind hmarker (by decide) _, rfl⟩
  | expression h => exact h.placedBy

private theorem placedBy_of_spaced (h : Spaced tokens tree) : PlacedBy tokens tree := by
  obtain ⟨gap, inner, rfl, hgap, hstatement⟩ := h
  obtain ⟨first, others, hfilter, hplace⟩ := hstatement.placedBy
  exact ⟨first, others, by rw [hgap.filter_append, hfilter], hplace⟩

end Grammar

/-- The place of a node is that of the first token, newlines apart, that the parser takes for it,
and of a declaration that of the declared name, the first one behind the word that introduces it.
Every node of a program is read from tokens of its own: they stand together in the program, they
start with those of what stands on the left of the node, and of them alone the parser makes the node
and nothing else. -/
theorem TokenStream.program_places_nodes {file : String} {stream : TokenStream}
    {trees : List Tree} (h : stream.program file = .ok trees) :
    (∀ node ∈ Tree.preorderAll trees, ∃ own, Grammar.Extent stream.tokens trees own node) ∧
    ∀ own node, Grammar.Extent stream.tokens trees own node →
      own <:+: stream.tokens ∧ (ofList own).program file = .ok [node] ∧
        Grammar.PlacedBy own node := by
  have hreads := program_reads h
  refine ⟨fun node hnode => hreads.exists_extent hnode, fun own node hextent => ?_⟩
  obtain ⟨gap, tokens, rfl, hgap, hstatement⟩ := hextent.spaced
  refine ⟨hextent.isInfix, ?_, Grammar.placedBy_of_spaced hextent.spaced⟩
  rw [Parser.program_eq_ok_iff]
  have hall := Grammar.Statements.cons hgap hstatement .nil
  rwa [List.append_nil] at hall

/-- A declaration over several lines, of what is assigned to the result of a call of a call. -/
theorem TokenStream.program_places_nodes_chained :
    let stream := scan "if t \x7b\n var\n x = f(1)(y) =\n 2\n\x7d" ""
    ∃ trees, stream.program "" = .ok trees ∧
      (∀ node ∈ Tree.preorderAll trees, ∃ own, own <:+: stream.tokens ∧
        (ofList own).program "" = .ok [node] ∧ Grammar.PlacedBy own node) ∧
      (Tree.preorderAll trees).map (fun node => node.span.toOption.map fun span =>
          (span.line, span.column)) =
        [(1, 1), (1, 4), (1, 6), (3, 2), (3, 6), (3, 6), (3, 6), (3, 6), (3, 8), (3, 11),
          (4, 2)].map some := by
  dsimp only
  obtain ⟨trees, hprogram, hspans⟩ : ∃ trees,
      (scan "if t \x7b\n var\n x = f(1)(y) =\n 2\n\x7d" "").program "" = .ok trees ∧
      (Tree.preorderAll trees).map (fun node => node.span.toOption.map fun span =>
          (span.line, span.column)) =
        [(1, 1), (1, 4), (1, 6), (3, 2), (3, 6), (3, 6), (3, 6), (3, 6), (3, 8), (3, 11),
          (4, 2)].map some := by
    decide +kernel
  obtain ⟨hextents, hplaces⟩ := program_places_nodes hprogram
  refine ⟨trees, hprogram, ?_, hspans⟩
  intro node hnode
  obtain ⟨own, hown⟩ := hextents node hnode
  exact ⟨own, hplaces own node hown⟩

end Scriptlet
