import Scriptlet.Tree.Parse
/-!
# The grammar of programs

A declarative account of which token lists spell which trees, independent of
any parsing procedure.  `Statements` is the grammar of whole programs and of
the inside of a block; every rule names the tokens that it consumes, in order.
-/

namespace Scriptlet.Grammar

/-- A possibly empty run of newlines. -/
def Newlines (tokens : List Token) : Prop :=
  ∀ token ∈ tokens, token.kind = .newline

/-- The one-token expressions. -/
inductive Factor : Token → Tree → Prop
  | number {token : Token} : token.kind = .number → Factor token (.literal token .integer)
  | truth {token : Token} : token.kind = .truth → Factor token (.literal token .truth)
  | text {token : Token} : token.kind = .text → Factor token (.literal token .text)
  | name {token : Token} : token.kind = .name → Factor token (.reference token)

mutual

/-- `expr ::= NL* factor suffix` -/
inductive Expression : List Token → Tree → Prop
  | intro {gap suffix : List Token} {token : Token} {leaf tree : Tree} :
      Newlines gap → Factor token leaf → Suffix leaf suffix tree →
      Expression (gap ++ token :: suffix) tree

/-- `suffix ::= call* ['=' expr]`.  The first tree is what stands before the
suffix, so that calls nest to the left and an assignment ends the chain. -/
inductive Suffix : Tree → List Token → Tree → Prop
  | nil {tree : Tree} : Suffix tree [] tree
  | assign {target value : Tree} {equals : Token} {right : List Token} :
      equals.kind = .assign → Expression right value →
      Suffix target (equals :: right) (.assign target value equals)
  | call {callee tree : Tree} {values : List Tree} {opening closing : Token}
      {inside others : List Token} :
      opening.kind = .leftParen → Arguments inside values → closing.kind = .rightParen →
      Suffix (.call callee values opening) others tree →
      Suffix callee (opening :: (inside ++ closing :: others)) tree

/-- `NL* [expr NL* (',' NL* expr NL*)* [',' NL*]]` -/
inductive Arguments : List Token → List Tree → Prop
  | nil {gap : List Token} : Newlines gap → Arguments gap []
  | cons {gap first after others : List Token} {value : Tree} {values : List Tree} :
      Newlines gap → Expression first value → Newlines after →
      MoreArguments others values →
      Arguments (gap ++ (first ++ (after ++ others))) (value :: values)

/-- `(',' NL* expr NL*)* [',' NL*]` -/
inductive MoreArguments : List Token → List Tree → Prop
  | nil : MoreArguments [] []
  | trailing {comma : Token} {gap : List Token} :
      comma.kind = .comma → Newlines gap → MoreArguments (comma :: gap) []
  | cons {comma : Token} {gap next after others : List Token} {value : Tree}
      {values : List Tree} :
      comma.kind = .comma → Newlines gap → Expression next value → Newlines after →
      MoreArguments others values →
      MoreArguments (comma :: (gap ++ (next ++ (after ++ others)))) (value :: values)

end

/-- `sep ::= ';' NL* | NL NL*` -/
inductive Separator : List Token → Prop
  | semicolon {token : Token} {gap : List Token} :
      token.kind = .semicolon → Newlines gap → Separator (token :: gap)
  | newline {token : Token} {gap : List Token} :
      token.kind = .newline → Newlines gap → Separator (token :: gap)

mutual

/-- `stmt ::= 'var' NL* NAME '=' expr | '{' stmts '}' | 'if' expr NL* stmt | ':' expr | expr` -/
inductive Statement : List Token → Tree → Prop
  | declaration {keyword name equals : Token} {gap right : List Token} {value : Tree} :
      keyword.kind = .var → Newlines gap → name.kind = .name → equals.kind = .assign →
      Expression right value →
      Statement (keyword :: (gap ++ name :: equals :: right)) (.declare name value)
  | block {opening closing : Token} {inside : List Token} {trees : List Tree} :
      opening.kind = .leftCurly → Statements inside trees → closing.kind = .rightCurly →
      Statement (opening :: (inside ++ [closing])) (.block trees (some opening))
  | conditional {keyword : Token} {test gap inner : List Token} {condition body : Tree} :
      keyword.kind = .if_ → Expression test condition → Newlines gap → Statement inner body →
      Statement (keyword :: (test ++ (gap ++ inner))) (.conditional condition body keyword)
  | debugPrint {marker : Token} {inner : List Token} {operand : Tree} :
      marker.kind = .debugPrint → Expression inner operand →
      Statement (marker :: inner) (.debugPrint operand marker)
  | expression {tokens : List Token} {tree : Tree} :
      Expression tokens tree → Statement tokens tree

/-- `stmts ::= NL* [stmt (sep stmt)* [sep]]` -/
inductive Statements : List Token → List Tree → Prop
  | nil {gap : List Token} : Newlines gap → Statements gap []
  | cons {gap first others : List Token} {tree : Tree} {trees : List Tree} :
      Newlines gap → Statement first tree → MoreStatements others trees →
      Statements (gap ++ (first ++ others)) (tree :: trees)

/-- `(sep stmt)* [sep]` -/
inductive MoreStatements : List Token → List Tree → Prop
  | nil : MoreStatements [] []
  | trailing {separator : List Token} : Separator separator → MoreStatements separator []
  | cons {separator next others : List Token} {tree : Tree} {trees : List Tree} :
      Separator separator → Statement next tree → MoreStatements others trees →
      MoreStatements (separator ++ (next ++ others)) (tree :: trees)

end

/-! ## Runs of newlines -/

theorem newlines_nil : Newlines [] := by
  simp [Newlines]

theorem newlines_cons {token : Token} {tokens : List Token} :
    Newlines (token :: tokens) ↔ token.kind = .newline ∧ Newlines tokens := by
  simp [Newlines]

theorem newlines_append {left right : List Token} :
    Newlines (left ++ right) ↔ Newlines left ∧ Newlines right := by
  simp [Newlines, or_imp, forall_and]

/-! ## First tokens -/

/-- The kinds of tokens that an expression starts with, newlines apart. -/
def startsExpression (kind : Token.Kind) : Prop :=
  kind = .number ∨ kind = .truth ∨ kind = .text ∨ kind = .name

theorem Factor.starts {token : Token} {tree : Tree} (h : Factor token tree) :
    startsExpression token.kind := by
  cases h <;> simp_all [startsExpression]

/-- No suffix of an expression can start with these tokens. -/
def Stops (tokens : List Token) : Prop :=
  ∀ token ∈ tokens.head?, token.kind ≠ .assign ∧ token.kind ≠ .leftParen

theorem stops_nil : Stops [] := by
  simp [Stops]

theorem stops_cons {token : Token} {tokens : List Token} :
    Stops (token :: tokens) ↔ token.kind ≠ .assign ∧ token.kind ≠ .leftParen := by
  simp [Stops]

theorem stops_newlines_append {gap tokens : List Token} (hgap : Newlines gap)
    (htokens : Stops tokens) : Stops (gap ++ tokens) := by
  cases gap with
  | nil => exact htokens
  | cons token gap =>
      have htoken := (newlines_cons.1 hgap).1
      rw [List.cons_append, stops_cons, htoken]
      decide

theorem Expression.stops_append {tokens : List Token} {tree : Tree}
    (h : Expression tokens tree) (rest : List Token) : Stops (tokens ++ rest) := by
  obtain ⟨hgap, hfactor, _⟩ := h
  rw [List.append_assoc]
  apply stops_newlines_append hgap
  rw [List.cons_append, stops_cons]
  rcases hfactor.starts with h | h | h | h <;> rw [h] <;> decide

theorem Statement.stops_append {tokens : List Token} {tree : Tree}
    (h : Statement tokens tree) (rest : List Token) : Stops (tokens ++ rest) := by
  cases h with
  | declaration hkeyword => rw [List.cons_append, stops_cons, hkeyword]; decide
  | block hopening => rw [List.cons_append, stops_cons, hopening]; decide
  | conditional hkeyword => rw [List.cons_append, stops_cons, hkeyword]; decide
  | debugPrint hmarker => rw [List.cons_append, stops_cons, hmarker]; decide
  | expression hexpression => exact hexpression.stops_append rest

theorem Separator.stops_append {tokens : List Token} (h : Separator tokens)
    (rest : List Token) : Stops (tokens ++ rest) := by
  cases h with
  | semicolon htoken => rw [List.cons_append, stops_cons, htoken]; decide
  | newline htoken => rw [List.cons_append, stops_cons, htoken]; decide

end Scriptlet.Grammar
