import Scriptlet.HostError
import Scriptlet.Primitive
import Scriptlet.Token
/-!
# Syntax trees

The statements and expressions of a program as the parser builds them.  Names are still tokens.  A
tree that an embedding program assembles by itself may hold foreign nodes, which have no meaning.
-/

namespace Scriptlet

/-- A statement or an expression. -/
inductive Tree where
  /-- Statements between braces; a whole program has no opening brace. -/
  | block (statements : List Tree) (token : Option Token)
  | literal (token : Token) (kind : Primitive.Kind)
  | reference (name : Token)
  /-- Any expression may stand on the left; only the analysis insists on a variable. -/
  | assign (target value : Tree) (token : Token)
  | declare (name : Token) (initializer : Tree)
  | call (callee : Tree) (arguments : List Tree) (token : Token)
  | conditional (condition body : Tree) (token : Token)
  | debugPrint (operand : Tree) (token : Token)
  | foreign (sort : String)
deriving Repr, Inhabited

namespace Tree

/-- The place that errors about a tree name: where its first token stands, and of a declaration the
declared name. -/
def span : Tree → Except HostError Span
  | literal token _ | conditional _ _ token | debugPrint _ token => .ok token.span
  | reference name | declare name _ => .ok name.span
  | assign target _ _ => target.span
  | call callee _ _ => callee.span
  | block _ (some token) => .ok token.span
  | block (first :: _) none => first.span
  | block [] none => .ok Span.unknown
  | foreign sort => .error (.noPlace sort)

def token? : Tree → Option Token
  | block _ token => token
  | literal token _ | reference token | assign _ _ token | declare token _ | call _ _ token
  | conditional _ _ token | debugPrint _ token => some token
  | foreign _ => none

/-- A short label for an expression in messages. -/
def describe : Tree → String
  | reference name => name.text
  | literal token _ => token.spelling
  | call callee _ _ => callee.describe ++ "(...)"
  | assign target _ _ => target.describe ++ " = ..."
  | _ => "expression"

mutual

/-- All nodes of a tree, each before its children. -/
def preorder : Tree → List Tree
  | block statements token => block statements token :: preorderAll statements
  | assign target value token => assign target value token :: (target.preorder ++ value.preorder)
  | declare name initializer => declare name initializer :: initializer.preorder
  | call callee arguments token =>
    call callee arguments token :: (callee.preorder ++ preorderAll arguments)
  | conditional condition body token =>
    conditional condition body token :: (condition.preorder ++ body.preorder)
  | debugPrint operand token => debugPrint operand token :: operand.preorder
  | leaf => [leaf]

def preorderAll : List Tree → List Tree
  | [] => []
  | tree :: trees => tree.preorder ++ preorderAll trees

end

mutual

def same : Tree → Tree → Bool
  | block statements token, block statements' token' =>
    sameAll statements statements' && token == token'
  | literal token kind, literal token' kind' => token == token' && kind == kind'
  | reference name, reference name' => name == name'
  | assign target value token, assign target' value' token' =>
    target.same target' && value.same value' && token == token'
  | declare name initializer, declare name' initializer' =>
    name == name' && initializer.same initializer'
  | call callee arguments token, call callee' arguments' token' =>
    callee.same callee' && sameAll arguments arguments' && token == token'
  | conditional condition body token, conditional condition' body' token' =>
    condition.same condition' && body.same body' && token == token'
  | debugPrint operand token, debugPrint operand' token' =>
    operand.same operand' && token == token'
  | foreign sort, foreign sort' => sort == sort'
  | _, _ => false

def sameAll : List Tree → List Tree → Bool
  | [], [] => true
  | tree :: trees, tree' :: trees' => tree.same tree' && sameAll trees trees'
  | _, _ => false

end

mutual

theorem same_iff : (tree tree' : Tree) → (tree.same tree' = true ↔ tree = tree')
  | block statements _, tree' => by cases tree' <;> simp [same, sameAll_iff statements]
  | literal _ _, tree' => by cases tree' <;> simp [same]
  | reference _, tree' => by cases tree' <;> simp [same]
  | assign target value _, tree' => by
      cases tree' <;> simp [same, same_iff target, same_iff value, and_assoc]
  | declare _ initializer, tree' => by cases tree' <;> simp [same, same_iff initializer]
  | call callee arguments _, tree' => by
      cases tree' <;> simp [same, same_iff callee, sameAll_iff arguments, and_assoc]
  | conditional condition body _, tree' => by
      cases tree' <;> simp [same, same_iff condition, same_iff body, and_assoc]
  | debugPrint operand _, tree' => by cases tree' <;> simp [same, same_iff operand]
  | foreign _, tree' => by cases tree' <;> simp [same]

theorem sameAll_iff : (trees trees' : List Tree) → (sameAll trees trees' = true ↔ trees = trees')
  | [], trees' => by cases trees' <;> simp [sameAll]
  | tree :: trees, trees' => by
      cases trees' <;> simp [sameAll, same_iff tree, sameAll_iff trees]

end

instance : DecidableEq Tree :=
  fun tree tree' => decidable_of_iff (tree.same tree' = true) (same_iff tree tree')

end Tree

end Scriptlet
