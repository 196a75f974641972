import Scriptlet.Sexp
import Scriptlet.Tree
/-!
# Syntax trees as S-expressions
-/

namespace Scriptlet

/-- The S-expression of a literal of the given sort and text.  Integers made of digits alone are
shown by value. -/
def Sexp.ofLiteral (kind : Primitive.Kind) (text : String) : Except HostError Sexp :=
  match kind with
  | .integer =>
    let chars := text.toList
    if !chars.isEmpty && chars.all Text.isAnyDigit then
      match Numeral.read text with
      | .ok value => .ok (.list [.word kind.label, .datum (.integer value)])
      | .error error => .error (.numeral error)
    else .ok (.list [.word kind.label, .word text])
  | .truth => .ok (.list [.word kind.label, .datum (.truth (text = "true"))])
  | .text => .ok (.list [.word kind.label, .text text])
  | .decimal => .ok (.list [.word kind.label, .word text])

namespace Tree

mutual

def toSexp : Tree → Except HostError Sexp
  | block statements _ => do return .list (.word "block" :: (← toSexpAll statements))
  | literal token kind => Sexp.ofLiteral kind token.text
  | reference name => .ok (.list [.word "var-ref", .word name.text])
  | declare name initializer => do
    return .list [.word "declare", .word name.text, ← initializer.toSexp]
  | assign target value _ => do
    return .list [.word "assign", ← target.toSexp, ← value.toSexp]
  | call callee arguments _ => do
    let head ← callee.toSexp
    return .list (.word "call" :: head :: (← toSexpAll arguments))
  | conditional condition body _ => do
    return .list [.word "if", ← condition.toSexp, ← body.toSexp]
  | debugPrint operand _ => do return .list [.word "debug-print", ← operand.toSexp]
  | foreign sort => .error (.foreignDump sort)

def toSexpAll : List Tree → Except HostError (List Sexp)
  | [] => .ok []
  | tree :: trees => do
    let first ← tree.toSexp
    return first :: (← toSexpAll trees)

end

def dump (page : Sexp.Page) (tree : Tree) : Except HostError String := do
  return (← tree.toSexp).render page 0

/-- The dump of several trees, each followed by a newline. -/
def dumpAll (page : Sexp.Page) (trees : List Tree) : Except HostError String := do
  return String.join ((← trees.mapM (dump page)).map (· ++ "\n"))

end Tree

end Scriptlet
