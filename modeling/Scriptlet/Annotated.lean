import Scriptlet.Scope
import Scriptlet.Sexp
import Scriptlet.Tree.Dump
/-!
# Annotated trees

Syntax trees in which names are resolved: every name is the identity of its symbol, and every block
bears the identity of its scope.
-/

namespace Scriptlet

/-- A statement or an expression with its names resolved. -/
inductive Annotated where
  | block (statements : List Annotated) (scope : ScopeId) (token : Option Token)
  | literal (token : Token) (kind : Primitive.Kind)
  | reference (symbol : SymbolId) (token : Token)
  | declare (symbol : SymbolId) (initializer : Annotated) (token : Token)
  | assign (symbol : SymbolId) (value : Annotated) (token : Token)
  | call (callee : Annotated) (arguments : List Annotated) (token : Token)
  | conditional (condition body : Annotated) (token : Token)
  | debugPrint (operand : Annotated) (token : Token)
  | foreign (sort : String)
deriving Repr, Inhabited

/-- What dumps refer to by a label: scopes, symbols, and the identity that belongs to neither. -/
inductive Identity where
  | absent
  | scope (id : ScopeId)
  | symbol (id : SymbolId)
deriving DecidableEq, Repr, Inhabited

namespace Identity

def ofScope (id : ScopeId) : Identity :=
  if id = ScopeId.absent then absent else scope id

def ofSymbol (id : SymbolId) : Identity :=
  if id = SymbolId.absent then absent else symbol id

end Identity

/-- The identities that dumps have mentioned so far, in the order of their first mention. -/
structure Labels where
  mentioned : List Identity
deriving DecidableEq, Repr, Inhabited

/-- The label of an identity: the number of its first mention, in eight hexadecimal digits. -/
def Labels.label (identity : Identity) (labels : Labels) : String × Labels :=
  let write (number : Nat) := String.ofList (Text.hexDigits 8 number)
  match labels.mentioned.idxOf? identity with
  | some index => (write (index + 1), labels)
  | none => (write (labels.mentioned.length + 1), ⟨labels.mentioned ++ [identity]⟩)

namespace Annotated

/-- Work that mentions identities; labels given before a failure stay given. -/
abbrev Labelling := ExceptT HostError (StateM Labels)

def labelOf (identity : Identity) : Labelling String :=
  modifyGet (Labels.label identity)

def labelled (token : Token) (symbol : SymbolId) : Labelling Sexp := do
  return .word (token.text ++ "#" ++ (← labelOf (.ofSymbol symbol)))

mutual

def toSexp : Annotated → Labelling Sexp
  | block statements scope _ => do
    let label ← labelOf (.ofScope scope)
    return .list (.word "block" :: .list [.word "scope", .word label] ::
      (← toSexpAll statements))
  | literal token kind => liftM (Sexp.ofLiteral kind token.text)
  | reference symbol token => do return .list [.word "var-ref", ← labelled token symbol]
  | declare symbol initializer token => do
    return .list [.word "declare", ← labelled token symbol, ← initializer.toSexp]
  | assign symbol value token => do
    return .list [.word "assign", ← labelled token symbol, ← value.toSexp]
  | call callee arguments _ => do
    let head ← callee.toSexp
    return .list (.word "call" :: head :: (← toSexpAll arguments))
  | conditional condition body _ => do
    return .list [.word "if", ← condition.toSexp, ← body.toSexp]
  | debugPrint operand _ => do return .list [.word "debug-print", ← operand.toSexp]
  | foreign sort => throw (.foreignDump sort)

def toSexpAll : List Annotated → Labelling (List Sexp)
  | [] => return []
  | tree :: trees => do
    let first ← tree.toSexp
    return first :: (← toSexpAll trees)

end

def dump (page : Sexp.Page) (tree : Annotated) : Labelling String := do
  return (← tree.toSexp).render page 0

end Annotated

end Scriptlet
