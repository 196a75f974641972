import Scriptlet.Annotated
import Scriptlet.Scoping
/-!
# Analysis

The analysis resolves the names of a tree from the cursor and checks types on the way: a value's
type has to be exactly the one that is asked for.  Each block gets a new scope.  The first fault
ends the analysis; declarations made before it stay.
-/

namespace Scriptlet

/-- An annotated tree and the type of its value; a statement has none. -/
structure Analysed where
  node : Annotated
  type : Option SymbolId
deriving Repr, Inhabited

namespace Analysis

def spanOf (tree : Tree) : Act Scoping Span :=
  Act.ofHost tree.span

/-- The type of a tree where a value is needed; `role` names what the value is needed for. -/
def requireValue (analysed : Analysed) (role : String) (tree : Tree) : Act Scoping SymbolId := do
  match analysed.type with
  | some type => return type
  | none => Act.fail (.missingValue role) (← spanOf tree)

def mismatch {α : Type} (expected actual : SymbolId) (tree : Tree) (context : String) :
    Act Scoping α := do
  let expectedName ← Scoping.typeName expected
  let actualName ← Scoping.typeName actual
  Act.fail (.typeMismatch expectedName actualName context) (← spanOf tree)

def reference (name : Token) : Act Scoping Analysed := do
  match ← Scoping.resolve name.text with
  | none => Act.fail (.undefinedSymbol name.text "variable") name.span
  | some symbol =>
    match symbol.variant.type? with
    | none => Act.fail (.semantic ("'" ++ name.text ++ "' names a type, not a value")) name.span
    | some type => return ⟨.reference symbol.id name, some type⟩

/-- The variable on the left of an assignment, and its type. -/
def target (tree : Tree) : Act Scoping (Token × SymbolId × SymbolId) := do
  match tree with
  | .reference name =>
    match ← Scoping.resolve name.text with
    | none => Act.fail (.undefinedSymbol name.text "variable") name.span
    | some symbol =>
      match symbol.variant with
      | .var type => return (name, symbol.id, type)
      | variant =>
        Act.fail (.invalidTarget (variant.sort ++ " '" ++ name.text ++ "'")) name.span
  | tree => Act.fail (.invalidTarget ("'" ++ tree.describe ++ "'")) (← spanOf tree)

def signature (callee : Tree) (type : SymbolId) :
    Act Scoping (List SymbolId × Option SymbolId) := do
  let symbol ← Scoping.typeSymbol type
  match symbol.variant with
  | .function arguments result => return (arguments, result)
  | _ => Act.fail (.notCallable callee.describe symbol.name) (← spanOf callee)

mutual

def analyse : Tree → Act Scoping Analysed
  | .block statements token => do
    let scope ← Scoping.plant "block" (some (← get).cursor)
    Scoping.enter scope
    let nodes ← Act.closing Scoping.leave (analyseAll statements)
    return ⟨.block nodes scope token, none⟩
  | .literal token kind => return ⟨.literal token kind, some kind.typeId⟩
  | .reference name => reference name
  | .declare name initializer => do
    let value ← analyse initializer
    let type ← requireValue value "Variable initializer" initializer
    let symbol ← Scoping.declare name.text (.var type) name.span
    return ⟨.declare symbol.id value.node name, none⟩
  | .assign left right _ => do
    let (name, symbol, type) ← target left
    let value ← analyse right
    let actual ← requireValue value "Assigned value" right
    if actual = type then return ⟨.assign symbol value.node name, none⟩
    else mismatch type actual right ("assignment to '" ++ name.text ++ "'")
  | .call callee arguments token => do
    let function ← analyse callee
    let type ← requireValue function "Callee" callee
    let (parameters, result) ← signature callee type
    if arguments.length = parameters.length then do
      let nodes ← analyseArguments callee.describe 1 arguments parameters
      return ⟨.call function.node nodes token, result⟩
    else
      Act.fail (.arityMismatch callee.describe parameters.length arguments.length) token.span
  | .conditional condition body token => do
    let test ← analyse condition
    let type ← requireValue test "If condition" condition
    if type = Primitive.Kind.truth.typeId then do
      let branch ← analyse body
      return ⟨.conditional test.node branch.node token, none⟩
    else do
      let actual ← Scoping.typeName type
      Act.fail (.typeMismatch Primitive.Kind.truth.label actual "if condition")
        (← spanOf condition)
  | .debugPrint operand token => do
    let value ← analyse operand
    let _ ← requireValue value "Debug-print operand" operand
    return ⟨.debugPrint value.node token, none⟩
  | .foreign sort => throw (.host (.foreignStatement sort))

def analyseAll : List Tree → Act Scoping (List Annotated)
  | [] => return []
  | tree :: trees => do
    let first ← analyse tree
    return first.node :: (← analyseAll trees)

/-- Analyses arguments in order and checks each against its parameter's type; `position` counts
them from one. -/
def analyseArguments (callee : String) (position : Nat) :
    List Tree → List SymbolId → Act Scoping (List Annotated)
  | tree :: trees, parameter :: parameters => do
    let value ← analyse tree
    let actual ← requireValue value "Function argument" tree
    if actual = parameter then
      return value.node :: (← analyseArguments callee (position + 1) trees parameters)
    else mismatch parameter actual tree s!"argument {position} of '{callee}'"
  | _, _ => return []

end

end Analysis

end Scriptlet
