import Scriptlet.Tree
/-!
# Typing rules

A declarative account of which statements are well typed.  It knows no symbols
and no scopes: types are structural, and a stack of frames takes names to what
they stand for.  Expressions have a type or are used for their effect; statements
lead from one stack of frames to another.
-/

namespace Scriptlet

inductive Ty where
  | primitive (kind : Primitive.Kind)
  | function (parameters : List Ty) (result : Option Primitive.Kind)

/-- What a name stands for. -/
inductive Entry where
  | type
  | var (type : Ty)
  | native (type : Ty)

def Entry.type? : Entry → Option Ty
  | .type => none
  | .var known | .native known => some known

/-- The names in view, the innermost frame first. -/
abbrev Frames := List (List (String × Entry))

def Frames.find? (frames : Frames) (name : String) : Option Entry :=
  frames.findSome? (List.lookup name)

/-- The expression has the given type, or none. -/
inductive HasType (frames : Frames) : Tree → Option Ty → Prop where
  | literal {token : Token} {kind : Primitive.Kind} :
      HasType frames (.literal token kind) (some (.primitive kind))
  | reference {name : Token} {entry : Entry} {type : Ty} :
      frames.find? name.text = some entry → entry.type? = some type →
      HasType frames (.reference name) (some type)
  | assign {name token : Token} {type : Ty} {value : Tree} :
      frames.find? name.text = some (.var type) → HasType frames value (some type) →
      HasType frames (.assign (.reference name) value token) none
  | call {callee : Tree} {arguments : List Tree} {token : Token} {parameters : List Ty}
      {result : Option Primitive.Kind} :
      HasType frames callee (some (.function parameters result)) →
      arguments.length = parameters.length →
      (∀ pair ∈ arguments.zip parameters, HasType frames pair.1 (some pair.2)) →
      HasType frames (.call callee arguments token) (result.map Ty.primitive)

mutual

/-- The statement is well typed, has the given type or none, and leads from the first frames to the
second ones. -/
inductive Derives : Frames → Tree → Option Ty → Frames → Prop where
  | expression {frames : Frames} {tree : Tree} {type : Option Ty} :
      HasType frames tree type → Derives frames tree type frames
  | declare {frame : List (String × Entry)} {frames : Frames} {name : Token} {type : Ty}
      {initializer : Tree} :
      HasType (frame :: frames) initializer (some type) → frame.lookup name.text = none →
      Derives (frame :: frames) (.declare name initializer) none
        ((frame ++ [(name.text, .var type)]) :: frames)
  | block {frames inner : Frames} {statements : List Tree} {token : Option Token} :
      DerivesAll ([] :: frames) statements inner →
      Derives frames (.block statements token) none frames
  | conditional {frames after : Frames} {condition body : Tree} {type : Option Ty}
      {token : Token} :
      HasType frames condition (some (.primitive .truth)) → Derives frames body type after →
      Derives frames (.conditional condition body token) none after
  | debugPrint {frames : Frames} {operand : Tree} {type : Ty} {token : Token} :
      HasType frames operand (some type) →
      Derives frames (.debugPrint operand token) none frames

inductive DerivesAll : Frames → List Tree → Frames → Prop where
  | nil {frames : Frames} : DerivesAll frames [] frames
  | cons {frames between after : Frames} {tree : Tree} {trees : List Tree} {type : Option Ty} :
      Derives frames tree type between → DerivesAll between trees after →
      DerivesAll frames (tree :: trees) after

end

end Scriptlet
