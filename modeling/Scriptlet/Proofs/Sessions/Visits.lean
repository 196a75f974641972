import Scriptlet.Proofs.Analysis.Visits
import Scriptlet.Proofs.Sessions.Store
/-!
# The way of the execution through a tree

The execution comes to some nodes of a tree, to each in a session of its own.  What lies
behind a failure is left out, and so is the body of a conditional whose test is not true.
-/

namespace Scriptlet.Session

variable {ν : Type} {host : Host ν}

mutual

/-- The execution of a tree that begins in the one session comes, along the branches, to a node in
the other. -/
inductive Executes (host : Host ν) :
    Annotated → Session ν → List Branch → Annotated → Session ν → Prop where
  | here {node : Annotated} {s : Session ν} : Executes host node s [] node s
  | statement {nodes : List Annotated} {scope : ScopeId} {token : Option Token} {s t v : Session ν}
      {index : Nat} {path : List Branch} {found : Annotated} :
      (onScopes (Scoping.enter scope)).on s = (.ok (), t) →
      ExecutesAll host nodes t index path found v →
      Executes host (.block nodes scope token) s (.statement index :: path) found v
  | initializer {symbol : SymbolId} {node found : Annotated} {token : Token} {s v : Session ν}
      {path : List Branch} : Executes host node s path found v →
      Executes host (.declare symbol node token) s (.initializer :: path) found v
  | value {symbol : SymbolId} {node found : Annotated} {token : Token} {s v : Session ν}
      {path : List Branch} : Executes host node s path found v →
      Executes host (.assign symbol node token) s (.value :: path) found v
  | callee {node found : Annotated} {nodes : List Annotated} {token : Token} {s v : Session ν}
      {path : List Branch} : Executes host node s path found v →
      Executes host (.call node nodes token) s (.callee :: path) found v
  | argument {callee found : Annotated} {nodes : List Annotated} {token : Token} {id : ValueId}
      {name : String} {handle : ν} {result : Option Primitive.Kind} {s t v : Session ν}
      {index : Nat} {path : List Branch} :
      (execute host callee).on s = (.ok ⟨id, .native name handle result⟩, t) →
      ExecutesAll host nodes t index path found v →
      Executes host (.call callee nodes token) s (.argument index :: path) found v
  | condition {node body found : Annotated} {token : Token} {s v : Session ν}
      {path : List Branch} : Executes host node s path found v →
      Executes host (.conditional node body token) s (.condition :: path) found v
  | body {condition node found : Annotated} {token : Token} {test : Value ν} {s t v : Session ν}
      {path : List Branch} : (execute host condition).on s = (.ok test, t) → isTrue test = true →
      Executes host node t path found v →
      Executes host (.conditional condition node token) s (.body :: path) found v
  | operand {node found : Annotated} {token : Token} {s v : Session ν} {path : List Branch} :
      Executes host node s path found v →
      Executes host (.debugPrint node token) s (.operand :: path) found v

inductive ExecutesAll (host : Host ν) :
    List Annotated → Session ν → Nat → List Branch → Annotated → Session ν → Prop where
  | here {node found : Annotated} {nodes : List Annotated} {s v : Session ν}
      {path : List Branch} : Executes host node s path found v →
      ExecutesAll host (node :: nodes) s 0 path found v
  | there {node found : Annotated} {nodes : List Annotated} {value : Value ν} {s t v : Session ν}
      {index : Nat} {path : List Branch} : (execute host node).on s = (.ok value, t) →
      ExecutesAll host nodes t index path found v →
      ExecutesAll host (node :: nodes) s (index + 1) path found v

end

/-! ## Native functions -/

def atCall (s : Session ν) (name : String) (handle : ν) (arguments : List (Value ν)) :
    Session ν :=
  { s with journal := .called name handle arguments :: s.journal }

/-- A node that is executed in the one session invokes a native function in the other. -/
inductive Calls (host : Host ν) :
    Annotated → Session ν → ν → List (Value ν) → Session ν → Prop where
  | call {callee : Annotated} {nodes : List Annotated} {token : Token} {id : ValueId}
      {name : String} {handle : ν} {result : Option Primitive.Kind} {arguments : List (Value ν)}
      {s t u : Session ν} : (execute host callee).on s = (.ok ⟨id, .native name handle result⟩, t) →
      (executeArguments host nodes).on t = (.ok arguments, u) →
      Calls host (.call callee nodes token) s handle arguments (u.atCall name handle arguments)

/-- The execution of a tree invokes a native function in a session on its way. -/
def Invokes (host : Host ν) (node : Annotated) (s : Session ν) (handle : ν)
    (arguments : List (Value ν)) (v : Session ν) : Prop :=
  ∃ path found t, Executes host node s path found t ∧ Calls host found t handle arguments v

def InvokesAll (host : Host ν) (nodes : List Annotated) (s : Session ν) (handle : ν)
    (arguments : List (Value ν)) (v : Session ν) : Prop :=
  ∃ index path found t, ExecutesAll host nodes s index path found t ∧
    Calls host found t handle arguments v

end Scriptlet.Session
