import Scriptlet.Proofs.Lexical.Reference
/-!
# Requests

An embedding program works on a session by requests, which are served one after
the other, whether they fail or not.
-/

namespace Scriptlet

variable {ν : Type}

/-- What an embedding program asks of a session. -/
inductive Request (ν : Type) where
  | evaluate (watch : Session.Watch) (source : String)
  | register (name : String) (arguments : List String) (result : Option String) (handle : ν)
  | lookup (name : String)
  | collect

inductive Answer (ν : Type) where
  | evaluated (outcome : Except Failure (Value ν))
  | registered (outcome : Except Failure Symbol)
  | found (outcome : Except Failure (Option (Value ν)))
  | collected (outcome : Except Failure Nat)

def Request.isCollection : Request ν → Bool
  | collect => true
  | _ => false

def Answer.isCollection : Answer ν → Bool
  | collected _ => true
  | _ => false

namespace Session

def serve (natives : Natives ν) (s : Session ν) : Request ν → Answer ν × Session ν
  | .evaluate watch source => ((evaluate natives.host watch source).on s).map .evaluated id
  | .register name arguments result handle =>
    ((register name arguments result handle).on s).map .registered id
  | .lookup name => ((lookup name).on s).map .found id
  | .collect => (collect.on s).map .collected id

def serveAll (natives : Natives ν) : List (Request ν) → Session ν → List (Answer ν) × Session ν
  | [], s => ([], s)
  | request :: requests, s =>
    let (answer, t) := s.serve natives request
    let (answers, u) := serveAll natives requests t
    (answer :: answers, u)

/-! ## An evaluation in steps -/

variable {host : Host ν} {s : Session ν}

theorem on_evaluate_read {watch : Watch} {source : String} {trees : List Tree}
    (h : parseProgram source s.settings.sourceName = .ok trees) :
    (evaluate host watch source).on s =
      (do
        onScopes (Scoping.enter Forest.replId)
        let value ← Act.closing (onScopes Scoping.leave) (runStatements host watch .nothing trees)
        conclude trees.length value).on (s.noted [.parsed trees.length] s.nextValue) := by
  have hread : (Act.ofDiagnostic (.ok trees) : Act (Session ν) (List Tree)).on s =
      (.ok trees, s) := rfl
  have hrecord : (record (.parsed trees.length)).on s =
      (.ok (), s.noted [.parsed trees.length] s.nextValue) := rfl
  unfold evaluate
  rw [Act.on_bind_of_ok (Act.on_get s)]
  dsimp only
  rw [h, Act.on_bind_of_ok hread, Act.on_bind_of_ok hrecord]
  rfl

/-- The part of an evaluation of `count` statements in which some first ones of them are run. -/
def opening (host : Host ν) (watch : Watch) (count : Nat) (trees : List Tree) :
    Act (Session ν) (Value ν) := do
  record (.parsed count)
  onScopes (Scoping.enter Forest.replId)
  runStatements host watch .nothing trees

theorem on_opening {repl : Scope} (hrepl : s.scoping.forest.get? Forest.replId = some repl)
    (watch : Watch) (count : Nat) (trees : List Tree) :
    (opening host watch count trees).on s =
      (runStatements host watch .nothing trees).on (s.begun count repl) := by
  have hrecord : (record (.parsed count)).on s =
      (.ok (), s.noted [.parsed count] s.nextValue) := rfl
  have henter : (onScopes (Scoping.enter Forest.replId)).on
      (s.noted [.parsed count] s.nextValue) = (.ok (), s.begun count repl) :=
    on_entering hrepl
  unfold opening
  rw [Act.on_bind_of_ok hrecord, Act.on_bind_of_ok henter]

def counted (s : Session ν) (count : Nat) : Session ν :=
  ({ s with evaluations := s.evaluations + 1 } : Session ν).noted
    [.evaluated count s.bindings.length s.values.size] s.nextValue

theorem on_conclude (count : Nat) (value : Value ν) (s : Session ν) :
    (conclude count value).on s = (collectIfDue >>= fun _ => pure value).on (s.counted count) :=
  rfl

theorem on_collectIfDue (s : Session ν) :
    collectIfDue.on s = (.ok (), s) ∨ collectIfDue.on s = (.ok (), s.collected) := by
  unfold collectIfDue
  rw [Act.on_bind_of_ok (Act.on_get s)]
  cases s.settings.collectEvery with
  | none => exact .inl rfl
  | some every =>
      by_cases hdue : (s.evaluations : Int) % every = 0
      · simp only [if_pos hdue, Act.on_bind_of_ok (on_collect s)]
        exact .inr rfl
      · simp only [if_neg hdue]
        exact .inl rfl

theorem on_collectIfDue_off (h : s.settings.collectEvery = none) :
    collectIfDue.on s = (.ok (), s) := by
  unfold collectIfDue
  rw [Act.on_bind_of_ok (Act.on_get s)]
  simp only [h]
  rfl

theorem on_conclude_off (h : s.settings.collectEvery = none) (count : Nat) (value : Value ν) :
    (conclude count value).on s = (.ok value, s.counted count) := by
  have hoff : (s.counted count).settings.collectEvery = none := h
  rw [on_conclude, Act.on_bind_of_ok (on_collectIfDue_off hoff), Act.on_pure]

end Session

end Scriptlet
