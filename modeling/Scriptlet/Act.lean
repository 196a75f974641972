import Scriptlet.Diagnostic
/-!
# Acts

Work on a state that may fail.  What an act did to the state before it failed stays done.
-/

namespace Scriptlet

/-- Work on a state of type `σ` that yields an `α` or fails. -/
abbrev Act (σ α : Type) := ExceptT Failure (StateM σ) α

namespace Act

variable {σ τ α : Type}

/-- The outcome of an act, whether it failed or not. -/
def attempt (act : Act σ α) : Act σ (Except Failure α) :=
  ExceptT.lift act.run

def ofExcept (outcome : Except Failure α) : Act σ α :=
  ExceptT.mk (pure outcome)

def ofHost (outcome : Except HostError α) : Act σ α :=
  ofExcept (outcome.mapError .host)

def ofNumeral (outcome : Except Numeral.Error α) : Act σ α :=
  ofHost (outcome.mapError .numeral)

def ofDiagnostic (outcome : Except Diagnostic α) : Act σ α :=
  ofExcept (outcome.mapError .fault)

def fail (fault : Fault) (span : Span) : Act σ α :=
  throw (Failure.located fault span)

/-- Runs `body` and then `close`, also when `body` failed.  A failure of `close` takes the place of
the outcome of `body`. -/
def closing (close : Act σ Unit) (body : Act σ α) : Act σ α := do
  let outcome ← attempt body
  close
  ofExcept outcome

/-- An act on a part of a larger state. -/
def zoom (part : τ → σ) (update : τ → σ → τ) (act : Act σ α) : Act τ α :=
  fun whole =>
    let (outcome, inner) := act (part whole)
    (outcome, update whole inner)

end Act

end Scriptlet
