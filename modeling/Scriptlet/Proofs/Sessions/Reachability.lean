import Scriptlet.Proofs.Sessions.Endurance
import Scriptlet.Proofs.Sessions.TypeSoundness
/-!
# Reachable sessions

An embedding program may work on the scopes of a session directly: move the cursor,
plant scopes, declare names of any kind, and analyse trees of its own making.  It
registers native functions and evaluates sources, and its native functions may do all
of this to the session that calls them.  The scopes stay ordered.
-/

namespace Scriptlet

open Act (Preserves)

theorem Scoping.ordered_functionType {base : Forest} (arguments : List SymbolId)
    (result : Option SymbolId) : Preserves (Ordered base) (functionType arguments result) :=
  preserves_functionType (fun _ name variant hs _ => hs.inserted _ name variant _) arguments result

theorem Scoping.Ordered.unlogged {base : Forest} {s : Scoping} (log : List ScopeEvent)
    (hs : s.Ordered base) : ({ s with log := log } : Scoping).Ordered base :=
  ⟨hs.numbered, hs.grown, hs.minted, hs.cursor⟩

theorem Scoping.endures_ordered (base : Forest) : Endures (Ordered base) where
  placed hs := ⟨hs.numbered, hs.cursor⟩
  unlogged log hs := hs.unlogged log
  plant parent := ordered_plant "block" (some parent)
  enter := ordered_enter
  leave := ordered_leave
  declare := ordered_declare
  functionType := ordered_functionType

namespace Session

variable {ν : Type} {host : Host ν} {base : Forest}

def Ordered (base : Forest) (s : Session ν) : Prop :=
  s.scoping.Ordered base

theorem ordered_initial (settings : Settings) :
    (Session.initial settings : Session ν).Ordered .initial :=
  Scoping.ordered_initial.moved rfl rfl

theorem Ordered.rescoped {s : Session ν} {scoping : Scoping} (h : scoping.Ordered base) :
    (s.rescoped scoping).Ordered base :=
  h.unlogged []

theorem ordered_onScopes {α : Type} {act : Act Scoping α}
    (h : Preserves (Scoping.Ordered base) act) :
    Preserves (Ordered (ν := ν) base) (onScopes act) :=
  (Scoping.endures_ordered base).onScopes h

/-! ## Evaluation -/

theorem ordered_runStatement
    (hhost : ∀ handle arguments, Preserves (Ordered base) (host.invoke handle arguments))
    (watch : Watch) (tree : Tree) : Preserves (Ordered base) (runStatement host watch tree) :=
  (Scoping.endures_ordered base).runStatement hhost watch tree

theorem ordered_opening
    (hhost : ∀ handle arguments, Preserves (Ordered base) (host.invoke handle arguments))
    (watch : Watch) (count : Nat) (trees : List Tree) :
    Preserves (Ordered base) (opening host watch count trees) :=
  (Scoping.endures_ordered base).opening hhost watch count trees

/-! ## Sessions -/

/-- What an embedding program can make of a session, and what its native functions can make of the
session that calls them. -/
inductive LeadsTo : Session ν → Session ν → Prop where
  /-- The scopes are left alone. -/
  | apart {s t : Session ν} : t.scoping = s.scoping → LeadsTo s t
  | enter {s : Session ν} (id : ScopeId) : LeadsTo s ((onScopes (Scoping.enter id)).on s).2
  | leave {s : Session ν} : LeadsTo s ((onScopes Scoping.leave).on s).2
  | plant {s : Session ν} (name : String) (parent : Option ScopeId) :
      LeadsTo s ((onScopes (Scoping.plant name parent)).on s).2
  | insert {s : Session ν} (scope : Scope) (name : String) (variant : Symbol.Variant)
      (sort : String) : LeadsTo s ((onScopes (Scoping.insert scope name variant sort)).on s).2
  | declare {s : Session ν} (name : String) (variant : Symbol.Variant) (span : Span) :
      LeadsTo s ((onScopes (Scoping.declare name variant span)).on s).2
  | functionType {s : Session ν} (arguments : List SymbolId) (result : Option SymbolId) :
      LeadsTo s ((onScopes (Scoping.functionType arguments result)).on s).2
  | analyse {s : Session ν} (tree : Tree) :
      LeadsTo s ((onScopes (Analysis.analyse tree)).on s).2
  | register {s : Session ν} (name : String) (arguments : List String) (result : Option String)
      (handle : ν) : LeadsTo s ((register name arguments result handle).on s).2
  | evaluate {s : Session ν} {host : Host ν} {watch : Watch} {source : String} :
      (∀ handle arguments s, LeadsTo s ((host.invoke handle arguments).on s).2) →
      LeadsTo s ((evaluate host watch source).on s).2
  | trans {s t u : Session ν} : LeadsTo s t → LeadsTo t u → LeadsTo s u

theorem LeadsTo.ordered {s t : Session ν} (h : s.LeadsTo t) (hs : s.Ordered base) :
    t.Ordered base := by
  induction h with
  | apart hscoping =>
      rw [Ordered, hscoping]
      exact hs
  | enter id => exact ordered_onScopes (Scoping.ordered_enter id) _ hs
  | leave => exact ordered_onScopes Scoping.ordered_leave _ hs
  | plant name parent => exact ordered_onScopes (Scoping.ordered_plant name parent) _ hs
  | insert scope name variant sort =>
      exact ordered_onScopes (Scoping.ordered_insert scope name variant sort) _ hs
  | declare name variant span =>
      exact ordered_onScopes (Scoping.ordered_declare name variant span) _ hs
  | functionType arguments result =>
      exact ordered_onScopes (Scoping.ordered_functionType arguments result) _ hs
  | analyse tree => exact ordered_onScopes ((Scoping.upholds_ordered base).analyse tree) _ hs
  | register name arguments result handle =>
      exact (Scoping.endures_ordered base).register name arguments result handle _ hs
  | evaluate _ ih =>
      exact (Scoping.endures_ordered base).evaluate
        (fun handle arguments s hs => ih handle arguments s hs) _ _ _ hs
  | trans _ _ ihFirst ihSecond => exact ihSecond (ihFirst hs)

theorem leadsTo_sevens (handle : Unit) (arguments : List (Value Unit)) (s : Session Unit) :
    s.LeadsTo ((sevens.invoke handle arguments).on s).2 :=
  .apart rfl

end Session

end Scriptlet
