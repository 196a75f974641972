import Scriptlet.Proofs.Analysis.Preservation
import Scriptlet.Proofs.Sessions.Preservation
import Scriptlet.Proofs.Sessions.Registration
import Scriptlet.Proofs.Sessions.Requests
/-!
# Conditions on scopes that sessions preserve

A session works on its scopes by few acts: it moves the cursor, plants the scopes of
blocks, declares variables and native functions, and interns the types of functions.  A
condition that those preserve is preserved by registering a native function and by
evaluating a source, in success and in failure.  An embedding program may declare symbols
of other kinds as well; some conditions endure that, too.
-/

namespace Scriptlet

open Act (Preserves)

theorem Scoping.preserves_typeNamed (kept : Scoping → Prop) (name : String) :
    Preserves kept (typeNamed name) :=
  .of_same fun s => (typeNamed_ensures name s).mono (fun _ _ h => h.1) (fun _ _ h => h)

/-- The acts by which a session itself changes its scopes preserve the condition, which says at
least that the scopes are in order and the cursor stands on one of them, and does not look at the
log. -/
structure Scoping.Sustains (kept : Scoping → Prop) : Prop where
  placed : ∀ {s}, kept s → s.Placed
  unlogged : ∀ {s} log, kept s → kept { s with log := log }
  upholds : Upholds kept
  native : ∀ name type span, Preserves kept (declare name (.native type) span)
  functionType : ∀ arguments result, Preserves kept (functionType arguments result)

/-- The acts by which a session or an embedding program changes the scopes preserve the condition,
symbols of all kinds included. -/
structure Scoping.Endures (kept : Scoping → Prop) : Prop where
  placed : ∀ {s}, kept s → s.Placed
  unlogged : ∀ {s} log, kept s → kept { s with log := log }
  plant : ∀ parent, Preserves kept (plant "block" (some parent))
  enter : ∀ id, Preserves kept (enter id)
  leave : Preserves kept leave
  declare : ∀ name variant span, Preserves kept (declare name variant span)
  functionType : ∀ arguments result, Preserves kept (functionType arguments result)

theorem Scoping.Endures.upholds {kept : Scoping → Prop} (h : Endures kept) : Upholds kept where
  plant := h.plant
  enter := h.enter
  leave := h.leave
  declare name type span := h.declare name (.var type) span

theorem Scoping.Endures.sustains {kept : Scoping → Prop} (h : Endures kept) : Sustains kept where
  placed := h.placed
  unlogged := h.unlogged
  upholds := h.upholds
  native name type span := h.declare name (.native type) span
  functionType := h.functionType

namespace Session

variable {ν : Type} {host : Host ν} {kept : Scoping → Prop}

def Scoped (kept : Scoping → Prop) (s : Session ν) : Prop :=
  kept s.scoping

theorem on_conclude_ok (count : Nat) (value : Value ν) (s : Session ν) :
    ∃ t, (conclude count value).on s = (.ok value, t) ∧ t.scoping = s.scoping := by
  rw [on_conclude]
  rcases on_collectIfDue (s.counted count) with hon | hon
  · exact ⟨_, Act.on_bind_of_ok hon _, rfl⟩
  · exact ⟨_, Act.on_bind_of_ok hon _, rfl⟩

end Session

namespace Scoping.Sustains

open Session (Scoped Watch)

variable {ν : Type} {host : Host ν} {kept : Scoping → Prop}

theorem onScopes {α : Type} {act : Act Scoping α} (h : Sustains kept) (hact : Preserves kept act) :
    Preserves (Scoped (ν := ν) kept) (Session.onScopes act) :=
  fun s hs => h.unlogged [] (hact s.scoping hs)

private theorem tracks (h : Sustains kept) (forest : Forest) :
    Session.Tracks forest (fun _ => Scoped (ν := ν) kept) where
  apart hs hscoping _ := by
    rw [Scoped, hscoping]
    exact hs
  drained hs := h.unlogged [] hs
  entering _ _ hs := (h.onScopes (h.upholds.enter _)).ensures hs
  leaving _ _ hs := (h.onScopes h.upholds.leave).ensures hs

theorem enlist (h : Sustains kept) (name : String) (handle : ν) (kind : Option Primitive.Kind)
    (type : Symbol) : Preserves (Scoped kept) (Session.enlist name handle kind type) := by
  unfold Session.enlist
  refine (h.onScopes (h.native name _ _)).bind fun symbol => ?_
  have hrest : Preserves (Scoped kept) (do
      Session.bind symbol.id (← Session.fresh (.native name handle kind))
      Session.record (.registered name type.name)
      return symbol) := fun _ hs => hs
  exact hrest

theorem register (h : Sustains kept) (name : String) (arguments : List String)
    (result : Option String) (handle : ν) :
    Preserves (Scoped kept) (Session.register name arguments result handle) := by
  have hnamed : ∀ name, Preserves kept (Scoping.typeNamed name) := preserves_typeNamed kept
  have hkind : Preserves (Scoped (ν := ν) kept) (Session.resultKind name result) :=
    .of_same fun s => Session.resultKind_ensures name result
  rw [Session.register_eq]
  refine (h.onScopes (Preserves.mapM hnamed arguments)).bind fun argumentTypes => ?_
  refine hkind.bind fun kind => ?_
  have hresult := Preserves.mapM_option (fun kind : Primitive.Kind => hnamed kind.label) kind
  refine (h.onScopes hresult).bind fun resultType => ?_
  have htype := h.functionType (argumentTypes.map Symbol.id) (resultType.map Symbol.id)
  exact (h.onScopes htype).bind fun type => h.enlist name handle kind type

/-! ## Evaluation -/

theorem runStatement (h : Sustains kept)
    (hhost : ∀ handle arguments, Preserves (Scoped kept) (host.invoke handle arguments))
    (watch : Watch) (tree : Tree) :
    Preserves (Scoped kept) (Session.runStatement host watch tree) := by
  intro s hs
  have hanalysed := (h.upholds.analyse tree).ensures hs
  have hstays := Analysis.stays_analyse tree s.scoping (h.placed hs)
  apply Act.Ensures.state
  refine (Session.onScopes_ensures (hanalysed.and hstays)).bind ?_ ?_
  · rintro failure _ ⟨scoping, rfl, hscoping, -⟩
    exact h.unlogged [] hscoping
  rintro analysed _ ⟨scoping, rfl, hscoping, -, hnested⟩
  have htracks := h.tracks (ν := ν) scoping.forest
  have hobserve : Preserves (Scoped kept) (Session.observe watch tree analysed.node) :=
    @Session.Tracks.preserves_observe _ _ _ s.scoping.cursor htracks watch tree analysed.node
  have hexecute : Preserves (Scoped kept) (Session.execute host analysed.node) :=
    htracks.preserves_execute (fun _ => hhost) hnested
  exact (hobserve.bind fun _ => hexecute).ensures (h.unlogged [] hscoping)

theorem runStatements (h : Sustains kept)
    (hhost : ∀ handle arguments, Preserves (Scoped kept) (host.invoke handle arguments))
    (watch : Watch) (last : Value ν) (trees : List Tree) :
    Preserves (Scoped kept) (Session.runStatements host watch last trees) :=
  Session.preserves_statements (fun tree _ => h.runStatement hhost watch tree) last

theorem opening (h : Sustains kept)
    (hhost : ∀ handle arguments, Preserves (Scoped kept) (host.invoke handle arguments))
    (watch : Watch) (count : Nat) (trees : List Tree) :
    Preserves (Scoped kept) (Session.opening host watch count trees) := by
  have hrecord : Preserves (Scoped kept)
      (Session.record (.parsed count) : Act (Session ν) Unit) := fun _ hs => hs
  unfold Session.opening
  exact hrecord.bind fun _ => (h.onScopes (h.upholds.enter Forest.replId)).bind
    fun _ => h.runStatements hhost watch .nothing trees

theorem evaluate (h : Sustains kept)
    (hhost : ∀ handle arguments, Preserves (Scoped kept) (host.invoke handle arguments))
    (watch : Watch) (source : String) :
    Preserves (Scoped kept) (Session.evaluate host watch source) := by
  intro s hs
  cases hparse : parseProgram source s.settings.sourceName with
  | error diagnostic =>
      rw [Session.on_evaluate_refused hparse]
      exact hs
  | ok trees =>
      have hconclude : ∀ value : Value ν,
          Preserves (Scoped kept) (Session.conclude trees.length value) := by
        intro value t ht
        obtain ⟨u, hon, hscoping⟩ := Session.on_conclude_ok trees.length value t
        rw [hon, Scoped, hscoping]
        exact ht
      have hsteps := (h.onScopes (h.upholds.enter Forest.replId)).bind fun _ =>
        ((h.runStatements hhost watch .nothing trees).closing
          (h.onScopes h.upholds.leave)).bind hconclude
      rw [Session.on_evaluate_read hparse]
      exact hsteps _ hs

end Scoping.Sustains

namespace Scoping.Endures

open Session (Scoped Watch)

variable {ν : Type} {host : Host ν} {kept : Scoping → Prop}

theorem onScopes {α : Type} {act : Act Scoping α} (h : Endures kept) (hact : Preserves kept act) :
    Preserves (Scoped (ν := ν) kept) (Session.onScopes act) :=
  h.sustains.onScopes hact

theorem register (h : Endures kept) (name : String) (arguments : List String)
    (result : Option String) (handle : ν) :
    Preserves (Scoped kept) (Session.register name arguments result handle) :=
  h.sustains.register name arguments result handle

theorem runStatement (h : Endures kept)
    (hhost : ∀ handle arguments, Preserves (Scoped kept) (host.invoke handle arguments))
    (watch : Watch) (tree : Tree) :
    Preserves (Scoped kept) (Session.runStatement host watch tree) :=
  h.sustains.runStatement hhost watch tree

theorem opening (h : Endures kept)
    (hhost : ∀ handle arguments, Preserves (Scoped kept) (host.invoke handle arguments))
    (watch : Watch) (count : Nat) (trees : List Tree) :
    Preserves (Scoped kept) (Session.opening host watch count trees) :=
  h.sustains.opening hhost watch count trees

theorem evaluate (h : Endures kept)
    (hhost : ∀ handle arguments, Preserves (Scoped kept) (host.invoke handle arguments))
    (watch : Watch) (source : String) :
    Preserves (Scoped kept) (Session.evaluate host watch source) :=
  h.sustains.evaluate hhost watch source

end Scoping.Endures

end Scriptlet
