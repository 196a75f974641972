import Scriptlet.Proofs.Scopes.WellFormed
import Scriptlet.Proofs.Sessions.Endurance
/-!
# The scopes of a session

Whatever is evaluated, analysed, registered or declared in a session, in whatever
order and with whatever success, its scopes form one tree below the global scope, and
what was put into them stays there.
-/

namespace Scriptlet

open Act (Preserves)

theorem Scoping.grown_functionType {base : Forest} (arguments : List SymbolId)
    (result : Option SymbolId) : Preserves (Grown base) (functionType arguments result) :=
  preserves_functionType
    (fun _ _ variant hs hfree => hs.inserted hs.wellFormed.global_eq hfree variant _)
    arguments result

theorem Scoping.endures_grown (base : Forest) : Endures (Grown base) where
  placed hs := ⟨hs.wellFormed.numbered, hs.cursor⟩
  unlogged _ hs := ⟨hs.wellFormed, hs.grown, hs.cursor⟩
  plant := grown_plant "block"
  enter := grown_enter
  leave := grown_leave
  declare := grown_declare
  functionType := grown_functionType

namespace Session

variable {ν : Type} {base : Forest}

/-- What an embedding program can make of a session by evaluating sources, analysing trees,
registering functions, declaring names, naming types and moving the cursor, and what its native
functions can make of the session that calls them by the same means. -/
inductive DevelopsInto : Session ν → Session ν → Prop where
  /-- The scopes are left alone. -/
  | apart {s t : Session ν} : t.scoping = s.scoping → DevelopsInto s t
  | evaluate {s : Session ν} {host : Host ν} {watch : Watch} {source : String} :
      (∀ handle arguments s, DevelopsInto s ((host.invoke handle arguments).on s).2) →
      DevelopsInto s ((evaluate host watch source).on s).2
  | analyse {s : Session ν} (tree : Tree) :
      DevelopsInto s ((onScopes (Analysis.analyse tree)).on s).2
  | register {s : Session ν} (name : String) (arguments : List String) (result : Option String)
      (handle : ν) : DevelopsInto s ((register name arguments result handle).on s).2
  | declare {s : Session ν} (name : String) (variant : Symbol.Variant) (span : Span) :
      DevelopsInto s ((onScopes (Scoping.declare name variant span)).on s).2
  | functionType {s : Session ν} (arguments : List SymbolId) (result : Option SymbolId) :
      DevelopsInto s ((onScopes (Scoping.functionType arguments result)).on s).2
  | enter {s : Session ν} (id : ScopeId) : DevelopsInto s ((onScopes (Scoping.enter id)).on s).2
  | leave {s : Session ν} : DevelopsInto s ((onScopes Scoping.leave).on s).2
  | trans {s t u : Session ν} : DevelopsInto s t → DevelopsInto t u → DevelopsInto s u

theorem DevelopsInto.grown {s t : Session ν} (h : s.DevelopsInto t) (hs : s.scoping.Grown base) :
    t.scoping.Grown base := by
  have hend := Scoping.endures_grown base
  induction h with
  | apart hscoping =>
      rw [hscoping]
      exact hs
  | evaluate _ ih =>
      exact hend.evaluate (fun handle arguments s hs => ih handle arguments s hs) _ _ _ hs
  | analyse tree => exact hend.onScopes (hend.upholds.analyse tree) _ hs
  | register name arguments result handle =>
      exact hend.register name arguments result handle _ hs
  | declare name variant span => exact hend.onScopes (hend.declare name variant span) _ hs
  | functionType arguments result =>
      exact hend.onScopes (hend.functionType arguments result) _ hs
  | enter id => exact hend.onScopes (hend.enter id) _ hs
  | leave => exact hend.onScopes hend.leave _ hs
  | trans _ _ ihFirst ihSecond => exact ihSecond (ihFirst hs)

/-- The scopes of a session are one tree below the global scope, and every parent was there before
its children.  Names are distinct in a scope, identities in all of them, and the cursor stands on
one of the scopes.  Nothing in them is removed, renamed or moved, so that what is found by its
identity is found for ever. -/
theorem scopes_wellFormed_and_grow {settings : Settings} {s t : Session ν}
    (hs : (initial settings : Session ν).DevelopsInto s) (ht : s.DevelopsInto t) :
    (∀ scope ∈ t.scoping.forest.scopes, scope.id ≠ Forest.globalId →
      ∃ above ∈ t.scoping.forest.scopes, scope.parent = some above.id ∧
        above.id.number < scope.id.number) ∧
    (∀ scope ∈ t.scoping.forest.scopes, ∃ chain, t.scoping.forest.chain scope.id = .ok chain ∧
      chain.head? = some scope ∧
      chain.IsChain (fun below above => below.parent = some above.id) ∧
      ∃ root, chain.getLast? = some root ∧ root.id = Forest.globalId ∧ root.parent = none) ∧
    (∀ scope ∈ t.scoping.forest.scopes, (scope.symbols.map Symbol.name).Nodup) ∧
    (∀ scope ∈ t.scoping.forest.scopes, ∀ other ∈ t.scoping.forest.scopes,
      ∀ a ∈ scope.symbols, ∀ b ∈ other.symbols, a.id = b.id → a = b ∧ scope = other) ∧
    (∃ scope ∈ t.scoping.forest.scopes, scope.id = t.scoping.cursor) ∧
    s.scoping.forest.GrowsTo t.scoping.forest ∧
    ∀ id identity symbol, s.scoping.forest.lookupId id identity = .ok (some symbol) →
      t.scoping.forest.lookupId id identity = .ok (some symbol) := by
  have hinitial : (initial settings : Session ν).scoping.Grown .initial :=
    Scoping.grown_initial.moved rfl rfl
  have hfirst := hs.grown hinitial
  have hsecond := ht.grown hfirst.self
  have hformed := hsecond.wellFormed
  obtain ⟨root, hroot, hnone⟩ := hformed.global
  obtain ⟨current, hcurrent⟩ := hsecond.cursor
  refine ⟨fun scope => hformed.exists_older_parent, ?_, hformed.named, hformed.identified,
    ⟨current, Forest.mem_of_get? hcurrent, Forest.id_of_get? hcurrent⟩, hsecond.grown,
    fun id identity symbol => hfirst.wellFormed.lookupId_of_growsTo hformed hsecond.grown⟩
  intro scope hscope
  have hget := Forest.get?_of_mem hformed.numbered hscope
  obtain ⟨rest, hchain, hlinked, hlast⟩ := hformed.exists_chain hget
  rw [hformed.global_eq] at hroot
  obtain rfl := Option.some.inj hroot
  refine ⟨scope :: rest, ?_, rfl, hlinked, _, hlast, Forest.id_of_get? hformed.global_eq, hnone⟩
  rw [Forest.chain_of_get? hget, hchain]

def declaringX : Session Unit :=
  ((onScopes (Scoping.declare "x" (.var Primitive.Kind.integer.typeId) Span.unknown)).on
    ((onScopes (Scoping.enter Forest.replId)).on (initial .standard)).2).2

/-- `x` is still found after a block was analysed and a function registered. -/
theorem x_found_after_registration :
    (initial .standard).DevelopsInto declaringX ∧
    declaringX.scoping.forest.lookupId Forest.replId ⟨5⟩ =
      .ok (some ⟨⟨5⟩, "x", .var Primitive.Kind.integer.typeId⟩) ∧
    ((register "f" ["int"] none ()).on
      ((onScopes (Analysis.analyse (.block [] none))).on declaringX).2).2.scoping.forest.lookupId
        Forest.replId ⟨5⟩ = .ok (some ⟨⟨5⟩, "x", .var Primitive.Kind.integer.typeId⟩) := by
  have hs : (initial .standard).DevelopsInto declaringX :=
    .trans (.enter Forest.replId) (.declare "x" (.var Primitive.Kind.integer.typeId) Span.unknown)
  have hfound : declaringX.scoping.forest.lookupId Forest.replId ⟨5⟩ =
      .ok (some ⟨⟨5⟩, "x", .var Primitive.Kind.integer.typeId⟩) := rfl
  have hlater := scopes_wellFormed_and_grow hs
    (.trans (.analyse (.block [] none)) (.register "f" ["int"] none ()))
  exact ⟨hs, hfound, hlater.2.2.2.2.2.2 _ _ _ hfound⟩

end Session

end Scriptlet
