import Scriptlet.Behaviour
import Scriptlet.Proofs.Sessions.Following
/-!
# Discreet work on sessions

An embedding program and its native functions work on a session by requests.  They look at its
surface, which shows no identities of symbols, and ask for scopes, types and variables by name.
Such work is discreet with regard to some names if it asks for no others.  It then does the same in
parallel sessions: it is built from few kinds of requests, and each of them does.
-/

namespace Scriptlet

variable {ν : Type} {hidden : Option String} {pairs : Pairing} {permitted : String → Prop}

/-- What is to be seen of a session apart from scopes and symbols. -/
structure Surface (ν : Type) where
  settings : Settings
  cursor : ScopeId
  values : ValueTable ν
  /-- The values that symbols are bound to, in the order of the first binding. -/
  live : List ValueId
  evaluations : Nat
  nextValue : Nat
  /-- The calls of native functions and the output, the latest first. -/
  observed : List (Event ν)

namespace Session

def surface (s : Session ν) : Surface ν where
  settings := s.settings
  cursor := s.scoping.cursor
  values := s.values
  live := s.bindings.map Prod.snd
  evaluations := s.evaluations
  nextValue := s.nextValue
  observed := s.observed

theorem Parallels.surface {s t : Session ν} (h : s.Parallels hidden pairs t) :
    t.surface = s.surface := by
  unfold Session.surface
  rw [h.settings, h.scoping.cursor, h.values, h.live, h.evaluations, h.next, h.observed]

/-! ## Requests -/

def look : Act (Session ν) (Surface ν) := do
  return (← get).surface

/-- Registers a native function; yields the name of its type. -/
def enroll (name : String) (arguments : List String) (result : Option String) (handle : ν) :
    Act (Session ν) (Option String) := do
  let symbol ← register name arguments result handle
  onScopes (symbol.variant.type?.mapM Scoping.typeName)

def intern (arguments : List String) (result : Option String) : Act (Session ν) String := do
  let argumentTypes ← onScopes (arguments.mapM Scoping.typeNamed)
  let resultType ← onScopes (result.mapM Scoping.typeNamed)
  let type ← onScopes
    (Scoping.functionType (argumentTypes.map Symbol.id) (resultType.map Symbol.id))
  return type.name

def introduce (name type : String) : Act (Session ν) Unit := do
  let type ← onScopes (Scoping.typeNamed type)
  let _ ← onScopes (Scoping.declare name (.var type.id) Span.unknown)

def assign (name : String) (value : Value ν) : Act (Session ν) Bool := do
  match ← onScopes (Scoping.resolve name) with
  | none => return false
  | some symbol =>
    bind symbol.id value
    return true

/-- Analyses a tree, does some other work, and then dumps and executes what the analysis made. -/
def stage {α : Type} (host : Host ν) (watch : Watch) (tree : Tree) (between : Act (Session ν) α) :
    Act (Session ν) (α × Value ν) := do
  let analysed ← onScopes (Analysis.analyse tree)
  let first ← between
  observe watch tree analysed.node
  return (first, ← execute host analysed.node)

/-- Work by requests in which no names but the given ones are asked for. -/
inductive Discreet (permitted : String → Prop) : {α : Type} → Act (Session ν) α → Prop where
  | pure {α : Type} (value : α) : Discreet permitted (pure value)
  | throw {α : Type} (failure : Failure) : Discreet permitted (throw failure : Act (Session ν) α)
  | bind {α β : Type} {act : Act (Session ν) α} {next : α → Act (Session ν) β} :
      Discreet permitted act → (∀ value, Discreet permitted (next value)) →
      Discreet permitted (act >>= next)
  | attempt {α : Type} {act : Act (Session ν) α} :
      Discreet permitted act → Discreet permitted (Act.attempt act)
  | look : Discreet permitted look
  | write (text : String) : Discreet permitted (write text)
  | fresh (payload : Payload ν) : Discreet permitted (fresh payload)
  | store (value : Value ν) : Discreet permitted (store value)
  | collect : Discreet permitted collect
  | lookup (name : String) : Discreet permitted (lookup name)
  | evaluate {host : Host ν} (watch : Watch) (source : String) :
      (∀ handle arguments, Discreet permitted (host.invoke handle arguments)) →
      Discreet permitted (evaluate host watch source)
  | register {name : String} {arguments : List String} (result : Option String) (handle : ν) :
      permitted name → (∀ type ∈ arguments, permitted type) →
      Discreet permitted (register name arguments result handle >>= fun _ => Pure.pure ())
  | enroll {name : String} {arguments : List String} (result : Option String) (handle : ν) :
      permitted name → (∀ type ∈ arguments, permitted type) →
      Discreet permitted (enroll name arguments result handle)
  | intern {arguments : List String} {result : Option String} :
      (∀ type ∈ arguments, permitted type) → (∀ type, result = some type → permitted type) →
      Discreet permitted (intern arguments result)
  | introduce {name type : String} :
      permitted name → permitted type → Discreet permitted (introduce name type)
  | assign {name : String} (value : Value ν) :
      permitted name → Discreet permitted (assign name value)
  | stage {α : Type} {host : Host ν} (watch : Watch) {tree : Tree}
      {between : Act (Session ν) α} :
      (∀ handle arguments, Discreet permitted (host.invoke handle arguments)) →
      tree.NamesOnly permitted → Discreet permitted between →
      Discreet permitted (stage host watch tree between)
  | enter (id : ScopeId) : Discreet permitted (onScopes (Scoping.enter id))
  | leave : Discreet permitted (onScopes Scoping.leave)
  | plant (name : String) (parent : ScopeId) :
      Discreet permitted (onScopes (Scoping.plant name (some parent)))

end Session

/-- The native functions work on the session by discreet requests. -/
def Host.Discreet (permitted : String → Prop) (host : Host ν) : Prop :=
  ∀ handle arguments, Session.Discreet permitted (host.invoke handle arguments)

namespace Session

/-! ## Requests in parallel sessions -/

private theorem runsAlong_enroll (hhidden : Structural hidden) {name : String}
    (hname : hidden ≠ some name) {arguments : List String}
    (harguments : ∀ type ∈ arguments, hidden ≠ some type) (result : Option String) (handle : ν) :
    RunsAlong hidden (fun _ => Eq) pairs (enroll name arguments result handle)
      (enroll name arguments result handle) := by
  refine (runsAlong_register hhidden hname harguments result handle).bind
    fun u _ symbol symbol' h => ?_
  have hname : ∀ id id', u id id' → Scoping.Tracks hidden (fun _ => Eq) u (Scoping.typeName id)
      (Scoping.typeName id') := fun _ _ => Scoping.tracks_typeName
  have hnames := Act.Tracks.mapM_option (fun _ _ _ _ _ h => h) hname h.variant.type?
  refine runsAlong_onScopes (hnames.mono fun _ _ name name' h => ?_)
  cases h with
  | none => rfl
  | some h => rw [h]

private theorem runsAlong_intern {arguments : List String} {result : Option String}
    (harguments : ∀ type ∈ arguments, hidden ≠ some type)
    (hresult : ∀ type, result = some type → hidden ≠ some type) :
    RunsAlong (ν := ν) hidden (fun _ => Eq) pairs (intern arguments result)
      (intern arguments result) := by
  have hrelated : Option.Rel (fun name name' => name' = name ∧ hidden ≠ some name) result
      result := by
    cases result with
    | none => exact .none
    | some type => exact .some ⟨rfl, hresult type rfl⟩
  have hresultType : Scoping.Tracks hidden (fun u => Option.Rel (Symbol.Mirrors u)) pairs
      (result.mapM Scoping.typeNamed) (result.mapM Scoping.typeNamed) :=
    .mapM_option (fun _ _ hle _ _ h => h.mono hle) Scoping.tracks_typeNamed_each hrelated
  refine (runsAlong_onScopes (tracks_typesNamed harguments)).bind
    fun u hu argumentTypes argumentTypes' htypes => ?_
  refine (runsAlong_onScopes (hresultType.later hu)).bind fun v hv resultType resultType' h => ?_
  have hids := mirrors_ids (htypes.imp fun _ _ h => h.mono hv)
  exact (runsAlong_onScopes (Scoping.tracks_functionType hids (mirrors_id? h))).bind
    fun _ _ type type' h => .pure fun _ _ => h.name.symm

private theorem runsAlong_introduce {name type : String} (hname : hidden ≠ some name)
    (htype : hidden ≠ some type) :
    RunsAlong (ν := ν) hidden (fun _ => Eq) pairs (introduce name type) (introduce name type) := by
  refine (runsAlong_onScopes (Scoping.tracks_typeNamed htype)).bind fun u _ type type' h => ?_
  exact (runsAlong_onScopes (Scoping.tracks_declare hname (.var h.id) rfl _)).bind
    fun _ _ _ _ _ => .pure fun _ _ => rfl

private theorem runsAlong_assign {name : String} (hname : hidden ≠ some name) (value : Value ν) :
    RunsAlong hidden (fun _ => Eq) pairs (assign name value) (assign name value) := by
  refine (runsAlong_onScopes (Scoping.tracks_resolve hname)).bind fun u _ found found' h => ?_
  cases h with
  | none => exact .pure fun _ _ => rfl
  | some hsymbol =>
    exact (runsAlong_bind hsymbol.id value).bind fun _ _ _ _ _ => .pure fun _ _ => rfl

private theorem runsAlong_stage {α : Type} {host : Host ν} (hhost : host.Impartial hidden)
    (watch : Watch) {tree : Tree} (hnames : tree.NamesOnly (hidden ≠ some ·))
    {between : Act (Session ν) α}
    (hbetween : ∀ pairs, RunsAlong hidden (fun _ => Eq) pairs between between) :
    RunsAlong hidden (fun _ => Eq) pairs (stage host watch tree between)
      (stage host watch tree between) := by
  refine (runsAlong_onScopes (Analysis.tracks_analyse tree hnames pairs)).bind
    fun u _ analysed analysed' hanalysed => ?_
  refine (hbetween u).bind fun v hv first _ h => ?_
  subst h
  have hnode := hanalysed.node.mono hv analysed.node analysed'.node
  refine (runsAlong_observe watch tree hnode).bind fun w hw _ _ _ => ?_
  refine ((runsAlong_execute hhost _ _ hnode).later hw).bind fun _ _ value _ h => ?_
  exact .pure fun _ _ => by rw [h]

/-- Discreet work does the same in parallel sessions, unless it may ask for the excepted name. -/
theorem Discreet.runsAlong (hhidden : Structural hidden)
    (hpermitted : ∀ name, permitted name → hidden ≠ some name) {α : Type} {act : Act (Session ν) α}
    (h : Discreet permitted act) (pairs : Pairing) :
    RunsAlong hidden (fun _ => Eq) pairs act act := by
  induction h generalizing pairs with
  | pure value => exact .pure fun _ _ => rfl
  | throw failure => exact .throw failure
  | bind _ _ ih ihNext => exact (ih pairs).bind fun u _ value _ h => h ▸ ihNext value u
  | attempt _ ih =>
      refine (ih pairs).attempt.mono fun _ _ outcome outcome' h => ?_
      cases h with
      | ok h => rw [h]
      | error h => rw [h]
  | look => exact .get fun _ _ s t h => .pure fun _ _ => h.surface.symm
  | write text => exact (runsAlong_write text).mono fun _ _ _ _ _ => rfl
  | fresh payload => exact runsAlong_fresh payload
  | store value => exact (runsAlong_store value).mono fun _ _ _ _ _ => rfl
  | collect => exact runsAlong_collect
  | lookup name => exact runsAlong_lookup name
  | evaluate watch source _ ih =>
      exact runsAlong_evaluate hhidden (fun handle arguments => ih handle arguments) watch source
  | register result handle hname harguments =>
      exact (runsAlong_register hhidden (hpermitted _ hname)
        (fun type htype => hpermitted type (harguments type htype)) result handle).bind
          fun _ _ _ _ _ => .pure fun _ _ => rfl
  | enroll result handle hname harguments =>
      exact runsAlong_enroll hhidden (hpermitted _ hname)
        (fun type htype => hpermitted type (harguments type htype)) result handle
  | intern harguments hresult =>
      exact runsAlong_intern (fun type htype => hpermitted type (harguments type htype))
        fun type htype => hpermitted type (hresult type htype)
  | introduce hname htype => exact runsAlong_introduce (hpermitted _ hname) (hpermitted _ htype)
  | assign value hname => exact runsAlong_assign (hpermitted _ hname) value
  | @stage _ _ watch tree _ _ hnames _ ih ihBetween =>
      exact runsAlong_stage (fun handle arguments => ih handle arguments) watch
        (Tree.NamesOnly.mono hpermitted tree hnames) ihBetween
  | enter id =>
      exact (runsAlong_onScopes (Scoping.tracks_enter id)).mono fun _ _ _ _ _ => rfl
  | leave => exact (runsAlong_onScopes Scoping.tracks_leave).mono fun _ _ _ _ _ => rfl
  | plant name parent => exact runsAlong_onScopes (Scoping.tracks_plant name parent)

/-! ## Hosts of discreet natives -/

theorem Discreet.ofExcept {α : Type} (outcome : Except Failure α) :
    Discreet permitted (Act.ofExcept outcome : Act (Session ν) α) := by
  cases outcome with
  | ok value => exact .pure value
  | error failure => exact .throw failure

private theorem discreet_receive (datum : Datum) :
    Discreet permitted (receive datum : Act (Session ν) (Value ν)) := by
  cases datum with
  | nothing => exact .pure _
  | _ => exact (Discreet.ofExcept _).bind fun payload => .fresh payload

/-- Writes texts, of which the latest is the first. -/
def writeAll : List String → Act (Session ν) Unit
  | [] => return ()
  | text :: texts => do
    writeAll texts
    write text

def skip : Nat → Act (Session ν) Unit
  | 0 => return ()
  | count + 1 => do
    let _ ← fresh .nothing
    skip count

private theorem on_writeAll (texts : List String) (s : Session ν) :
    (writeAll texts).on s = (.ok (), s.noted (texts.map .wrote) s.nextValue) := by
  induction texts with
  | nil => rfl
  | cons text texts ih =>
      rw [writeAll, Act.on_bind_of_ok ih]
      rfl

private theorem on_skip (count : Nat) (s : Session ν) :
    (skip count).on s = (.ok (), s.noted [] (s.nextValue + count)) := by
  induction count generalizing s with
  | zero => rfl
  | succ count ih =>
      rw [skip, Act.on_bind_of_ok (on_fresh _ _), ih, noted, noted, Nat.add_right_comm,
        Nat.add_assoc]

private theorem discreet_writeAll (texts : List String) :
    Discreet permitted (writeAll texts : Act (Session ν) Unit) := by
  induction texts with
  | nil => exact .pure ()
  | cons text texts ih => exact ih.bind fun _ => .write text

private theorem discreet_skip (count : Nat) :
    Discreet permitted (skip count : Act (Session ν) Unit) := by
  induction count with
  | zero => exact .pure ()
  | succ count ih => exact (Discreet.fresh _).bind fun _ => ih

end Session

/-- Native functions that do not work on the session ask for no names at all. -/
theorem Natives.discreet_host (natives : Natives ν) : natives.host.Discreet permitted := by
  intro handle arguments
  have hwork : natives.host.invoke handle arguments = (do
      let surface ← Session.look
      let response := natives.respond handle arguments surface.observed surface.nextValue
      Session.writeAll response.texts
      Session.skip response.taken
      Act.ofExcept response.outcome) := by
    funext s
    refine (Session.on_invoke natives handle arguments s rfl).trans ?_
    have hlook : Session.look.on s = (.ok s.surface, s) := rfl
    change _ = Act.on _ s
    rw [Act.on_bind_of_ok hlook]
    dsimp only
    rw [Act.on_bind_of_ok (Session.on_writeAll _ _), Act.on_bind_of_ok (Session.on_skip _ _)]
    rfl
  rw [hwork]
  refine Session.Discreet.look.bind fun surface => ?_
  refine (Session.discreet_writeAll _).bind fun _ => ?_
  exact (Session.discreet_skip _).bind fun _ => .ofExcept _

namespace Behaviour

open Session (Discreet)

private theorem discreet_prepare (behaviour : Behaviour) :
    Discreet permitted behaviour.prepare := by
  cases behaviour with
  | shared datum =>
      refine (Session.discreet_receive datum).bind fun value => ?_
      cases value.payload <;> exact .pure _
  | _ => exact .pure _

private theorem discreet_perform {inner : Host Behaviour} (hinner : inner.Discreet (fun _ => True))
    (arguments : List (Value Behaviour)) (behaviour : Behaviour) :
    Discreet (fun _ => True) (behaviour.perform inner arguments) := by
  cases behaviour with
  | constant | kept => exact .pure _
  | shared datum => exact (Session.discreet_receive datum).bind fun _ => .pure _
  | argument | sum | concatenation | negation =>
      exact (Discreet.ofExcept _).bind fun _ => .pure _
  | plainArgument index =>
      refine (Discreet.ofExcept _).bind fun value => ?_
      cases value.payload.datum? <;> exact .pure _
  | equality | length =>
      exact (Discreet.ofExcept _).bind fun _ => (Discreet.ofExcept _).bind fun _ => .pure _
  | failure outcome => exact .throw outcome
  | evaluation source => exact (Discreet.evaluate _ source hinner).bind fun _ => .pure _
  | registration name types result behaviour =>
      have henroll : perform inner arguments (.registration name types result behaviour) =
          prepare behaviour >>= fun handle => Session.enroll name types result handle >>=
            fun _ => pure (.datum .null) := by
        simp only [perform, Behaviour.register, Session.enroll, bind_assoc]
      rw [henroll]
      exact (discreet_prepare behaviour).bind fun handle =>
        (Discreet.enroll result handle trivial fun _ _ => trivial).bind fun _ => .pure _
  | collection => exact Discreet.collect.bind fun _ => .pure _
  | inspection name =>
      refine (Discreet.lookup name).bind fun found => ?_
      cases found with
      | none => exact .pure _
      | some value => exact (Discreet.ofExcept _).bind fun _ => .pure _
  | message text => exact (Discreet.write _).bind fun _ => .pure _
  | writeText | writeInteger =>
      exact (Discreet.ofExcept _).bind fun _ => (Discreet.ofExcept _).bind fun _ =>
        (Discreet.write _).bind fun _ => .pure _

/-- The stock of behaviours works by discreet requests, if all names may be asked for. -/
theorem discreet_host (depth : Nat) : (host depth).Discreet (fun _ => True) := by
  induction depth with
  | zero => exact fun _ _ => .throw _
  | succ depth ih =>
      intro behaviour arguments
      have hperform := discreet_perform ih arguments behaviour
      simp only [host]
      split
      · exact (Discreet.ofExcept _).bind fun _ => hperform
      · exact hperform

end Behaviour

end Scriptlet
