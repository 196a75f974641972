import Scriptlet.Proofs.Sessions.Carrying
import Scriptlet.Proofs.Sessions.Endurance
/-!
# Sessions under a policy

A policy restricts what an embedding program and its native functions do to a session:
which symbols they bind, which values they store, which functions they register and
which programs they evaluate.  A condition that every single step keeps under a policy
is kept by all that the policy allows, evaluations of programs included.
-/

namespace Scriptlet

open Act (Preserves)

variable {ν : Type}

structure Policy (ν : Type) where
  /-- The symbols that may be bound. -/
  symbols : SymbolId → Prop
  /-- The values that may be stored and handed over. -/
  values : Value ν → Prop
  /-- The native functions that may be registered. -/
  functions : ν → Prop
  /-- The programs that may be evaluated. -/
  programs : List Tree → Prop
  /-- What native functions may count on in the session that calls them. -/
  sessions : Session ν → Prop

namespace Policy

def free : Policy ν where
  symbols _ := True
  values _ := True
  functions _ := True
  programs _ := True
  sessions _ := True

structure Allows (policy : Policy ν) (handle : ν) (arguments : List (Value ν))
    (s : Session ν) : Prop where
  function : policy.functions handle
  arguments : ∀ value ∈ arguments, policy.values value
  session : policy.sessions s

/-- Native functions hand over allowed values when their call is allowed. -/
def Admits (policy : Policy ν) (host : Host ν) : Prop :=
  ∀ handle arguments s t value, policy.Allows handle arguments s →
    (host.invoke handle arguments).on s = (.ok (.value value), t) → policy.values value

end Policy

namespace Session

/-- What an embedding program can make of a session under a policy, and what its native functions
can make of the session that calls them. -/
inductive EvolvesInto (policy : Policy ν) : Session ν → Session ν → Prop where
  /-- Scopes, bindings and stored values are left alone; new values may have been made. -/
  | apart {s t : Session ν} : t.scoping = s.scoping → t.bindings = s.bindings →
      t.values = s.values → s.nextValue ≤ t.nextValue → EvolvesInto policy s t
  | enter {s : Session ν} (id : ScopeId) :
      EvolvesInto policy s ((onScopes (Scoping.enter id)).on s).2
  | leave {s : Session ν} : EvolvesInto policy s ((onScopes Scoping.leave).on s).2
  | plant {s : Session ν} (name : String) (parent : Option ScopeId) :
      EvolvesInto policy s ((onScopes (Scoping.plant name parent)).on s).2
  | insert {s : Session ν} (scope : Scope) (name : String) (variant : Symbol.Variant)
      (sort : String) :
      EvolvesInto policy s ((onScopes (Scoping.insert scope name variant sort)).on s).2
  | declare {s : Session ν} (name : String) (variant : Symbol.Variant) (span : Span) :
      EvolvesInto policy s ((onScopes (Scoping.declare name variant span)).on s).2
  | functionType {s : Session ν} (arguments : List SymbolId) (result : Option SymbolId) :
      EvolvesInto policy s ((onScopes (Scoping.functionType arguments result)).on s).2
  | analyse {s : Session ν} (tree : Tree) :
      EvolvesInto policy s ((onScopes (Analysis.analyse tree)).on s).2
  | store {s : Session ν} {value : Value ν} : policy.values value →
      EvolvesInto policy s ((store value).on s).2
  | bind {s : Session ν} {symbol : SymbolId} {value : Value ν} : policy.symbols symbol →
      policy.values value → EvolvesInto policy s ((bind symbol value).on s).2
  | collect {s : Session ν} : EvolvesInto policy s (collect.on s).2
  | register {s : Session ν} {handle : ν} (name : String) (arguments : List String)
      (result : Option String) : policy.functions handle →
      EvolvesInto policy s ((register name arguments result handle).on s).2
  | evaluate {s : Session ν} {host : Host ν} {watch : Watch} {source : String} :
      (∀ trees, parseProgram source s.settings.sourceName = .ok trees → policy.programs trees) →
      (∀ handle arguments s, policy.Allows handle arguments s →
        EvolvesInto policy s ((host.invoke handle arguments).on s).2) →
      policy.Admits host → EvolvesInto policy s ((evaluate host watch source).on s).2
  | trans {s t u : Session ν} : EvolvesInto policy s t → EvolvesInto policy t u →
      EvolvesInto policy s u

structure Meets (scopes : Scoping → Prop) (stores : Session ν → Prop) (s : Session ν) : Prop where
  scopes : scopes s.scoping
  stores : stores s

end Session

open Session (Meets Carried Carries Watch)

/-- Allowed calls keep the condition, and what they hand over is allowed. -/
structure Host.Respects (host : Host ν) (policy : Policy ν) (kept : Session ν → Prop) : Prop where
  keeps : ∀ handle arguments s, policy.Allows handle arguments s → kept s →
    kept ((host.invoke handle arguments).on s).2
  admits : policy.Admits host

/-- Every step that the policy allows keeps a condition on the scopes and one on the values. -/
structure Policy.Keeps (policy : Policy ν) (scopes : Scoping → Prop)
    (stores : Session ν → Prop) : Prop where
  endures : Scoping.Endures scopes
  plant : ∀ name parent, Preserves scopes (Scoping.plant name parent)
  insert : ∀ scope name variant sort, Preserves scopes (Scoping.insert scope name variant sort)
  /-- A symbol that is about to be declared may be bound. -/
  newSymbol : ∀ {s}, scopes s → policy.symbols ⟨s.forest.nextSymbol⟩
  /-- Allowed programs bind allowed symbols. -/
  targets : ∀ {source file trees}, parseProgram source file = .ok trees → policy.programs trees →
    ∀ tree ∈ trees, ∀ s, scopes s → (Analysis.analyse tree).Ensures s
      (fun analysed _ => ∀ symbol ∈ analysed.node.targets, policy.symbols symbol) (fun _ _ => True)
  apart : ∀ {s t}, stores s → t.bindings = s.bindings → t.values = s.values →
    s.nextValue ≤ t.nextValue → stores t
  nothing : policy.values .nothing
  /-- A value that is about to be made may be stored. -/
  fresh : ∀ {s payload}, stores s →
    (∀ name handle result, payload = .native name handle result → policy.functions handle) →
    policy.values ⟨⟨s.nextValue⟩, payload⟩
  read : ∀ {s value}, stores s → value ∈ s.values.values → policy.values value
  called : ∀ {value name handle result}, policy.values value →
    value.payload = .native name handle result → policy.functions handle
  stored : ∀ {s value}, stores s → policy.values value →
    stores { s with values := s.values.insert value }
  bound : ∀ {s symbol value}, stores s → policy.symbols symbol → policy.values value →
    stores (s.bound symbol value)
  collected : ∀ {s}, stores s → stores s.collected
  sessions : ∀ {s}, Meets scopes stores s → policy.sessions s

theorem Payload.ofDatum_ne_native {datum : Datum} {payload : Payload ν}
    (h : Payload.ofDatum datum = .ok payload) (name : String) (handle : ν)
    (result : Option Primitive.Kind) : payload ≠ .native name handle result := by
  rintro rfl
  cases datum <;> cases h

namespace Policy.Keeps

variable {policy : Policy ν} {scopes : Scoping → Prop} {stores : Session ν → Prop}
  {host : Host ν} {s t : Session ν}

theorem meets (h : policy.Keeps scopes stores) (hs : Meets scopes stores s)
    (hscoping : t.scoping = s.scoping) (hbindings : t.bindings = s.bindings)
    (hvalues : t.values = s.values) (hnext : s.nextValue ≤ t.nextValue) :
    Meets scopes stores t :=
  ⟨hscoping ▸ hs.scopes, h.apart hs.stores hbindings hvalues hnext⟩

theorem rescoped (h : policy.Keeps scopes stores) (hs : Meets scopes stores s)
    {scoping : Scoping} (hscoping : scopes scoping) :
    Meets scopes stores (s.rescoped scoping) :=
  ⟨h.endures.unlogged [] hscoping, h.apart hs.stores rfl rfl (Nat.le_refl _)⟩

theorem onScopes (h : policy.Keeps scopes stores) {α : Type} {act : Act Scoping α}
    (hact : Preserves scopes act) : Preserves (Meets scopes stores) (Session.onScopes act) :=
  fun s hs => h.rescoped hs (hact s.scoping hs.scopes)

/-! ## Registration -/

theorem enlist (h : policy.Keeps scopes stores) {handle : ν} (hhandle : policy.functions handle)
    (name : String) (kind : Option Primitive.Kind) (type : Symbol) :
    Preserves (Meets scopes stores) (Session.enlist name handle kind type) := by
  intro s hs
  have hsymbol : (Scoping.declare name (.native type.id) Span.unknown).Ensures s.scoping
      (fun symbol _ => policy.symbols symbol.id) (fun _ _ => True) := by
    obtain ⟨scope, hscope⟩ := (h.endures.placed hs.scopes).cursor
    cases hfind : scope.find? name with
    | none => exact .of_on_ok (Scoping.on_declare hscope hfind _ _) (h.newSymbol hs.scopes)
    | some existing =>
        obtain ⟨diagnostic, hon, -⟩ :=
          Scoping.on_declare_taken hscope hfind (.native type.id) Span.unknown
        exact .of_on_error hon trivial
  have hdeclare := ((h.endures.declare name (.native type.id) Span.unknown).ensures hs.scopes).and
    hsymbol
  apply Act.Ensures.state
  refine (Session.onScopes_ensures hdeclare).bind ?_ ?_
  · rintro failure _ ⟨scoping, rfl, hscoping, -⟩
    exact h.rescoped hs hscoping
  · rintro symbol _ ⟨scoping, rfl, hscoping, hallowed⟩
    have hrescoped := h.rescoped hs hscoping
    have hvalue : policy.values ⟨⟨s.nextValue⟩, .native name handle kind⟩ := by
      refine h.fresh hs.stores ?_
      rintro _ _ _ ⟨⟩
      exact hhandle
    have hbound : Meets scopes stores ((s.rescoped scoping).bound symbol.id _) :=
      ⟨hrescoped.scopes, h.bound hrescoped.stores hallowed hvalue⟩
    exact h.meets hbound rfl rfl rfl (Nat.le_succ _)

theorem register (h : policy.Keeps scopes stores) {handle : ν} (hhandle : policy.functions handle)
    (name : String) (arguments : List String) (result : Option String) :
    Preserves (Meets scopes stores) (Session.register name arguments result handle) := by
  have hnamed : ∀ name, Preserves scopes (Scoping.typeNamed name) :=
    Scoping.preserves_typeNamed scopes
  have hkind : Preserves (Meets scopes stores) (Session.resultKind name result) :=
    .of_same fun s => Session.resultKind_ensures name result
  rw [Session.register_eq]
  refine (h.onScopes (Preserves.mapM hnamed arguments)).bind fun argumentTypes => ?_
  refine hkind.bind fun kind => ?_
  have hresult := Preserves.mapM_option (fun kind : Primitive.Kind => hnamed kind.label) kind
  refine (h.onScopes hresult).bind fun resultType => ?_
  have htype := h.endures.functionType (argumentTypes.map Symbol.id) (resultType.map Symbol.id)
  exact (h.onScopes htype).bind fun type => h.enlist hhandle name kind type

/-! ## Calls -/

theorem ofReply (h : policy.Keeps scopes stores) {reply : Reply ν}
    (hreply : ∀ value, reply = .value value → policy.values value) :
    Carried policy.values (Meets scopes stores) (fun _ => True) (Session.ofReply reply) := by
  intro s hs
  cases reply with
  | value value => exact Act.ensures_pure ⟨hreply value rfl, hs⟩
  | function => exact Act.ensures_throw ⟨trivial, hs⟩
  | datum datum =>
      have hfresh : (do Session.fresh (← Act.ofExcept (Payload.ofDatum datum)) :
          Act (Session ν) (Value ν)).Ensures s
          (fun value t => policy.values value ∧ Meets scopes stores t)
          (fun _ t => True ∧ Meets scopes stores t) := by
        cases hpayload : Payload.ofDatum (ν := ν) datum with
        | error failure => exact .of_on_error rfl ⟨trivial, hs⟩
        | ok payload =>
            refine .of_on_ok rfl ⟨h.fresh hs.stores ?_, h.meets hs rfl rfl rfl (Nat.le_succ _)⟩
            exact fun name handle result heq =>
              absurd heq (Payload.ofDatum_ne_native hpayload name handle result)
      cases datum with
      | nothing => exact Act.ensures_pure ⟨h.nothing, hs⟩
      | _ => exact hfresh

theorem refusal (hs : Meets scopes stores s) (shown : Except Numeral.Error String)
    (fault : String → Fault) (span : Span) :
    (do Act.fail (fault (← Act.ofNumeral shown)) span : Act (Session ν) (Value ν)).Ensures s
      (fun value t => policy.values value ∧ Meets scopes stores t)
      (fun _ t => True ∧ Meets scopes stores t) := by
  cases shown with
  | error error => exact .of_on_error rfl ⟨trivial, hs⟩
  | ok text => exact .of_on_error rfl ⟨trivial, hs⟩

theorem call (h : policy.Keeps scopes stores)
    (hhost : host.Respects policy (Meets scopes stores)) {callee : Value ν}
    {arguments : List (Value ν)}
    (hcallee : policy.values callee) (harguments : ∀ value ∈ arguments, policy.values value)
    (token : Token) :
    Carried policy.values (Meets scopes stores) (fun _ => True)
      (Session.call host callee arguments token) := by
  intro s hs
  unfold Session.call
  cases hpayload : callee.payload with
  | nothing => exact refusal hs _ _ _
  | primitive value => exact refusal hs _ _ _
  | native name handle result =>
      have hcalled : Meets scopes stores
          { s with journal := .called name handle arguments :: s.journal } :=
        h.meets hs rfl rfl rfl (Nat.le_refl _)
      have hallowed := Policy.Allows.mk (h.called hcallee hpayload) harguments (h.sessions hcalled)
      have hafter := hhost.keeps handle arguments _ hallowed hcalled
      unfold Act.Ensures
      rw [Act.on_bind_of_ok (Session.on_record _ s), Act.on_bind_of_ok (Act.on_attempt _ _)]
      match hinvoke : (host.invoke handle arguments).on
        { s with journal := .called name handle arguments :: s.journal } with
      | (.error (.fault diagnostic), t) =>
          rw [hinvoke] at hafter
          exact ⟨trivial, hafter⟩
      | (.error (.host error), t) =>
          rw [hinvoke] at hafter
          exact ⟨trivial, hafter⟩
      | (.ok reply, t) =>
          rw [hinvoke] at hafter
          cases result with
          | none => exact ⟨h.nothing, hafter⟩
          | some kind =>
              have hreply : ∀ value, reply = .value value → policy.values value := by
                rintro value rfl
                exact hhost.admits handle arguments _ t value hallowed hinvoke
              refine (h.ofReply hreply t hafter).bind (fun _ _ h => h) ?_
              rintro value u ⟨hvalue, hu⟩
              by_cases hkind : value.payload.kind? = some kind
              · rw [if_pos hkind]
                exact .of_on_ok rfl ⟨hvalue, hu.scopes, h.stored hu.stores hvalue⟩
              · rw [if_neg hkind]
                exact refusal hu _ _ _

/-! ## Evaluation -/

private theorem carries (h : policy.Keeps scopes stores)
    (hhost : host.Respects policy (Meets scopes stores)) (forest : Forest) :
    Carries host forest policy.values (fun _ => Meets scopes stores) (fun _ => True)
      policy.symbols where
  nothing := h.nothing
  literal := by
    intro id s token kind hs
    rw [Session.execute]
    cases hvalue : Session.literalValue token kind with
    | error diagnostic => exact .of_on_error rfl ⟨trivial, hs⟩
    | ok value =>
        exact .of_on_ok rfl ⟨h.fresh hs.stores nofun, h.meets hs rfl rfl rfl (Nat.le_succ _)⟩
  read := by
    intro id s symbol token hs
    refine (Session.readVariable_stored symbol token s).mono ?_ ?_
    · rintro value _ ⟨hvalue, rfl⟩
      exact ⟨h.read hs.stores hvalue, h.rescoped hs hs.scopes⟩
    · rintro failure _ ⟨-, rfl⟩
      exact ⟨trivial, h.rescoped hs hs.scopes⟩
  bound hsymbol hvalue hs := ⟨hs.scopes, h.bound hs.stores hsymbol hvalue⟩
  call token hcallee harguments hs := h.call hhost hcallee harguments token _ hs
  written := by
    intro id s value _ hs
    refine ((Preserves.ofExcept _).ensures hs).bind (fun _ _ ht => ⟨trivial, ht⟩) ?_
    exact fun text t ht => .of_on_ok rfl (h.meets ht rfl rfl rfl (Nat.le_refl _))
  entering _ _ hs := ((h.onScopes (h.endures.enter _)).ensures hs).mono (fun _ _ ht => ht)
    (fun _ _ ht => ⟨trivial, ht⟩)
  leaving _ _ hs := ((h.onScopes h.endures.leave).ensures hs).mono (fun _ _ ht => ht)
    (fun _ _ ht => ⟨trivial, ht⟩)

theorem runStatement (h : policy.Keeps scopes stores)
    (hhost : host.Respects policy (Meets scopes stores)) (watch : Watch) {tree : Tree}
    (htargets : ∀ s, scopes s → (Analysis.analyse tree).Ensures s
      (fun analysed _ => ∀ symbol ∈ analysed.node.targets, policy.symbols symbol)
      (fun _ _ => True)) :
    Carried policy.values (Meets scopes stores) (fun _ => True)
      (Session.runStatement host watch tree) := by
  intro s hs
  have hanalysed := ((h.endures.upholds.analyse tree).ensures hs.scopes).and
    ((Analysis.stays_analyse tree s.scoping (h.endures.placed hs.scopes)).and
      (htargets s.scoping hs.scopes))
  have hobserve : ∀ node, Preserves (Meets scopes stores) (Session.observe watch tree node) :=
    Session.preserves_observe (fun hs => h.meets hs rfl rfl rfl (Nat.le_refl _)) watch tree
  refine (Session.onScopes_ensures hanalysed).bind ?_ ?_
  · rintro failure _ ⟨scoping, rfl, hscoping, -⟩
    exact ⟨trivial, h.rescoped hs hscoping⟩
  rintro analysed _ ⟨scoping, rfl, hscoping, ⟨-, hnested⟩, hallowed⟩
  refine ((hobserve analysed.node).ensures (h.rescoped hs hscoping)).bind
    (fun _ _ ht => ⟨trivial, ht⟩) ?_
  exact fun _ t ht => (h.carries hhost scoping.forest).execute hnested hallowed t ht

theorem runStatements (h : policy.Keeps scopes stores)
    (hhost : host.Respects policy (Meets scopes stores)) (watch : Watch) {trees : List Tree}
    (htargets : ∀ tree ∈ trees, ∀ s, scopes s → (Analysis.analyse tree).Ensures s
      (fun analysed _ => ∀ symbol ∈ analysed.node.targets, policy.symbols symbol)
      (fun _ _ => True)) {last : Value ν} (hlast : policy.values last) :
    Carried policy.values (Meets scopes stores) (fun _ => True)
      (Session.runStatements host watch last trees) := by
  induction trees generalizing last with
  | nil =>
      intro s hs
      rw [Session.runStatements]
      exact Act.ensures_pure ⟨hlast, hs⟩
  | cons tree trees ih =>
      intro s hs
      rw [List.forall_mem_cons] at htargets
      rw [Session.runStatements_cons]
      refine (h.runStatement hhost watch htargets.1 s hs).bind (fun _ _ h => h) ?_
      exact fun value t ht => ih htargets.2 ht.1 t ht.2

theorem conclude (h : policy.Keeps scopes stores) (count : Nat) (value : Value ν) :
    Preserves (Meets scopes stores) (Session.conclude count value) := by
  intro s hs
  have hcounted : Meets scopes stores (s.counted count) := h.meets hs rfl rfl rfl (Nat.le_refl _)
  rw [Session.on_conclude]
  rcases Session.on_collectIfDue (s.counted count) with hon | hon
  · rw [Act.on_bind_of_ok hon]
    exact hcounted
  · rw [Act.on_bind_of_ok hon]
    exact ⟨hcounted.scopes, h.collected hcounted.stores⟩

theorem evaluate (h : policy.Keeps scopes stores)
    (hhost : host.Respects policy (Meets scopes stores)) (watch : Watch) {source : String}
    (hs : Meets scopes stores s)
    (hprogram : ∀ trees, parseProgram source s.settings.sourceName = .ok trees →
      policy.programs trees) :
    Meets scopes stores ((Session.evaluate host watch source).on s).2 := by
  cases hparse : parseProgram source s.settings.sourceName with
  | error diagnostic =>
      rw [Session.on_evaluate_refused hparse]
      exact hs
  | ok trees =>
      have hrun := h.runStatements hhost watch (h.targets hparse (hprogram trees hparse))
        h.nothing
      have hstatements : Preserves (Meets scopes stores)
          (Session.runStatements host watch .nothing trees) := by
        intro t ht
        exact ((hrun t ht).mono (fun _ _ hu => hu.2) (fun _ _ hu => hu.2)).state
      have hsteps := (h.onScopes (h.endures.enter Forest.replId)).bind fun _ =>
        (hstatements.closing (h.onScopes h.endures.leave)).bind (h.conclude trees.length)
      rw [Session.on_evaluate_read hparse]
      exact hsteps _ (h.meets hs rfl rfl rfl (Nat.le_refl _))

end Policy.Keeps

/-- What every step keeps is kept by all that the policy allows. -/
theorem Session.EvolvesInto.meets {policy : Policy ν} {scopes : Scoping → Prop}
    {stores : Session ν → Prop} {s t : Session ν} (hevolves : s.EvolvesInto policy t)
    (h : policy.Keeps scopes stores) (hs : Meets scopes stores s) : Meets scopes stores t := by
  induction hevolves with
  | apart hscoping hbindings hvalues hnext => exact h.meets hs hscoping hbindings hvalues hnext
  | enter id => exact h.onScopes (h.endures.enter id) _ hs
  | leave => exact h.onScopes h.endures.leave _ hs
  | plant name parent => exact h.onScopes (h.plant name parent) _ hs
  | insert scope name variant sort => exact h.onScopes (h.insert scope name variant sort) _ hs
  | declare name variant span => exact h.onScopes (h.endures.declare name variant span) _ hs
  | functionType arguments result =>
      exact h.onScopes (h.endures.functionType arguments result) _ hs
  | analyse tree => exact h.onScopes (h.endures.upholds.analyse tree) _ hs
  | store hvalue => exact ⟨hs.scopes, h.stored hs.stores hvalue⟩
  | bind hsymbol hvalue => exact ⟨hs.scopes, h.bound hs.stores hsymbol hvalue⟩
  | collect => exact ⟨hs.scopes, h.collected hs.stores⟩
  | register name arguments result hhandle =>
      exact h.register hhandle name arguments result _ hs
  | evaluate hprogram _ hadmits ih => exact h.evaluate ⟨ih, hadmits⟩ _ hs hprogram
  | trans _ _ ihFirst ihSecond => exact ihSecond (ihFirst hs)

end Scriptlet
