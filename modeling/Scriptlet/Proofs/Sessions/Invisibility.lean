import Scriptlet.Behaviour
import Scriptlet.Proofs.Sessions.Discretion
import Scriptlet.Proofs.Sessions.Interning
/-!
# Refused registrations

A registration interns the type of the function before it declares the name, and the type stays
when the name turns out to be taken.  Nothing else is left of the call.  Programs cannot name the
type, and a native function that does not name it cannot tell either: from then on, sources are
evaluated as if the call had not been made.
-/

namespace Scriptlet

variable {ν : Type} {hidden : Option String} {pairs : Pairing}

/-! ## What a refused registration leaves -/

/-- The forest has stayed as it was, or has got one more type of the given structural name. -/
def Forest.GainsType (name : String) (forest grown : Forest) : Prop :=
  grown = forest ∨ forest.global.find? name = none ∧ ∃ parameters returned,
    grown = forest.withSymbol globalId (forest.newSymbol name (.function parameters returned))

namespace Scoping

variable {base : Forest} {s : Scoping}

private theorem typeNamed_refused (name : String) (s : Scoping) :
    (typeNamed name).Ensures s (fun _ _ => True)
      (fun failure _ => failure = .placeless (.undefinedSymbol name "type")) := by
  unfold typeNamed Act.Ensures
  rw [Act.on_bind_of_ok (Act.on_get s)]
  cases s.forest.global.find? name with
  | none => rfl
  | some symbol =>
      dsimp only
      by_cases htype : symbol.variant.isType = true
      · rw [if_pos htype]
        trivial
      · rw [if_neg htype]
        rfl

private theorem mapM_typeNamed_refused (names : List String) (s : Scoping) :
    (names.mapM typeNamed).Ensures s (fun _ _ => True)
      (fun failure _ => ∃ name ∈ names, failure = .placeless (.undefinedSymbol name "type")) := by
  induction names generalizing s with
  | nil => exact Act.ensures_pure trivial
  | cons name names ih =>
      rw [List.mapM_cons]
      refine (typeNamed_refused name s).bind
        (fun _ _ h => ⟨name, List.mem_cons_self, h⟩) fun symbol t _ => ?_
      refine (ih t).bind ?_ fun _ _ _ => Act.ensures_pure trivial
      rintro failure _ ⟨other, hother, h⟩
      exact ⟨other, List.mem_cons_of_mem _ hother, h⟩

theorem Interns.on_resultType (hs : s.Interns base) (kind : Option Primitive.Kind) :
    (kind.mapM fun kind => typeNamed kind.label).on s =
      (.ok (kind.map Primitive.Kind.typeSymbol), s) := by
  cases kind with
  | none => rfl
  | some kind =>
      have hfind := hs.interning.wellFormed.find?_global (hs.interning.primitives kind)
      have hon : (typeNamed kind.label).on s = (.ok kind.typeSymbol, s) := by
        have hname : kind.typeSymbol.name = kind.label := rfl
        unfold typeNamed
        rw [Act.on_bind_of_ok (Act.on_get s), ← hname]
        simp only [hfind]
        rfl
      exact Act.on_map_of_ok hon some

/-- Interning a signature of known types succeeds; it adds the type, or nothing. -/
theorem Interns.functionType_gains (hs : s.Interns base) {arguments : List SymbolId}
    {result : Option SymbolId} {name : String} (h : s.forest.NamesFunction arguments result name) :
    (Scoping.functionType arguments result).Ensures s
      (fun _ t => t.Interns base ∧ t.cursor = s.cursor ∧ s.forest.GainsType name t.forest)
      (fun _ _ => False) := by
  have hformed := hs.interning.wellFormed
  obtain ⟨symbol, t, hon⟩ := exists_on_functionType hformed h
  have hensures := functionType_ensures_named arguments result s
  have hinterns := interns_functionType arguments result s hs
  unfold Act.Ensures at hensures ⊢
  rw [hon] at hensures hinterns ⊢
  refine ⟨hinterns, ?_⟩
  obtain ⟨other, hother, hcases⟩ := hensures
  obtain rfl := hformed.namesFunction_unique hother h
  rcases hcases with ⟨-, rfl⟩ | ⟨hfree, -, rfl⟩
  · exact ⟨rfl, .inl rfl⟩
  · refine ⟨rfl, .inr ⟨hfree, arguments, result, ?_⟩⟩
    rw [inserted, Forest.id_of_get? hformed.global_eq]

end Scoping

namespace Session

variable {s t : Session ν}

structure Spares (s t : Session ν) : Prop where
  surface : t.surface = s.surface
  bindings : t.bindings = s.bindings
  labels : t.labels = s.labels

theorem Spares.rescoped (h : s.Spares t) {scoping : Scoping}
    (hcursor : scoping.cursor = t.scoping.cursor) : s.Spares (t.rescoped scoping) where
  surface := by
    rw [← h.surface]
    unfold Session.surface
    rw [(resembles_rescoped t scoping).observed]
    exact congrArg (fun cursor => { t.surface with cursor := cursor }) hcursor
  bindings := h.bindings
  labels := h.labels

/-- Why a registration is refused: the type of an argument is unknown, the result is no primitive,
or the name is taken. -/
inductive Refuses (name : String) (arguments : List String) (result : Option String) :
    Failure → Prop where
  | unknownType {type : String} : type ∈ arguments →
      Refuses name arguments result (.placeless (.undefinedSymbol type "type"))
  | notPrimitive {type : String} : result = some type → Primitive.Kind.named? type = none →
      Refuses name arguments result (.host (.nonPrimitiveResult name type))
  | taken {diagnostic : Diagnostic} :
      diagnostic.fault = .redefinedSymbol name "native function" →
      Refuses name arguments result (.fault diagnostic)

private theorem resultKind_refused (name : String) (result : Option String) :
    (resultKind name result).Ensures s (fun _ _ => True) (fun failure _ =>
      ∃ type, result = some type ∧ Primitive.Kind.named? type = none ∧
        failure = .host (.nonPrimitiveResult name type)) := by
  unfold resultKind Act.Ensures
  cases result with
  | none => trivial
  | some type =>
      dsimp only
      cases hkind : Primitive.Kind.named? type with
      | none => exact ⟨type, rfl, hkind, rfl⟩
      | some kind => trivial

private theorem enlist_refused {base : Forest} (hs : s.scoping.Interns base) (name : String)
    (handle : ν) (kind : Option Primitive.Kind) (type : Symbol) :
    (enlist name handle kind type).Ensures s (fun _ _ => True) (fun failure t =>
      t = s.rescoped s.scoping ∧ ∃ diagnostic, failure = .fault diagnostic ∧
        diagnostic.fault = .redefinedSymbol name "native function") := by
  obtain ⟨scope, hscope⟩ := hs.grown.cursor
  unfold enlist Act.Ensures
  cases hfind : scope.find? name with
  | some existing =>
      obtain ⟨diagnostic, hon, hfault⟩ :=
        Scoping.on_declare_taken hscope hfind (.native type.id) Span.unknown
      rw [Act.on_bind_of_error (on_onScopes hon)]
      exact ⟨rfl, diagnostic, rfl, hfault⟩
  | none =>
      rw [Act.on_bind_of_ok (on_onScopes
          (Scoping.on_declare hscope hfind (.native type.id) Span.unknown)),
        Act.on_bind_of_ok (on_fresh _ _), Act.on_bind_of_ok (on_bind _ _ _),
        Act.on_bind_of_ok (on_record _ _)]
      trivial

/-- A registration that fails has one of three reasons, and leaves a type at most. -/
theorem register_refused {base : Forest} (hs : s.scoping.Interns base) (name : String)
    (arguments : List String) (result : Option String) (handle : ν) :
    (register name arguments result handle).Ensures s (fun _ _ => True) (fun failure t =>
      Refuses name arguments result failure ∧ s.Spares t ∧
        s.scoping.forest.GainsType (functionTypeName arguments result) t.scoping.forest) := by
  have hspares : s.Spares (s.rescoped s.scoping) :=
    Spares.rescoped ⟨rfl, rfl, rfl⟩ rfl
  rw [register_eq]
  have hlook := (Scoping.mapM_typeNamed_ensures arguments s.scoping).and
    (Scoping.mapM_typeNamed_refused arguments s.scoping)
  refine (onScopes_ensures hlook).bind ?_ ?_
  · rintro failure _ ⟨scoping, rfl, rfl, type, htype, rfl⟩
    exact ⟨.unknownType htype, hspares, .inl rfl⟩
  rintro argumentTypes _ ⟨scoping, rfl, ⟨rfl, hnames⟩, -⟩
  refine ((resultKind_label name result).and (resultKind_refused name result)).bind ?_ ?_
  · rintro failure _ ⟨rfl, type, hresult, hkind, rfl⟩
    exact ⟨.notPrimitive hresult hkind, hspares, .inl rfl⟩
  rintro kind _ ⟨⟨rfl, hkind⟩, -⟩
  have hbefore : (s.rescoped s.scoping).scoping.Interns base := hs.unlogged []
  unfold Act.Ensures
  rw [Act.on_bind_of_ok (on_onScopes (hbefore.on_resultType kind)), Option.map_map]
  have hname : s.scoping.forest.NamesFunction (argumentTypes.map Symbol.id)
      (kind.map (Symbol.id ∘ Primitive.Kind.typeSymbol)) (functionTypeName arguments result) := by
    refine ⟨arguments, result, hnames, ?_, rfl⟩
    cases kind with
    | none => exact hkind ▸ .none
    | some kind =>
        exact hkind ▸ .some ⟨kind.typeSymbol, hs.interning.primitives kind, rfl, rfl, rfl⟩
  refine (onScopes_ensures ((hbefore.unlogged []).functionType_gains hname)).bind ?_ ?_
  · rintro _ _ ⟨scoping, -, hfalse⟩
    exact hfalse.elim
  rintro type _ ⟨scoping, rfl, hinterns, hcursor, hgains⟩
  refine (enlist_refused (hinterns.unlogged []) name handle kind type).mono
    (fun _ _ _ => trivial) ?_
  rintro failure _ ⟨rfl, diagnostic, rfl, hfault⟩
  exact ⟨.taken hfault, ((hspares.rescoped rfl).rescoped hcursor).rescoped rfl, hgains⟩

end Session

/-! ## Sessions that arise by discreet work -/

def Pairing.primitive : Pairing :=
  fun id id' => id' = id ∧ ∃ kind : Primitive.Kind, id = kind.typeId

theorem Scope.mirrors_self {scope : Scope} (hpairs : ∀ id id', pairs id id' → id' = id)
    (h : ∀ symbol ∈ scope.symbols, symbol.Mirrors pairs symbol) :
    scope.Mirrors hidden pairs scope where
  id := rfl
  name := rfl
  parent := rfl
  named name := by
    refine .inl ?_
    cases hfind : scope.find? name with
    | none => exact .none
    | some symbol => exact .some (h symbol (Scope.mem_of_find? hfind))
  identified id id' hpair := by
    obtain rfl := hpairs id id' hpair
    cases hget : scope.get? id' with
    | none => exact .none
    | some symbol => exact .some (h symbol (List.mem_of_find?_eq_some hget))

theorem Pairing.primitive_matches : Pairing.primitive.Matches 5 5 where
  right := by
    rintro id _ _ ⟨rfl, -⟩ ⟨rfl, -⟩
    rfl
  left := by
    rintro id other _ ⟨rfl, -⟩ ⟨heq, -⟩
    exact heq
  minted := by
    rintro id _ ⟨rfl, kind, rfl⟩
    cases kind <;> decide
  primitives kind := ⟨rfl, kind, rfl⟩

theorem Forest.mirrors_initial : Forest.initial.Mirrors none .primitive Forest.initial where
  scopes := by
    refine .cons (.empty _ _ _) (.cons (Scope.mirrors_self (fun _ _ h => h.1) ?_) .nil)
    intro symbol hsymbol
    obtain ⟨kind, -, rfl⟩ := List.mem_map.1 hsymbol
    exact ⟨⟨rfl, kind, rfl⟩, rfl, .primitive⟩
  pairing := Pairing.primitive_matches

namespace Session

variable {s t : Session ν}

private theorem parallels_initial (settings : Settings) :
    (initial settings : Session ν).Parallels none .primitive (initial settings) where
  scoping := ⟨Forest.mirrors_initial, rfl, interns_initial settings, interns_initial settings⟩
  settings := rfl
  values := rfl
  evaluations := rfl
  next := rfl
  observed := rfl
  bindings := .nil
  labels := .nil

/-- The session is one that discreet work makes of an initial one. -/
def ArisesFrom (settings : Settings) (s : Session ν) : Prop :=
  ∃ (α : Type) (act : Act (Session ν) α), Discreet (fun _ => True) act ∧
    (act.on (initial settings)).2 = s

/-- Such a session is parallel to itself, so what is bound, labelled or named in a type are
identities that were given out. -/
theorem ArisesFrom.parallels_self {settings : Settings} (h : s.ArisesFrom settings) :
    ∃ pairs, s.Parallels none pairs s := by
  obtain ⟨α, act, hdiscreet, rfl⟩ := h
  have hruns : RunsAlong none (fun _ => Eq) .primitive act act :=
    hdiscreet.runsAlong structural_none (fun name _ => (Option.some_ne_none name).symm) .primitive
  obtain ⟨pairs, -, -, hparallel⟩ := hruns _ le_rfl _ _ (parallels_initial settings)
  exact ⟨pairs, hparallel⟩

/-- A session is parallel to what a refused registration has made of it, but for the new type. -/
theorem Parallels.spares (h : s.Parallels none pairs s) (hspares : s.Spares t)
    (ht : t.scoping.Interns .initial)
    (hforest : s.scoping.forest.Mirrors hidden pairs t.scoping.forest) :
    s.Parallels hidden pairs t where
  scoping := ⟨hforest, congrArg Surface.cursor hspares.surface, h.scoping.interns, ht⟩
  settings := congrArg Surface.settings hspares.surface
  values := congrArg Surface.values hspares.surface
  evaluations := congrArg Surface.evaluations hspares.surface
  next := congrArg Surface.nextValue hspares.surface
  observed := congrArg Surface.observed hspares.surface
  bindings := hspares.bindings ▸ h.bindings
  labels := hspares.labels ▸ h.labels

/-- In parallel sessions discreet work has the same outcome, and leaves the same
surface. -/
theorem Parallels.same_work (h : s.Parallels hidden pairs t) (hhidden : Structural hidden)
    {permitted : String → Prop} (hpermitted : ∀ name, permitted name → hidden ≠ some name)
    {α : Type} {act : Act (Session ν) α} (hact : Discreet permitted act) :
    (act.on t).1 = (act.on s).1 ∧ (act.on t).2.surface = (act.on s).2.surface := by
  obtain ⟨_, -, houtcome, hleft⟩ := hact.runsAlong hhidden hpermitted pairs pairs le_rfl s t h
  refine ⟨?_, hleft.surface⟩
  generalize (act.on s).1 = outcome at houtcome ⊢
  generalize (act.on t).1 = outcome' at houtcome ⊢
  cases houtcome with
  | ok h => rw [h]
  | error h => rw [h]

/-! ## Later evaluations -/

/-- Evaluates sources one after the other, whether they fail or not. -/
def evaluateSeries (host : Host ν) :
    List (Watch × String) → Act (Session ν) (List (Except Failure (Value ν)))
  | [] => return []
  | (watch, source) :: sources => do
    let outcome ← Act.attempt (evaluate host watch source)
    return outcome :: (← evaluateSeries host sources)

private theorem discreet_evaluateSeries {permitted : String → Prop} {host : Host ν}
    (hhost : host.Discreet permitted) (sources : List (Watch × String)) :
    Discreet permitted (evaluateSeries host sources) := by
  induction sources with
  | nil => exact .pure []
  | cons first sources ih =>
      exact (Discreet.evaluate first.1 first.2 hhost).attempt.bind fun _ => ih.bind fun _ => .pure _

/-- The second session is the first one with another type in its global scope, if with any. -/
structure AddsType (s : Session ν) (added : Option Symbol) (t : Session ν) : Prop
    extends s.Spares t where
  others : ∀ id, id ≠ Forest.globalId → t.scoping.forest.get? id = s.scoping.forest.get? id
  global : t.scoping.forest.global = { s.scoping.forest.global with
    symbols := s.scoping.forest.global.symbols ++ added.toList }

theorem Spares.addsType_none (h : s.Spares t)
    (hforest : t.scoping.forest = s.scoping.forest) : s.AddsType none t where
  toSpares := h
  others id _ := by rw [hforest]
  global := by rw [hforest, Option.toList_none, List.append_nil]

theorem Spares.addsType_some (h : s.Spares t) (hs : s.scoping.forest.WellFormed) {type : Symbol}
    (hforest : t.scoping.forest = s.scoping.forest.withSymbol Forest.globalId type) :
    s.AddsType (some type) t where
  toSpares := h
  others id hid := by rw [hforest, Forest.get?_withSymbol_of_ne hid]
  global := by
    rw [Forest.global, hforest, Forest.get?_withSymbol_self hs.global_eq]
    rfl

/-- A registration that fails leaves nothing but the type of the function, if that was not interned
before.  Sources are evaluated from then on as if the call had not been made, unless a native
function names that type: with the same values and failures, the same calls of native functions,
the same output and the same stored values. -/
theorem refused_registration_invisible {settings : Settings} (harises : s.ArisesFrom settings)
    {name : String} {arguments : List String} {result : Option String} {handle : ν}
    {failure : Failure}
    (hfails : (register name arguments result handle).on s = (.error failure, t)) :
    Refuses name arguments result failure ∧
    ∃ added : Option Symbol, s.AddsType added t ∧
      (∀ type, added = some type → type.name = functionTypeName arguments result ∧
        ∃ parameters returned, type.variant = .function parameters returned) ∧
      ∀ host : Host ν, host.Discreet (fun name => ∀ type, added = some type → name ≠ type.name) →
      ∀ sources, ((evaluateSeries host sources).on t).1 = ((evaluateSeries host sources).on s).1 ∧
        ((evaluateSeries host sources).on t).2.surface =
          ((evaluateSeries host sources).on s).2.surface := by
  obtain ⟨pairs, hparallel⟩ := harises.parallels_self
  have hs := hparallel.scoping.interns
  have hrefused := register_refused hs name arguments result handle
  have ht := (UnfoldsInto.register (s := s) name arguments result handle).interns hs
  unfold Act.Ensures at hrefused
  rw [hfails] at hrefused ht
  obtain ⟨hrefuses, hspares, hsame | ⟨hfree, parameters, returned, hgrown⟩⟩ := hrefused
  · refine ⟨hrefuses, none, hspares.addsType_none hsame,
      fun _ h => (Option.some_ne_none _ h.symm).elim, fun host hhost sources => ?_⟩
    have hforest : s.scoping.forest.Mirrors none pairs t.scoping.forest :=
      hsame ▸ hparallel.scoping.forest
    exact (hparallel.spares hspares ht hforest).same_work structural_none
      (fun name _ => (Option.some_ne_none name).symm) (discreet_evaluateSeries hhost sources)
  · refine ⟨hrefuses, some _, hspares.addsType_some hs.interning.wellFormed hgrown, ?_,
      fun host hhost sources => ?_⟩
    · rintro type ⟨⟩
      exact ⟨rfl, parameters, returned, rfl⟩
    have hforest : s.scoping.forest.Mirrors (some (functionTypeName arguments result)) pairs
        t.scoping.forest := by
      rw [hgrown]
      exact hparallel.scoping.forest.hide hs.interning.wellFormed hfree rfl
    refine (hparallel.spares hspares ht hforest).same_work
      (structural_functionTypeName arguments result) ?_ (discreet_evaluateSeries hhost sources)
    rintro name hname ⟨⟩
    exact hname _ rfl rfl

/-! ## Functions that tell the two sessions apart -/

private theorem arisesFrom_register {settings : Settings} (name : String) (arguments : List String)
    (result : Option String) (handle : ν) :
    ((register name arguments result handle).on (initial settings)).2.ArisesFrom settings := by
  refine ⟨Unit, register name arguments result handle >>= fun _ => pure (),
    .register result handle trivial fun _ _ => trivial, ?_⟩
  rw [Act.on_bind]
  match (register name arguments result handle).on (initial settings) with
  | (.ok symbol, t) => rfl
  | (.error failure, t) => rfl

/-- A host whose functions register `k`, with a parameter of integers. -/
def clerk : Host Unit where
  invoke _ _ := do
    let _ ← enroll "k" ["int"] none ()
    return .datum .null

def withClerk : Session Unit :=
  ((register "h" [] none ()).on (initial .standard)).2

def withClerkStill : Session Unit :=
  ((register "h" ["int"] none ()).on withClerk).2

/-- The sources call the function, and dump and show the one that it registers. -/
def callingClerk : List (Watch × String) :=
  [(.nothing, "h()"), (⟨false, true⟩, ": k")]

/-- A refused call leaves the type of the functions that take an integer, which the function of the
host interns itself otherwise.  Nothing else shows it. -/
theorem refused_registration_invisible_clerk :
    ∃ failure, (register "h" ["int"] none ()).on withClerk = (.error failure, withClerkStill) ∧
      withClerkStill.scoping.forest.global.symbols.length =
        withClerk.scoping.forest.global.symbols.length + 1 ∧
      ((evaluateSeries clerk callingClerk).on withClerkStill).1 =
        ((evaluateSeries clerk callingClerk).on withClerk).1 ∧
      ((evaluateSeries clerk callingClerk).on withClerkStill).2.surface =
        ((evaluateSeries clerk callingClerk).on withClerk).2.surface := by
  obtain ⟨failure, hfails⟩ : ∃ failure,
      (register "h" ["int"] none ()).on withClerk = (.error failure, withClerkStill) :=
    ⟨_, Prod.ext rfl rfl⟩
  obtain ⟨-, added, -, hadded, hsame⟩ := refused_registration_invisible
    (arisesFrom_register "h" [] none ()) hfails
  have hother : ∀ name, Tree.PlainName name → ∀ type, added = some type → name ≠ type.name := by
    rintro name hplain type htype rfl
    rw [(hadded type htype).1] at hplain
    exact absurd hplain (by decide)
  have hclerk : clerk.Discreet (fun name => ∀ type, added = some type → name ≠ type.name) :=
    fun _ _ => (Discreet.enroll none () (hother "k" (by decide))
      (List.forall_mem_singleton.2 (hother "int" (by decide)))).bind fun _ => .pure _
  exact ⟨failure, hfails, rfl, hsame clerk hclerk callingClerk⟩

/-- A session with a function that registers another one, which takes a function of integers. -/
def withRegistrar : Session Behaviour :=
  ((register "h" [] none (.registration "k" ["<int:>"] none (.constant .null))).on
    (initial .standard)).2

def withRegistrarStill : Session Behaviour :=
  ((register "h" ["int"] none (.constant .null)).on withRegistrar).2

/-- A native function that asks for the type by name fails unless a refused call has left it. -/
theorem refused_registration_visible :
    withRegistrar.ArisesFrom .standard ∧
      (∃ failure, (register "h" ["int"] none (.constant .null)).on withRegistrar =
        (.error failure, withRegistrarStill)) ∧
      ((evaluate Behaviour.standardHost .nothing "h()").on withRegistrar).1 =
        .error (.placeless (.undefinedSymbol "<int:>" "type")) ∧
      ((evaluate Behaviour.standardHost .nothing "h()").on withRegistrarStill).1 =
        .ok .nothing := by
  have hparse : parseProgram "h()" Settings.standard.sourceName =
      .ok [.call (.reference ⟨.name, "h", 1, 1, "h", "<input>"⟩) []
        ⟨.leftParen, "(", 1, 2, "(", "<input>"⟩] := by
    decide +kernel
  have hrepl : withRegistrar.scoping.forest.get? Forest.replId = some bareTop := rfl
  have hreplStill : withRegistrarStill.scoping.forest.get? Forest.replId = some bareTop := rfl
  refine ⟨arisesFrom_register _ _ _ _, ⟨_, Prod.ext rfl rfl⟩, ?_, ?_⟩
  · rw [on_evaluate hparse hrepl]
    rfl
  · rw [on_evaluate hparse hreplStill]
    rfl

end Session

end Scriptlet
