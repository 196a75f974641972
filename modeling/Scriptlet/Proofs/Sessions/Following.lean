import Scriptlet.Proofs.Sessions.Parallels
import Scriptlet.Proofs.Sessions.Requests
/-!
# Runs of parallel sessions

Annotated trees that differ in paired identities only are executed in the same way in parallel
sessions, and so are statements and sources.  Native functions may work on the sessions in turn, if
they cannot tell them apart either.
-/

namespace Scriptlet

variable {ν : Type} {hidden : Option String} {pairs : Pairing} {host : Host ν}

/-- The host does the same in parallel sessions. -/
def Host.Impartial (hidden : Option String) (host : Host ν) : Prop :=
  ∀ handle arguments pairs, Session.RunsAlong hidden (fun _ => Eq) pairs
    (host.invoke handle arguments) (host.invoke handle arguments)

namespace Session

variable {s t : Session ν}

/-! ## Execution -/

private theorem runsAlong_readVariable {id id' : SymbolId} (hpair : pairs id id') (token : Token) :
    RunsAlong (ν := ν) hidden (fun _ => Eq) pairs (readVariable id token)
      (readVariable id' token) := by
  refine (runsAlong_onScopes (Scoping.tracks_resolveId hpair)).bind fun u _ found found' h => ?_
  cases h with
  | none => exact .fail _ _
  | @some symbol symbol' hsymbol =>
      refine .get fun v hv s t hparallel => ?_
      rw [hparallel.boundTo? (hv _ _ hsymbol.id), hparallel.values, hsymbol.name]
      cases (s.boundTo? symbol.id).bind s.values.get? with
      | none => exact .fail _ _
      | some value => exact .pure fun _ _ => rfl

private theorem runsAlong_ofReply (reply : Reply ν) :
    RunsAlong hidden (fun _ => Eq) pairs (ofReply reply) (ofReply reply) := by
  cases reply with
  | value value => exact .pure fun _ _ => rfl
  | datum datum => exact runsAlong_receive datum
  | function => exact .throw _

theorem runsAlong_failShown (shown : Except Numeral.Error String) (fault : String → Fault)
    (token : Token) :
    RunsAlong (ν := ν) hidden (fun _ => (Eq : Value ν → Value ν → Prop)) pairs
      (Act.ofNumeral shown >>= fun text => Act.fail (fault text) token.span)
      (Act.ofNumeral shown >>= fun text => Act.fail (fault text) token.span) :=
  (Act.Tracks.same _).bind fun _ _ _ _ h => h ▸ .fail _ _

theorem runsAlong_call (hhost : host.Impartial hidden) (callee : Value ν)
    (arguments : List (Value ν)) (token : Token) :
    RunsAlong hidden (fun _ => Eq) pairs (call host callee arguments token)
      (call host callee arguments token) := by
  unfold call
  cases callee.payload with
  | nothing => exact runsAlong_failShown _ _ token
  | primitive value => exact runsAlong_failShown _ _ token
  | native name handle result =>
      refine (runsAlong_record rfl).bind fun u _ _ _ _ => ?_
      refine (hhost handle arguments u).attempt.bind ?_
      intro v _ outcome _ houtcome
      cases houtcome with
      | @ok reply _ h =>
          subst h
          cases result with
          | none => exact .pure fun _ _ => rfl
          | some kind =>
              refine (runsAlong_ofReply reply).bind fun w _ value _ h => ?_
              subst h
              by_cases hkind : value.payload.kind? = some kind
              · simp only [if_pos hkind]
                exact (runsAlong_store value).bind fun _ _ _ _ _ => .pure fun _ _ => rfl
              · simp only [if_neg hkind]
                exact runsAlong_failShown _ _ token
      | @error failure _ h =>
          subst h
          cases failure with
          | fault diagnostic => exact .throw _
          | host error => exact .throw _

mutual

theorem runsAlong_execute (hhost : host.Impartial hidden) : (node : Annotated) →
    (node' : Annotated) → node.Mirrors pairs node' →
    RunsAlong hidden (fun _ => Eq) pairs (execute host node) (execute host node')
  | .block nodes _ _, _, .block scope _ h => by
      rw [execute, execute]
      refine (runsAlong_onScopes (Scoping.tracks_enter scope)).bind fun u hu _ _ _ => ?_
      refine (((runsAlong_executeAll hhost nodes _ h).later hu).closing (fun _ _ _ _ _ h => h)
        (runsAlong_onScopes Scoping.tracks_leave)).bind fun _ _ _ _ _ => ?_
      exact .pure fun _ _ => rfl
  | .literal .., _, .literal token kind => by
      rw [execute]
      exact (Act.Tracks.same _).bind fun _ _ value _ h => h ▸ runsAlong_fresh (.primitive value)
  | .reference .., _, .reference token hpair => by
      rw [execute, execute]
      exact runsAlong_readVariable hpair token
  | .declare _ node _, _, .declare _ hpair h => by
      rw [execute, execute]
      refine (runsAlong_execute hhost node _ h).bind fun u hu value _ h => ?_
      subst h
      exact (runsAlong_bind (hu _ _ hpair) value).bind fun _ _ _ _ _ => .pure fun _ _ => rfl
  | .assign _ node _, _, .assign _ hpair h => by
      rw [execute, execute]
      refine (runsAlong_execute hhost node _ h).bind fun u hu value _ h => ?_
      subst h
      exact (runsAlong_bind (hu _ _ hpair) value).bind fun _ _ _ _ _ => .pure fun _ _ => rfl
  | .call callee nodes _, _, .call token hcallee h => by
      rw [execute, execute]
      refine (runsAlong_execute hhost callee _ hcallee).bind fun u hu function _ heq => ?_
      subst heq
      cases function.payload with
      | native name handle result =>
          refine ((runsAlong_executeArguments hhost nodes _ h).later hu).bind
            fun _ _ values _ h => ?_
          subst h
          exact runsAlong_call hhost function values token
      | nothing => exact runsAlong_call hhost function [] token
      | primitive value => exact runsAlong_call hhost function [] token
  | .conditional condition body _, _, .conditional _ hcondition hbody => by
      rw [execute, execute]
      refine (runsAlong_execute hhost condition _ hcondition).bind fun u hu test _ h => ?_
      subst h
      by_cases htest : isTrue test = true
      · simp only [if_pos htest]
        exact ((runsAlong_execute hhost body _ hbody).later hu).bind
          fun _ _ _ _ _ => .pure fun _ _ => rfl
      · simp only [if_neg htest]
        exact .pure fun _ _ => rfl
  | .debugPrint operand _, _, .debugPrint _ h => by
      rw [execute, execute]
      refine (runsAlong_execute hhost operand _ h).bind fun _ _ value _ h => ?_
      subst h
      refine (Act.Tracks.same _).bind fun _ _ shown _ h => ?_
      subst h
      exact (runsAlong_record rfl).bind fun _ _ _ _ _ => .pure fun _ _ => rfl
  | .foreign _, _, .foreign sort => by
      rw [execute]
      exact .throw _

private theorem runsAlong_executeAll (hhost : host.Impartial hidden) : (nodes : List Annotated) →
    (nodes' : List Annotated) → List.Forall₂ (Annotated.Mirrors pairs) nodes nodes' →
    RunsAlong hidden (fun _ _ _ => True) pairs (executeAll host nodes) (executeAll host nodes')
  | [], _, .nil => by
      rw [executeAll]
      exact .pure fun _ _ => trivial
  | node :: nodes, _, .cons h hrest => by
      rw [executeAll, executeAll]
      exact (runsAlong_execute hhost node _ h).bind fun u hu _ _ _ =>
        (runsAlong_executeAll hhost nodes _ hrest).later hu

private theorem runsAlong_executeArguments (hhost : host.Impartial hidden) :
    (nodes : List Annotated) →
    (nodes' : List Annotated) → List.Forall₂ (Annotated.Mirrors pairs) nodes nodes' →
    RunsAlong hidden (fun _ => Eq) pairs (executeArguments host nodes)
      (executeArguments host nodes')
  | [], _, .nil => by
      rw [executeArguments]
      exact .pure fun _ _ => rfl
  | node :: nodes, _, .cons h hrest => by
      rw [executeArguments, executeArguments]
      refine (runsAlong_execute hhost node _ h).bind fun u hu value _ h => ?_
      subst h
      refine ((runsAlong_executeArguments hhost nodes _ hrest).later hu).bind
        fun _ _ values _ h => ?_
      exact .pure fun _ _ => by rw [h]

end

/-! ## Evaluation -/

theorem runsAlong_observe (watch : Watch) (tree : Tree) {node node' : Annotated}
    (h : node.Mirrors pairs node') :
    RunsAlong (ν := ν) hidden (fun _ _ _ => True) pairs (observe watch tree node)
      (observe watch tree node') := by
  have hwrite : ∀ {u : Pairing} (text : String), RunsAlong (ν := ν) hidden (fun _ _ _ => True) u
      (writeLine text) (writeLine text) := fun text => runsAlong_write (text ++ "\n")
  have hlabelling : RunsAlong (ν := ν) hidden (fun _ => Eq) pairs
      (labelling (node.dump .standard)) (labelling (node'.dump .standard)) :=
    runsAlong_labelling fun u hu _ _ hmatches =>
      Annotated.mirrors_dump hmatches .standard (h.mono hu node node')
  have hsecond : RunsAlong (ν := ν) hidden (fun _ _ _ => True) pairs
      (if watch.annotatedTree = true then labelling (node.dump .standard) >>= writeLine
        else pure ())
      (if watch.annotatedTree = true then labelling (node'.dump .standard) >>= writeLine
        else pure ()) := by
    split
    · exact hlabelling.bind fun _ _ text _ h => h ▸ hwrite text
    · exact .pure fun _ _ => trivial
  unfold observe
  dsimp only
  split
  · refine (Act.Tracks.same _).bind fun u hu text _ h => ?_
    subst h
    exact (hwrite text).bind fun v hv _ _ _ => hsecond.later (hu.trans hv)
  · exact hsecond

private theorem runsAlong_runStatement (hhost : host.Impartial hidden) (watch : Watch) {tree : Tree}
    (hnames : tree.NamesOnly (hidden ≠ some ·)) :
    RunsAlong hidden (fun _ => Eq) pairs (runStatement host watch tree)
      (runStatement host watch tree) := by
  refine (runsAlong_onScopes (Analysis.tracks_analyse tree hnames pairs)).bind
    fun u _ analysed analysed' h => ?_
  refine (runsAlong_observe watch tree h.node).bind fun v hv _ _ _ => ?_
  exact (runsAlong_execute hhost _ _ h.node).later hv

private theorem runsAlong_runStatements (hhost : host.Impartial hidden) (watch : Watch)
    {trees : List Tree} (hnames : ∀ tree ∈ trees, tree.NamesOnly (hidden ≠ some ·))
    (last : Value ν) :
    RunsAlong hidden (fun _ => Eq) pairs (runStatements host watch last trees)
      (runStatements host watch last trees) := by
  induction trees generalizing last pairs with
  | nil =>
      rw [runStatements]
      exact .pure fun _ _ => rfl
  | cons tree trees ih =>
      rw [List.forall_mem_cons] at hnames
      rw [runStatements_cons]
      exact (runsAlong_runStatement hhost watch hnames.1).bind
        fun _ _ value _ h => h ▸ ih hnames.2 value

theorem Parallels.live (h : s.Parallels hidden pairs t) :
    t.bindings.map Prod.snd = s.bindings.map Prod.snd := by
  have hbindings := h.bindings
  generalize s.bindings = bindings at hbindings ⊢
  generalize t.bindings = bindings' at hbindings ⊢
  induction hbindings with
  | nil => rfl
  | cons hfirst _ ih => rw [List.map_cons, List.map_cons, hfirst.2, ih]

theorem Parallels.collected (h : s.Parallels hidden pairs t) :
    s.collected.Parallels hidden pairs t.collected := by
  have hvalues : t.values.collect (t.bindings.map Prod.snd) =
      s.values.collect (s.bindings.map Prod.snd) := by
    rw [h.live, h.values]
  have hkept :
      ({ s with values := s.values.collect (s.bindings.map Prod.snd) } : Session ν).Parallels
        hidden pairs { t with values := t.values.collect (t.bindings.map Prod.snd) } :=
    ⟨h.scoping, h.settings, hvalues, h.evaluations, h.next, h.observed, h.bindings, h.labels⟩
  exact hkept.journaled rfl

theorem Parallels.counted (h : s.Parallels hidden pairs t) (count : Nat) :
    (s.counted count).Parallels hidden pairs (t.counted count) := by
  have hcounted : ({ s with evaluations := s.evaluations + 1 } : Session ν).Parallels hidden pairs
      { t with evaluations := t.evaluations + 1 } :=
    ⟨h.scoping, h.settings, h.values, congrArg (· + 1) h.evaluations, h.next, h.observed,
      h.bindings, h.labels⟩
  exact hcounted.journaled rfl

theorem runsAlong_collect : RunsAlong (ν := ν) hidden (fun _ => Eq) pairs collect collect := by
  intro u _ s t h
  unfold Act.TracksOn
  rw [on_collect, on_collect, h.live, h.values]
  exact ⟨u, le_rfl, .ok rfl, h.collected⟩

private theorem runsAlong_collectIfDue :
    RunsAlong (ν := ν) hidden (fun _ _ _ => True) pairs collectIfDue collectIfDue := by
  refine .get fun u _ s t h => ?_
  rw [h.settings, h.evaluations]
  cases s.settings.collectEvery with
  | none => exact .pure fun _ _ => trivial
  | some every =>
      dsimp only
      split
      · exact runsAlong_collect.bind fun _ _ _ _ _ => .pure fun _ _ => trivial
      · exact .pure fun _ _ => trivial

private theorem runsAlong_conclude (count : Nat) (value : Value ν) :
    RunsAlong hidden (fun _ => Eq) pairs (conclude count value) (conclude count value) := by
  intro u _ s t h
  have hrest : RunsAlong (ν := ν) hidden (fun _ => Eq) u
      (collectIfDue >>= fun _ => pure value) (collectIfDue >>= fun _ => pure value) :=
    runsAlong_collectIfDue.bind fun _ _ _ _ _ => .pure fun _ _ => rfl
  unfold Act.TracksOn
  rw [on_conclude, on_conclude]
  exact hrest u le_rfl _ _ (h.counted count)

/-- Evaluating a source, in which nothing is named like the excepted type. -/
theorem runsAlong_evaluate (hhidden : Structural hidden) (hhost : host.Impartial hidden)
    (watch : Watch) (source : String) :
    RunsAlong hidden (fun _ => Eq) pairs (evaluate host watch source)
      (evaluate host watch source) := by
  intro u _ s t h
  unfold Act.TracksOn
  match hparse : parseProgram source s.settings.sourceName with
  | .error diagnostic =>
      rw [on_evaluate_refused hparse, on_evaluate_refused (h.settings ▸ hparse)]
      exact ⟨u, le_rfl, .error rfl, h⟩
  | .ok trees =>
      rw [on_evaluate_read hparse, on_evaluate_read (h.settings ▸ hparse)]
      have hnames : ∀ tree ∈ trees, tree.NamesOnly (hidden ≠ some ·) := fun tree htree =>
        Tree.NamesOnly.mono (fun _ => hhidden.ne_plain) tree
          (parseProgram_namesOnly hparse tree htree)
      have hrest : RunsAlong hidden (fun _ => Eq) u
          (do
            onScopes (Scoping.enter Forest.replId)
            let value ← Act.closing (onScopes Scoping.leave)
              (runStatements host watch .nothing trees)
            conclude trees.length value)
          (do
            onScopes (Scoping.enter Forest.replId)
            let value ← Act.closing (onScopes Scoping.leave)
              (runStatements host watch .nothing trees)
            conclude trees.length value) := by
        refine (runsAlong_onScopes (Scoping.tracks_enter _)).bind fun v _ _ _ _ => ?_
        refine ((runsAlong_runStatements hhost watch hnames .nothing).closing
          (fun _ _ _ _ _ h => h) (runsAlong_onScopes Scoping.tracks_leave)).bind
          fun w _ value _ h => ?_
        exact h ▸ runsAlong_conclude trees.length value
      exact hrest u le_rfl _ _ (h.journaled rfl)

/-! ## Registration and look-up -/

theorem tracks_typesNamed {names : List String} (hnames : ∀ name ∈ names, hidden ≠ some name) :
    Scoping.Tracks hidden (fun u => List.Forall₂ (Symbol.Mirrors u)) pairs
      (names.mapM Scoping.typeNamed) (names.mapM Scoping.typeNamed) :=
  .mapM (fun _ _ hle _ _ h => h.mono hle) Scoping.tracks_typeNamed_each
    (List.forall₂_same.2 fun name hname => ⟨rfl, hnames name hname⟩)

private theorem tracks_resultType (hhidden : Structural hidden) (kind : Option Primitive.Kind) :
    Scoping.Tracks hidden (fun u => Option.Rel (Symbol.Mirrors u)) pairs
      (kind.mapM fun kind => Scoping.typeNamed kind.label)
      (kind.mapM fun kind => Scoping.typeNamed kind.label) := by
  have htype : ∀ kind kind' : Primitive.Kind, kind = kind' →
      Scoping.Tracks hidden Symbol.Mirrors pairs (Scoping.typeNamed kind.label)
        (Scoping.typeNamed kind'.label) := by
    rintro kind _ rfl
    exact Scoping.tracks_typeNamed (hhidden.ne_label kind)
  have hkind : Option.Rel Eq kind kind := by
    cases kind with
    | none => exact .none
    | some kind => exact .some rfl
  exact .mapM_option (fun _ _ hle _ _ h => h.mono hle) htype hkind

private theorem runsAlong_resultKind (name : String) (result : Option String) :
    RunsAlong (ν := ν) hidden (fun _ => Eq) pairs (resultKind name result)
      (resultKind name result) := by
  unfold resultKind
  cases result with
  | none => exact .pure fun _ _ => rfl
  | some type =>
      dsimp only
      cases Primitive.Kind.named? type with
      | none => exact .throw _
      | some kind => exact .pure fun _ _ => rfl

private theorem runsAlong_enlist {name : String} (hname : hidden ≠ some name) (handle : ν)
    (kind : Option Primitive.Kind) {type type' : Symbol} (htype : type.Mirrors pairs type') :
    RunsAlong hidden Symbol.Mirrors pairs (enlist name handle kind type)
      (enlist name handle kind type') := by
  refine (runsAlong_onScopes (Scoping.tracks_declare hname (.native htype.id) rfl _)).bind
    fun u hu symbol symbol' hsymbol => ?_
  refine (runsAlong_fresh _).bind fun v hv value _ h => ?_
  subst h
  refine (runsAlong_bind (hv _ _ hsymbol.id) value).bind fun w hw _ _ _ => ?_
  have hrecord : RunsAlong (ν := ν) hidden (fun _ _ _ => True) w
      (record (.registered name type.name)) (record (.registered name type'.name)) :=
    runsAlong_record rfl
  refine hrecord.bind fun x hx _ _ _ => .pure fun y hy => ?_
  exact hsymbol.mono (((hv.trans hw).trans hx).trans hy)

theorem mirrors_ids {symbols symbols' : List Symbol}
    (h : List.Forall₂ (Symbol.Mirrors pairs) symbols symbols') :
    List.Forall₂ pairs (symbols.map Symbol.id) (symbols'.map Symbol.id) := by
  rw [List.forall₂_map_left_iff, List.forall₂_map_right_iff]
  exact h.imp fun _ _ h => h.id

theorem mirrors_id? {symbol symbol' : Option Symbol}
    (h : Option.Rel (Symbol.Mirrors pairs) symbol symbol') :
    Option.Rel pairs (symbol.map Symbol.id) (symbol'.map Symbol.id) := by
  cases h with
  | none => exact .none
  | some h => exact .some h.id

/-- Registering a function of which neither the name nor the type of an argument is the excepted
one; its own type may be. -/
theorem runsAlong_register (hhidden : Structural hidden) {name : String}
    (hname : hidden ≠ some name) {arguments : List String}
    (harguments : ∀ type ∈ arguments, hidden ≠ some type) (result : Option String) (handle : ν) :
    RunsAlong hidden Symbol.Mirrors pairs (register name arguments result handle)
      (register name arguments result handle) := by
  rw [register_eq]
  refine (runsAlong_onScopes (tracks_typesNamed harguments)).bind
    fun u hu argumentTypes argumentTypes' htypes => ?_
  refine (runsAlong_resultKind name result).bind fun v hv kind _ h => ?_
  subst h
  refine (runsAlong_onScopes (tracks_resultType hhidden kind)).bind
    fun w hw resultType resultType' hresult => ?_
  have hids := mirrors_ids (htypes.imp fun _ _ h => h.mono (hv.trans hw))
  refine (runsAlong_onScopes (Scoping.tracks_functionType hids (mirrors_id? hresult))).bind
    fun x hx type type' htype => ?_
  exact runsAlong_enlist hname handle kind htype

theorem runsAlong_lookup (name : String) :
    RunsAlong (ν := ν) hidden (fun _ => Eq) pairs (lookup name) (lookup name) := by
  refine .get fun u _ s t h => ?_
  have hfound := h.scoping.forest.lookup_any h.scoping.wellFormed.1 Forest.replId name
  generalize s.scoping.forest.lookup Forest.replId name = outcome at hfound ⊢
  generalize t.scoping.forest.lookup Forest.replId name = outcome' at hfound ⊢
  have hsame : ∀ found found' : Option Symbol,
      Pairing.Both u found found' ∨ Forest.Mirrors.Misses hidden u name found found' →
      (found'.bind fun symbol => (t.boundTo? symbol.id).bind t.values.get?) =
        found.bind fun symbol => (s.boundTo? symbol.id).bind s.values.get? := by
    rintro found found' (hboth | ⟨-, rfl, symbol, rfl, hunpaired⟩)
    · cases hboth with
      | none => rfl
      | some hsymbol =>
          rw [Option.bind_some, Option.bind_some, h.boundTo? hsymbol.id, h.values]
    · rw [Option.bind_some, h.boundTo?_eq_none hunpaired]
      rfl
  cases hfound with
  | ok hvalue =>
      have hpure : RunsAlong (ν := ν) hidden (fun _ => Eq) u (pure _) (pure _) :=
        .pure fun _ _ => (hsame _ _ hvalue).symm
      exact hpure
  | error hfailure => exact hfailure ▸ .throw _

end Session

end Scriptlet
