import Scriptlet.Proofs.Scanning.Concatenation
import Scriptlet.Proofs.Sessions.Likeness
import Scriptlet.Proofs.Sessions.Preservation
import Scriptlet.Proofs.Sessions.Registration
import Scriptlet.Proofs.Sessions.Requests
/-!
# Sources after one another

Evaluating two sources one after the other, or both at once with a newline
between them, comes to the same.  The scopes that an evaluation leaves are those
in which the next statement would have been run, since the cursor is back at the
root after an evaluation and at the top level after a statement.
-/

namespace Scriptlet

variable {ν : Type}

/-! ## Work on the scopes -/

namespace Scoping

open Act (Preserves)

variable {s : Scoping}

private theorem steady_typeNamed (name : String) : Preserves s.Steady (typeNamed name) :=
  .of_same fun t => (typeNamed_ensures name t).mono (fun _ _ h => h.1) (fun _ _ h => h)

private theorem steady_typeName (id : SymbolId) : Preserves s.Steady (typeName id) :=
  .of_same (Analysis.typeName_same id)

private theorem steady_declare (hs : s.Placed) (name : String) (variant : Symbol.Variant)
    (span : Span) :
    Preserves s.Steady (declare name variant span) := by
  intro t ht
  have hdeclare := (stays_declare (ht.placed hs) name variant span).state
  exact ht.trans hdeclare.steady

private theorem steady_functionType (hs : s.Placed) (arguments : List SymbolId)
    (result : Option SymbolId) : Preserves s.Steady (functionType arguments result) := by
  refine (Preserves.mapM steady_typeName arguments).bind fun names => ?_
  refine (Preserves.mapM_option steady_typeName result).bind fun resultName => ?_
  refine .get fun t ht => ?_
  dsimp only
  cases hfind : t.forest.global.find? (functionTypeName names resultName) with
  | some existing => exact ht
  | none =>
      dsimp only
      rw [on_insert hfind]
      exact ht.trans (steady_inserted (ht.placed hs) _ _ _ _)

end Scoping

/-! ## Where the cursor rests -/

namespace Session

open Act (Alike Preserves)

structure Pinned (settings : Settings) (forest : Forest) (id : ScopeId) (s : Session ν) : Prop where
  settings : s.settings = settings
  scoping : s.scoping = ⟨forest, id, []⟩

/-- The scopes have grown in their order from those of a new session, and the cursor is on the
given one. -/
structure Rests (settings : Settings) (id : ScopeId) (s : Session ν) : Prop where
  settings : s.settings = settings
  numbered : Forest.Numbered s.scoping.forest.scopes
  grown : Forest.initial.Extends s.scoping.forest
  cursor : s.scoping.cursor = id
  log : s.scoping.log = []

variable {natives : Natives ν} {settings : Settings} {id : ScopeId} {s t : Session ν}

private theorem tracks_pinned (settings : Settings) (forest : Forest) :
    Tracks forest (Pinned settings forest : ScopeId → Session ν → Prop) where
  apart hs hscoping hsettings := ⟨hsettings.trans hs.settings, hscoping.trans hs.scoping⟩
  drained {id s} hs := ⟨hs.settings, by simp [rescoped, drain, hs.scoping]⟩
  entering {outer inner scope s} hinner hparent hs := by
    have hget : s.scoping.forest.get? inner = some scope := by
      rw [hs.scoping]
      exact hinner
    refine .of_on_ok (on_entering hget) ⟨hs.settings, ?_⟩
    simp [entering, rescoped, drain, hs.scoping, Forest.id_of_get? hinner]
  leaving {outer inner scope s} hinner hparent hs := by
    have hget : s.scoping.forest.get? s.scoping.cursor = some scope := by
      rw [hs.scoping]
      exact hinner
    refine .of_on_ok (on_leaving hget hparent) ⟨hs.settings, ?_⟩
    simp [leaving, rescoped, drain, hs.scoping]

private theorem preserves_invoke {forest : Forest} (handle : ν) (arguments : List (Value ν)) :
    Preserves (Pinned settings forest id) (natives.host.invoke handle arguments) := by
  intro s hs
  rw [on_invoke natives handle arguments s rfl]
  exact ⟨hs.settings, hs.scoping⟩

theorem Rests.pinned (h : s.Rests settings id) : s.Pinned settings s.scoping.forest id := by
  refine ⟨h.settings, ?_⟩
  rw [← h.cursor, ← h.log]

theorem Rests.of_pinned (h : s.Rests settings id) (ht : t.Pinned settings s.scoping.forest id) :
    t.Rests settings id := by
  refine ⟨ht.settings, ?_, ?_, ?_, ?_⟩
  · rw [ht.scoping]
    exact h.numbered
  · rw [ht.scoping]
    exact h.grown
  · rw [ht.scoping]
  · rw [ht.scoping]

theorem Rests.exists_repl (h : s.Rests settings id) :
    ∃ repl, s.scoping.forest.get? Forest.replId = some repl ∧
      repl.parent = some Forest.globalId := by
  obtain ⟨repl, hrepl, hparent, -⟩ := h.grown Forest.replId _ rfl
  exact ⟨repl, hrepl, hparent⟩

theorem Rests.exists_global (h : s.Rests settings id) :
    ∃ global, s.scoping.forest.get? Forest.globalId = some global := by
  obtain ⟨global, hglobal, -⟩ := h.grown Forest.globalId _ rfl
  exact ⟨global, hglobal⟩

theorem Rests.rescoped (h : s.Rests settings id) {scoping : Scoping}
    (hsteady : s.scoping.Steady scoping) : (s.rescoped scoping).Rests settings id :=
  ⟨h.settings, hsteady.numbered, h.grown.trans hsteady.grown, hsteady.cursor.trans h.cursor, rfl⟩

/-! ## Statements -/

private theorem preserves_runStatement (watch : Watch) (tree : Tree) :
    Preserves (Rests settings Forest.replId) (runStatement natives.host watch tree) := by
  intro s hs
  obtain ⟨repl, hrepl, -⟩ := hs.exists_repl
  have hplaced : s.scoping.Placed := ⟨hs.numbered, repl, hs.cursor ▸ hrepl⟩
  apply Act.Ensures.state
  refine (onScopes_ensures (Analysis.stays_analyse tree s.scoping hplaced)).bind ?_ ?_
  · rintro _ _ ⟨scoping, rfl, hstays⟩
    exact hs.rescoped hstays.steady
  rintro analysed _ ⟨scoping, rfl, hstays, hnested⟩
  have hrests := hs.rescoped hstays.steady
  rw [hs.cursor] at hnested
  have htracks := tracks_pinned (ν := ν) settings scoping.forest
  have hact : Preserves (Pinned settings scoping.forest Forest.replId)
      (observe watch tree analysed.node >>= fun _ => execute natives.host analysed.node) :=
    (htracks.preserves_observe watch tree analysed.node).bind fun _ =>
      htracks.preserves_execute (fun _ => preserves_invoke) hnested
  exact (hact.ensures hrests.pinned).mono (fun _ _ h => hrests.of_pinned h)
    (fun _ _ h => hrests.of_pinned h)

private theorem preserves_runStatements (watch : Watch) (last : Value ν) (trees : List Tree) :
    Preserves (Rests settings Forest.replId) (runStatements natives.host watch last trees) :=
  preserves_statements (fun tree _ => preserves_runStatement watch tree) last

theorem runStatements_append (host : Host ν) (watch : Watch) (last : Value ν)
    (trees others : List Tree) :
    runStatements host watch last (trees ++ others) =
      runStatements host watch last trees >>= fun value =>
        runStatements host watch value others := by
  induction trees generalizing last with
  | nil =>
      rw [List.nil_append, runStatements, pure_bind]
  | cons tree trees ih =>
      rw [List.cons_append, runStatements_cons, runStatements_cons, bind_assoc]
      congr 1
      funext value
      exact ih value

/-! ## Evaluations -/

def left (s : Session ν) : Session ν :=
  ((onScopes Scoping.leave).on s).2

theorem Rests.begun (h : s.Rests settings Forest.globalId) (count : Nat) {repl : Scope}
    (hrepl : s.scoping.forest.get? Forest.replId = some repl) :
    (s.begun count repl).Rests settings Forest.replId :=
  ⟨h.settings, h.numbered, h.grown, Forest.id_of_get? hrepl, rfl⟩

theorem Rests.on_leave (h : s.Rests settings Forest.replId) :
    (onScopes Scoping.leave).on s = (.ok (), s.left) ∧ s.left.Rests settings Forest.globalId := by
  obtain ⟨repl, hrepl, hparent⟩ := h.exists_repl
  have hon := on_leaving (h.cursor ▸ hrepl) hparent
  rw [left, hon]
  exact ⟨rfl, h.settings, h.numbered, h.grown, rfl, rfl⟩

/-- An evaluation runs the statements of its source at the top level and leaves it. -/
theorem Rests.on_evaluate (h : s.Rests settings Forest.globalId)
    (hoff : settings.collectEvery = none) {watch : Watch} {source : String} {trees : List Tree}
    (hparse : parseProgram source settings.sourceName = .ok trees) {repl : Scope}
    (hrepl : s.scoping.forest.get? Forest.replId = some repl) {outcome : Except Failure (Value ν)}
    (hrun : (runStatements natives.host watch .nothing trees).on (s.begun trees.length repl) =
      (outcome, t)) :
    t.Rests settings Forest.replId ∧
      (evaluate natives.host watch source).on s =
        (outcome, match outcome with
          | .ok _ => t.left.counted trees.length
          | .error _ => t.left) := by
  have ht : t.Rests settings Forest.replId := by
    have hkept : Preserves (Rests settings Forest.replId)
        (runStatements natives.host watch .nothing trees) :=
      preserves_runStatements watch .nothing trees
    have hafter := hkept _ (h.begun trees.length hrepl)
    rwa [hrun] at hafter
  refine ⟨ht, ?_⟩
  obtain ⟨hleave, hleft⟩ := ht.on_leave
  have hclosed := Act.on_closing hrun hleave
  rw [h.settings.symm] at hparse
  rw [Session.on_evaluate hparse hrepl]
  cases outcome with
  | error failure => rw [Act.on_bind_of_error hclosed]
  | ok value =>
      rw [Act.on_bind_of_ok hclosed, on_conclude_off (by rw [hleft.settings, hoff])]

/-! ## Requests -/

theorem Rests.counted (h : s.Rests settings id) (count : Nat) :
    (s.counted count).Rests settings id :=
  ⟨h.settings, h.numbered, h.grown, h.cursor, h.log⟩

theorem Rests.evaluated (h : s.Rests settings Forest.globalId)
    (hoff : settings.collectEvery = none) (natives : Natives ν) (watch : Watch) (source : String) :
    ((evaluate natives.host watch source).on s).2.Rests settings Forest.globalId := by
  cases hparse : parseProgram source settings.sourceName with
  | error diagnostic =>
      rw [on_evaluate_refused (h.settings ▸ hparse)]
      exact h
  | ok trees =>
      obtain ⟨repl, hrepl, -⟩ := h.exists_repl
      match hrun : (runStatements natives.host watch .nothing trees).on
          (s.begun trees.length repl) with
      | (outcome, t) =>
          obtain ⟨ht, hevaluate⟩ := h.on_evaluate hoff hparse hrepl hrun
          rw [hevaluate]
          cases outcome with
          | ok value => exact ht.on_leave.2.counted _
          | error failure => exact ht.on_leave.2

/-- Work on the scopes that lets them grow and leaves the cursor where it is. -/
theorem preserves_onScopes {α : Type} {act : Act Scoping α}
    (hact : ∀ s : Scoping, s.Placed → Preserves s.Steady act) :
    Preserves (Rests settings Forest.globalId) (onScopes act : Act (Session ν) α) := by
  intro s hs
  obtain ⟨global, hglobal⟩ := hs.exists_global
  have hplaced : s.scoping.Placed := ⟨hs.numbered, global, hs.cursor ▸ hglobal⟩
  rw [on_onScopes (Prod.eta (act.on s.scoping)).symm]
  exact hs.rescoped (hact s.scoping hplaced s.scoping hplaced.steady)

private theorem preserves_register (name : String) (arguments : List String)
    (result : Option String) (handle : ν) :
    Preserves (Rests settings Forest.globalId) (register name arguments result handle) := by
  rw [register_eq]
  refine (preserves_onScopes fun s _ => .mapM Scoping.steady_typeNamed arguments).bind
    fun argumentTypes => ?_
  refine (Preserves.of_same fun s => resultKind_ensures name result).bind fun kind => ?_
  refine (preserves_onScopes fun s _ => .mapM_option (fun kind => Scoping.steady_typeNamed _)
    kind).bind fun resultType => ?_
  refine (preserves_onScopes fun s hs => Scoping.steady_functionType hs _ _).bind fun type => ?_
  refine (preserves_onScopes fun s hs => Scoping.steady_declare hs _ _ _).bind fun symbol => ?_
  intro s hs
  exact ⟨hs.settings, hs.numbered, hs.grown, hs.cursor, hs.log⟩

theorem Rests.served (h : s.Rests settings Forest.globalId)
    (hoff : settings.collectEvery = none) (natives : Natives ν) (request : Request ν) :
    (s.serve natives request).2.Rests settings Forest.globalId := by
  cases request with
  | evaluate watch source => exact h.evaluated hoff natives watch source
  | register name arguments result handle =>
      exact preserves_register name arguments result handle s h
  | lookup name =>
      have hlookup : Preserves (Rests settings Forest.globalId)
          (lookup name : Act (Session ν) (Option (Value ν))) :=
        .get fun s hs => (Preserves.ofExcept _).bind (fun _ => .pure _) s hs
      exact hlookup s h
  | collect => exact ⟨h.settings, h.numbered, h.grown, h.cursor, h.log⟩

theorem Rests.servedAll (h : s.Rests settings Forest.globalId)
    (hoff : settings.collectEvery = none) (natives : Natives ν) (requests : List (Request ν)) :
    (serveAll natives requests s).2.Rests settings Forest.globalId := by
  induction requests generalizing s with
  | nil => exact h
  | cons request requests ih => exact ih (h.served hoff natives request)

private theorem rests_initial (settings : Settings) :
    (initial settings : Session ν).Rests settings Forest.globalId :=
  ⟨rfl, Forest.sound_initial.numbered, Forest.Extends.refl _, rfl, rfl⟩

/-! ## Sessions that coincide -/

/-- The sessions have the same scopes, values, bindings and labels, and did the same that can be
observed; the first one has counted some more evaluations. -/
structure Coincides (ahead : Nat) (s t : Session ν) : Prop where
  settings : t.settings = s.settings
  scoping : t.scoping = s.scoping
  values : t.values = s.values
  bindings : t.bindings = s.bindings
  next : t.nextValue = s.nextValue
  labels : t.labels = s.labels
  observed : t.observed = s.observed
  evaluations : s.evaluations = t.evaluations + ahead

variable {ahead : Nat}

theorem Coincides.trans {u : Session ν} (h : s.Coincides ahead t) (h' : t.Coincides 0 u) :
    s.Coincides ahead u :=
  ⟨h'.settings.trans h.settings, h'.scoping.trans h.scoping, h'.values.trans h.values,
    h'.bindings.trans h.bindings, h'.next.trans h.next, h'.labels.trans h.labels,
    h'.observed.trans h.observed, h.evaluations.trans (by rw [h'.evaluations, Nat.add_zero])⟩

theorem isLikeness_coincides (ahead : Nat) :
    IsLikeness (Coincides ahead : Session ν → Session ν → Prop) where
  scoping := Coincides.scoping
  next := Coincides.next
  labels := Coincides.labels
  observed := Coincides.observed
  values {s t} h id := by
    rw [valueOf?, boundTo?, h.bindings, h.values, valueOf?, boundTo?]
  rescoped {s t} h scoping := by
    refine ⟨h.settings, rfl, h.values, h.bindings, h.next, h.labels, ?_, h.evaluations⟩
    rw [(resembles_rescoped t scoping).observed, (resembles_rescoped s scoping).observed,
      h.observed]
  noted {s t} h events next _ := by
    refine ⟨h.settings, h.scoping, h.values, h.bindings, rfl, h.labels, ?_, h.evaluations⟩
    rw [observed_noted, observed_noted, h.observed]
  bound {s t} h id value :=
    ⟨h.settings, h.scoping, congrArg (·.insert value) h.values,
      congrArg (rebind · id value.id) h.bindings, h.next, h.labels, h.observed, h.evaluations⟩
  labelled h labels :=
    ⟨h.settings, h.scoping, h.values, h.bindings, h.next, rfl, h.observed, h.evaluations⟩
  storing {s t} h value :=
    ⟨h.settings, h.scoping, congrArg (·.insert value) h.values, h.bindings, h.next, h.labels,
      h.observed, h.evaluations⟩

theorem Coincides.left (h : s.Coincides ahead t) : s.left.Coincides ahead t.left := by
  rw [Session.left, Session.left, on_onScopes (Prod.eta (Scoping.leave.on s.scoping)).symm,
    on_onScopes (Prod.eta (Scoping.leave.on t.scoping)).symm, h.scoping]
  exact (isLikeness_coincides ahead).rescoped h _

theorem Coincides.counted (h : s.Coincides ahead t) (count count' : Nat) :
    (s.counted count).Coincides ahead (t.counted count') := by
  refine ⟨h.settings, h.scoping, h.values, h.bindings, h.next, h.labels, h.observed, ?_⟩
  change s.evaluations + 1 = t.evaluations + 1 + ahead
  rw [h.evaluations, Nat.add_right_comm]

theorem observed_begun (s : Session ν) (count : Nat) (repl : Scope) :
    (s.begun count repl).observed = s.observed :=
  (resembles_rescoped _ _).observed

theorem coincides_begun (s : Session ν) (count count' : Nat) (repl : Scope) :
    (s.begun count repl).Coincides 0 (s.begun count' repl) := by
  refine ⟨rfl, rfl, rfl, rfl, rfl, rfl, ?_, rfl⟩
  rw [observed_begun, observed_begun]

/-- A session that begins an evaluation after another one is where the statements of that one
ended. -/
theorem Rests.coincides_begun (h : s.Rests settings Forest.replId) (count count' : Nat)
    {repl : Scope} (hrepl : s.left.scoping.forest.get? Forest.replId = some repl) :
    ((s.left.counted count).begun count' repl).Coincides 1 s := by
  obtain ⟨top, htop, hparent⟩ := h.exists_repl
  have hleft : s.left = s.leaving top Forest.globalId := by
    rw [Session.left, on_leaving (h.cursor ▸ htop) hparent]
  rw [hleft] at hrepl ⊢
  refine ⟨rfl, ?_, rfl, rfl, rfl, rfl, ?_, rfl⟩
  · have hid : repl.id = s.scoping.cursor := (Forest.id_of_get? hrepl).trans h.cursor.symm
    have hscoping : (((s.leaving top Forest.globalId).counted count).begun count' repl).scoping =
        ⟨s.scoping.forest, repl.id, []⟩ := rfl
    rw [hscoping, hid, ← h.log]
  · rw [observed_begun]
    exact (resembles_rescoped s _).observed.symm

/-! ## Two sources -/

/-- Statements that are run after others, perhaps some lines further down, yield the value of the
last one of them, or that of the others if there are none. -/
theorem runsAlike_after (natives : Natives ν) (ahead n : Nat) (watch : Watch) (last : Value ν)
    (trees : List Tree) :
    RunsAlike natives (Coincides ahead) n
      (fun value value' => value' = if trees.isEmpty then last else value)
      (runStatements natives.host watch .nothing trees)
      (runStatements natives.host watch last (trees.map (Tree.down n))) := by
  cases trees with
  | nil =>
      rw [List.map_nil, runStatements, runStatements]
      exact .pure rfl
  | cons tree trees =>
      have hrun : RunsAlike natives (Coincides ahead) n Eq
          (runStatements natives.host watch .nothing (tree :: trees)) _ :=
        (isLikeness_coincides ahead).runsAlike_runStatements watch (tree :: trees) .nothing
      rw [List.map_cons, runStatements_cons _ _ _ (tree.down n)] at hrun ⊢
      exact hrun.mono (fun _ _ h => h.symm) (fun _ _ h => h)

theorem Coincides.on_runStatements (h : s.Coincides ahead t) {watch : Watch} {last : Value ν}
    {trees : List Tree} {outcome : Except Failure (Value ν)} {s' : Session ν}
    (hrun : (runStatements natives.host watch last trees).on s = (outcome, s')) :
    ∃ t', (runStatements natives.host watch last trees).on t = (outcome, t') ∧
      s'.Coincides ahead t' := by
  have hruns : RunsAlike natives (Coincides ahead) 0 Eq _ _ :=
    (isLikeness_coincides ahead).runsAlike_runStatements watch trees last
  have hlike := hruns s t h
  rw [← Tree.downAll_eq_map, Tree.downAll_zero, hrun] at hlike
  match ht : (runStatements natives.host watch last trees).on t with
  | (outcome', t') =>
      rw [ht] at hlike
      obtain rfl : outcome' = outcome := Natives.eq_of_alike hlike.1
      exact ⟨t', rfl, hlike.2⟩

section

variable {watch : Watch} {first second source : String} {trees others : List Tree} {n : Nat}

/-- If the first source fails, both together fail in the same way. -/
theorem Rests.evaluate_newline_error (h : s.Rests settings Forest.globalId)
    (hoff : settings.collectEvery = none)
    (hfirst : parseProgram first settings.sourceName = .ok trees)
    (hboth : parseProgram source settings.sourceName = .ok (trees ++ others)) {failure : Failure}
    (halone : (evaluate natives.host watch first).on s = (.error failure, t)) :
    ∃ t', (evaluate natives.host watch source).on s = (.error failure, t') ∧ t.Coincides 0 t' := by
  obtain ⟨repl, hrepl, -⟩ := h.exists_repl
  match hrun : (runStatements natives.host watch .nothing trees).on (s.begun trees.length repl) with
  | (outcome, u) =>
      obtain ⟨-, hevaluate⟩ := h.on_evaluate hoff hfirst hrepl hrun
      rw [halone, Prod.mk.injEq] at hevaluate
      obtain ⟨rfl, rfl⟩ := hevaluate
      obtain ⟨u', hrun', hu⟩ :=
        (Session.coincides_begun s _ (trees ++ others).length repl).on_runStatements hrun
      have hstop : (runStatements natives.host watch .nothing (trees ++ others)).on
          (s.begun (trees ++ others).length repl) = (.error failure, u') := by
        rw [runStatements_append, Act.on_bind_of_error hrun']
      obtain ⟨-, hevaluate'⟩ := h.on_evaluate hoff hboth hrepl hstop
      exact ⟨_, hevaluate', hu.left⟩

/-- If the first source succeeds, both together end like the second one. -/
theorem Rests.evaluate_newline_ok (h : s.Rests settings Forest.globalId)
    (hoff : settings.collectEvery = none)
    (hfirst : parseProgram first settings.sourceName = .ok trees)
    (hsecond : parseProgram second settings.sourceName = .ok others)
    (hboth : parseProgram source settings.sourceName = .ok (trees ++ others.map (Tree.down n)))
    {value : Value ν} {outcome : Except Failure (Value ν)} {u : Session ν}
    (halone : (evaluate natives.host watch first).on s = (.ok value, t))
    (hnext : (evaluate natives.host watch second).on t = (outcome, u)) :
    ∃ outcome' u', (evaluate natives.host watch source).on s = (outcome', u') ∧ u.Coincides 1 u' ∧
      Alike (fun last last' => last' = if others.isEmpty then value else last) (natives.Echoes n)
        outcome outcome' := by
  obtain ⟨repl, hrepl, -⟩ := h.exists_repl
  match hrun : (runStatements natives.host watch .nothing trees).on (s.begun trees.length repl) with
  | (result, v) =>
      obtain ⟨hv, hevaluate⟩ := h.on_evaluate hoff hfirst hrepl hrun
      rw [halone, Prod.mk.injEq] at hevaluate
      obtain ⟨rfl, rfl⟩ := hevaluate
      have hafter := hv.on_leave.2.counted trees.length
      obtain ⟨top, htop, -⟩ := hafter.exists_repl
      obtain ⟨v', hrun', hcoincides⟩ := (Session.coincides_begun s _
        (trees ++ others.map (Tree.down n)).length repl).on_runStatements hrun
      have hstart := (hv.coincides_begun trees.length others.length htop).trans hcoincides
      have hlike := runsAlike_after natives 1 n watch value others _ _ hstart
      match hlast : (runStatements natives.host watch .nothing others).on
          ((v.left.counted trees.length).begun others.length top),
        hlast' : (runStatements natives.host watch value (others.map (Tree.down n))).on v' with
      | (outcome₁, w), (outcome₂, w') =>
          rw [hlast, hlast'] at hlike
          have hwhole : (runStatements natives.host watch .nothing
              (trees ++ others.map (Tree.down n))).on
              (s.begun (trees ++ others.map (Tree.down n)).length repl) = (outcome₂, w') := by
            rw [runStatements_append, Act.on_bind_of_ok hrun', hlast']
          obtain ⟨-, hevaluate₁⟩ := hafter.on_evaluate hoff hsecond htop hlast
          obtain ⟨-, hevaluate₂⟩ := h.on_evaluate hoff hboth hrepl hwhole
          rw [hnext, Prod.mk.injEq] at hevaluate₁
          obtain ⟨rfl, rfl⟩ := hevaluate₁
          refine ⟨outcome₂, _, hevaluate₂, ?_, hlike.1⟩
          cases hlike.1 with
          | ok _ => exact hlike.2.left.counted _ _
          | error _ => exact hlike.2.left

end

/-- Evaluating two sources with a newline between them is evaluating the one after the other, but
for the lines of the second one. -/
theorem evaluate_newline (natives : Natives ν) (settings : Settings)
    (requests : List (Request ν)) (watch : Watch) {first second : String}
    {trees others : List Tree} (hfirst : parseProgram first settings.sourceName = .ok trees)
    (hsecond : parseProgram second settings.sourceName = .ok others) :
    let n := first.toList.count '\n' + 1
    let source := first ++ "\n" ++ second
    let s := (serveAll natives requests (.initial { settings with collectEvery := none })).2
    let alone := (evaluate natives.host watch first).on s
    let next := (evaluate natives.host watch second).on alone.2
    let joined := (evaluate natives.host watch source).on s
    parseProgram source settings.sourceName = .ok (trees ++ others.map (Tree.down n)) ∧
      match alone.1, next.1 with
      | .error failure, _ => joined.1 = .error failure ∧ alone.2.Coincides 0 joined.2
      | .ok value, .ok value' =>
        joined.1 = .ok (if others.isEmpty then value else value') ∧ next.2.Coincides 1 joined.2
      | .ok _, .error failure => ∃ failure', joined.1 = .error failure' ∧
        natives.Echoes n failure failure' ∧ next.2.Coincides 1 joined.2 := by
  intro n source s alone next joined
  have hboth : parseProgram source settings.sourceName =
      .ok (trees ++ others.map (Tree.down n)) := parseProgram_newline hfirst hsecond
  have hs : s.Rests { settings with collectEvery := none } Forest.globalId :=
    (rests_initial _).servedAll rfl natives requests
  refine ⟨hboth, ?_⟩
  have halone : (evaluate natives.host watch first).on s = alone := rfl
  have hnext : (evaluate natives.host watch second).on alone.2 = next := rfl
  have hjoined : (evaluate natives.host watch source).on s = joined := rfl
  clear_value joined next alone
  obtain ⟨outcome, t⟩ := alone
  obtain ⟨outcome', u⟩ := next
  cases outcome with
  | error failure =>
      obtain ⟨t', hboth, hcoincides⟩ := hs.evaluate_newline_error rfl hfirst hboth halone
      rw [← hjoined, hboth]
      exact ⟨rfl, hcoincides⟩
  | ok value =>
      obtain ⟨result, u', hboth, hcoincides, halike⟩ :=
        hs.evaluate_newline_ok rfl hfirst hsecond hboth halone hnext
      rw [← hjoined, hboth]
      cases halike with
      | ok hlast => exact ⟨by rw [hlast], hcoincides⟩
      | error hechoes => exact ⟨_, rfl, hechoes, hcoincides⟩

def quiet : Natives Unit where
  respond := fun _ _ _ _ => ⟨[], 0, .ok (.datum .nothing)⟩

def quietReady : Session Unit :=
  (serveAll quiet [.evaluate .nothing "var y = true"]
    (.initial { Settings.standard with collectEvery := none })).2

def quietShown : Except Failure (Value Unit) × Session Unit :=
  (evaluate quiet.host .nothing ": y").on quietReady

theorem evaluate_newline_undefined :
    ∃ failure failure',
      ((evaluate quiet.host .nothing "x").on quietShown.2).1 = .error failure ∧
      ((evaluate quiet.host .nothing (": y" ++ "\n" ++ "x")).on quietReady).1 = .error failure' ∧
      quiet.Echoes 1 failure failure' := by
  have hfirst : parseProgram ": y" Settings.standard.sourceName =
      .ok [.debugPrint (.reference ⟨.name, "y", 1, 3, "y", "<input>"⟩)
        ⟨.debugPrint, ":", 1, 1, ":", "<input>"⟩] := by
    decide +kernel
  have hsecond : parseProgram "x" Settings.standard.sourceName =
      .ok [.reference ⟨.name, "x", 1, 1, "x", "<input>"⟩] := by
    decide +kernel
  have hdeclare : parseProgram "var y = true" Settings.standard.sourceName =
      .ok [.declare ⟨.name, "y", 1, 5, "y", "<input>"⟩
        (.literal ⟨.truth, "true", 1, 9, "true", "<input>"⟩ .truth)] := by
    decide +kernel
  let s : Session Unit := .initial { Settings.standard with collectEvery := none }
  have hready : quietReady = ((evaluate quiet.host .nothing "var y = true").on s).2 := rfl
  rw [Session.on_evaluate hdeclare rfl] at hready
  have hdone : quietShown = (evaluate quiet.host .nothing ": y").on quietReady := rfl
  rw [hready, Session.on_evaluate hfirst rfl] at hdone
  have hshown : quietShown.1 = .ok .nothing := by
    rw [hdone]
    rfl
  have hnext : ((evaluate quiet.host .nothing "x").on quietShown.2).1 =
      .error (.located (.undefinedSymbol "x" "variable") ⟨"<input>", 1, 1, 1, 1⟩) := by
    rw [hdone, Session.on_evaluate hsecond rfl]
    rfl
  obtain ⟨-, hjoined⟩ := evaluate_newline quiet .standard [.evaluate .nothing "var y = true"]
    .nothing hfirst hsecond
  rw [← quietReady, ← quietShown, hshown, hnext] at hjoined
  obtain ⟨failure', herror, hechoes, -⟩ := hjoined
  exact ⟨_, failure', hnext, herror, hechoes⟩

end Session

end Scriptlet
