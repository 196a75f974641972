import Scriptlet.Proofs.Analysis.Sound
import Scriptlet.Proofs.Sessions.Dumps
import Scriptlet.Proofs.Sessions.Execution
/-!
# Soundness of evaluation

Evaluating a source in a sound session that stands at its root leaves it sound
and at its root, whatever the outcome.  A source is refused by the parser, is
refused by the analysis, or stops for one of the reasons of `Host.Stops`.
-/

namespace Scriptlet.Session

variable {ν : Type} {host : Host ν} {own book : Value ν → Prop} {s : Session ν}

/-- The session went on from one state to another, both at the same cursor, while
the scopes and the book of values grew. -/
structure Proceeds (book book' : Value ν → Prop) (s t : Session ν) : Prop where
  cursor : t.scoping.cursor = s.scoping.cursor
  later : s.Later t
  book : ∀ v, book v → book' v
  sound : t.Sound book'

theorem Proceeds.trans {t u : Session ν} {book book' book'' : Value ν → Prop}
    (h : Proceeds book book' s t) (h' : Proceeds book' book'' t u) : Proceeds book book'' s u :=
  ⟨h'.cursor.trans h.cursor, h.later.trans h'.later, fun v hv => h'.book v (h.book v hv), h'.sound⟩

theorem Follows.proceeds {t : Session ν} {book book' : Value ν → Prop}
    (h : Follows book book' s t) : Proceeds book book' s t :=
  ⟨h.cursor, h.later, h.book, h.sound⟩

/-! ## Dumps before a statement -/

def IsNumeral (failure : Failure) : Prop :=
  ∃ error, failure = .host (.numeral error)

theorem Sound.follows_labels (hs : s.Sound book) (labels : Labels) :
    Follows book book s { s with labels := labels } := by
  have hlater : s.Later { s with labels := labels } :=
    .of_valueOf? (Forest.Extends.refl _) (fun _ _ h => h) (fun _ h => h)
  exact ⟨rfl, rfl, fun _ _ => rfl, hlater, fun _ h => h,
    hs.of_frame hlater hs.forest rfl rfl (Nat.le_refl _) fun _ _ _ h => .inl h⟩

private theorem ofHost_ensures {α : Type} (hs : s.Sound book) {outcome : Except HostError α}
    (h : FailsOnNumerals outcome) :
    (Act.ofHost outcome).Ensures s (fun _ t => Follows book book s t)
      (fun failure t => Follows book book s t ∧ IsNumeral failure) := by
  cases outcome with
  | ok value => exact .refl hs
  | error error =>
      obtain ⟨inner, rfl⟩ := h error rfl
      exact ⟨.refl hs, inner, rfl⟩

private theorem writeLine_ensures {t : Session ν} (hfollows : Follows book book s t)
    (text : String) :
    (writeLine text).Ensures t (fun _ u => Follows book book s u)
      (fun failure u => Follows book book s u ∧ IsNumeral failure) :=
  hfollows.trans (hfollows.sound.follows_event _ (by simp))

private theorem labelling_ensures {α : Type} (hs : s.Sound book) {work : Annotated.Labelling α}
    (h : work.StopsOnNumerals) :
    (labelling work).Ensures s (fun _ t => Follows book book s t)
      (fun failure t => Follows book book s t ∧ IsNumeral failure) := by
  have hwork := h s.labels
  unfold labelling Act.Ensures
  rw [Act.on_bind_of_ok (Act.on_get s)]
  match hrun : work.run s.labels with
  | (outcome, labels) =>
      rw [hrun] at hwork
      dsimp only
      rw [Act.on_bind_of_ok (Act.on_set _ _)]
      have hfollows := hs.follows_labels labels
      refine (ofHost_ensures hfollows.sound hwork).mono ?_ ?_
      · exact fun _ t ht => hfollows.trans ht
      · exact fun _ t ht => ⟨hfollows.trans ht.1, ht.2⟩

private theorem observe_ensures (hs : s.Sound book) (watch : Watch) {tree : Tree}
    (htree : tree.IsStatement) {forest : Forest} {scope : ScopeId} {node : Annotated}
    {type : Option SymbolId} (hnode : node.Typed forest scope type) :
    (observe watch tree node).Ensures s (fun _ t => Follows book book s t)
      (fun failure t => Follows book book s t ∧ IsNumeral failure) := by
  have hsecond : ∀ t, Follows book book s t → (if watch.annotatedTree = true then
      (labelling (node.dump .standard) >>= writeLine : Act (Session ν) Unit)
      else pure ()).Ensures t (fun _ u => Follows book book s u)
        (fun failure u => Follows book book s u ∧ IsNumeral failure) := by
    intro t ht
    split
    · refine (labelling_ensures ht.sound (hnode.dump_stopsOnNumerals _)).bind ?_ ?_
      · exact fun failure u hu => ⟨ht.trans hu.1, hu.2⟩
      · exact fun text u hu => writeLine_ensures (ht.trans hu) text
    · exact Act.ensures_pure ht
  unfold observe
  dsimp only
  split
  · refine (ofHost_ensures hs (htree.dump_failsOnNumerals _)).bind (fun _ _ h => h) ?_
    intro text t ht
    exact (writeLine_ensures ht text).bind (fun _ _ h => h) fun _ u hu => hsecond u hu
  · exact hsecond s (.refl hs)

/-! ## Statements in order -/

/-- Why the statements of a source may stop: the analysis refuses one, or
executing one stops. -/
def Interrupts (host : Host ν) (failure : Failure) : Prop :=
  failure.IsSemantic ∨ host.Stops failure

theorem scoping_sound (hs : s.Sound book) (hcursor : s.scoping.cursor = Forest.replId) :
    s.scoping.Sound := by
  obtain ⟨scope, hget, -⟩ := hs.forest.repl
  exact ⟨hs.forest, ⟨scope, hcursor ▸ hget⟩, by rw [hcursor]; decide⟩

/-- Work on the scopes that grows them keeps a session sound. -/
theorem Sound.proceeds_rescoped (hs : s.Sound book) {t : Scoping} (h : s.scoping.Grows t) :
    Proceeds book book s (s.rescoped t) :=
  ⟨h.cursor, later_rescoped h.grown, fun _ h => h, hs.rescoped h.sound h.grown⟩

theorem onScopes_ensures {α : Type} {act : Act Scoping α} {post : α → Scoping → Prop}
    {fail : Failure → Scoping → Prop} (h : act.Ensures s.scoping post fail) :
    (onScopes act).Ensures s (fun value t => ∃ scoping, t = s.rescoped scoping ∧ post value scoping)
      (fun failure t => ∃ scoping, t = s.rescoped scoping ∧ fail failure scoping) := by
  unfold Act.Ensures at h ⊢
  match hact : act.on s.scoping with
  | (.ok value, scoping) =>
      rw [hact] at h
      rw [on_onScopes hact]
      exact ⟨scoping, rfl, h⟩
  | (.error failure, scoping) =>
      rw [hact] at h
      rw [on_onScopes hact]
      exact ⟨scoping, rfl, h⟩

def runStatement (host : Host ν) (watch : Watch) (tree : Tree) : Act (Session ν) (Value ν) := do
  let analysed ← onScopes (Analysis.analyse tree)
  observe watch tree analysed.node
  execute host analysed.node

theorem runStatements_cons (host : Host ν) (watch : Watch) (last : Value ν) (tree : Tree)
    (trees : List Tree) :
    runStatements host watch last (tree :: trees) =
      runStatement host watch tree >>= fun value => runStatements host watch value trees := by
  rw [runStatements, runStatement]
  simp only [bind_assoc]

theorem runStatement_ensures (hhonest : host.Honest own) (watch : Watch) {tree : Tree}
    (htree : tree.IsStatement) (hs : s.Sound book) (hown : ∀ v, own v → book v)
    (hcursor : s.scoping.cursor = Forest.replId) :
    (runStatement host watch tree).Ensures s
      (fun value t => ∃ book', Proceeds book book' s t ∧ (value = .nothing ∨ book' value))
      (fun failure t => (∃ book', Proceeds book book' s t) ∧ Interrupts host failure) := by
  have hscoping := scoping_sound hs hcursor
  have hanalyse := onScopes_ensures (Analysis.statementSound htree s.scoping hscoping)
  refine hanalyse.bind ?_ ?_
  · rintro failure _ ⟨scoping, rfl, hgrows, -, hfailure⟩
    exact ⟨⟨book, hs.proceeds_rescoped hgrows⟩, .inl hfailure⟩
  rintro analysed _ ⟨scoping, rfl, hgrows, -, htyped, -⟩
  have hgrown := hs.proceeds_rescoped hgrows
  refine (observe_ensures hgrown.sound watch htree htyped).bind ?_ ?_
  · rintro _ t ⟨hfollows, error, rfl⟩
    exact ⟨⟨book, hgrown.trans hfollows.proceeds⟩, .inr .unshown⟩
  intro _ t hobserved
  have hexecute := executionSound hhonest htyped t book ⟨hobserved.sound, hown,
    (hgrows.soundScoping hscoping).cursor, hobserved.forest, hobserved.cursor⟩
  refine hexecute.mono ?_ ?_
  · rintro value u ⟨book', hfollows, hyields⟩
    refine ⟨book', hgrown.trans (hobserved.trans hfollows).proceeds, ?_⟩
    cases htype : analysed.type with
    | none =>
        rw [htype] at hyields
        exact .inl hyields
    | some type =>
        rw [htype] at hyields
        exact .inr hyields.1
  · rintro failure u ⟨⟨book', hfollows⟩, hstops⟩
    exact ⟨⟨book', hgrown.trans (hobserved.trans hfollows).proceeds⟩, .inr hstops⟩

private theorem runStatements_ensures (hhonest : host.Honest own) (watch : Watch)
    {trees : List Tree} (htrees : ∀ tree ∈ trees, tree.IsStatement) {last : Value ν}
    (hlast : last = .nothing ∨ book last) (hs : s.Sound book) (hown : ∀ v, own v → book v)
    (hcursor : s.scoping.cursor = Forest.replId) :
    (runStatements host watch last trees).Ensures s
      (fun value t => ∃ book', Proceeds book book' s t ∧ (value = .nothing ∨ book' value))
      (fun failure t => (∃ book', Proceeds book book' s t) ∧ Interrupts host failure) := by
  induction trees generalizing s book last with
  | nil =>
      rw [runStatements]
      exact Act.ensures_pure ⟨book, (Follows.refl hs).proceeds, hlast⟩
  | cons tree trees ih =>
      rw [List.forall_mem_cons] at htrees
      rw [runStatements_cons]
      refine (runStatement_ensures hhonest watch htrees.1 hs hown hcursor).bind
        (fun _ _ h => h) ?_
      rintro value t ⟨book', hproceeds, hvalue⟩
      have hrest := ih htrees.2 hvalue hproceeds.sound
        (fun v hv => hproceeds.book v (hown v hv)) (hproceeds.cursor.trans hcursor)
      refine hrest.mono ?_ ?_
      · rintro result w ⟨book'', hproceeds', hresult⟩
        exact ⟨book'', hproceeds.trans hproceeds', hresult⟩
      · rintro failure w ⟨⟨book'', hproceeds'⟩, hinterrupts⟩
        exact ⟨⟨book'', hproceeds.trans hproceeds'⟩, hinterrupts⟩

/-! ## Whole sources -/

/-- Why evaluating a source may fail: the parser refuses it, or its statements
are interrupted. -/
def Rejects (host : Host ν) (source file : String) (failure : Failure) : Prop :=
  (∃ diagnostic, parseProgram source file = .error diagnostic ∧ failure = .fault diagnostic) ∨
    Interrupts host failure

theorem Sound.follows_counted (hs : s.Sound book) (count : Nat) :
    Follows book book s { s with evaluations := count } := by
  have hlater : s.Later { s with evaluations := count } :=
    .of_valueOf? (Forest.Extends.refl _) (fun _ _ h => h) (fun _ h => h)
  exact ⟨rfl, rfl, fun _ _ => rfl, hlater, fun _ h => h,
    hs.of_frame hlater hs.forest rfl rfl (Nat.le_refl _) fun _ _ _ h => .inl h⟩

def isObservable : Event ν → Bool
  | .called .. | .wrote _ => true
  | _ => false

/-- What can be observed of a session: the calls of native functions and the
output, the latest first. -/
def observed (s : Session ν) : List (Event ν) :=
  s.journal.filter isObservable

/-- The two states differ in nothing that a program can tell. -/
structure Resembles (s t : Session ν) : Prop where
  values : ∀ id, t.valueOf? id = s.valueOf? id
  next : t.nextValue = s.nextValue
  observed : t.observed = s.observed

theorem Resembles.trans {t u : Session ν} (h : s.Resembles t) (h' : t.Resembles u) :
    s.Resembles u :=
  ⟨fun id => (h'.values id).trans (h.values id), h'.next.trans h.next,
    h'.observed.trans h.observed⟩

private theorem collectIfDue_ensures (hs : s.Sound book) :
    (collectIfDue).Ensures s (fun _ t => Follows book book s t ∧ s.Resembles t)
      (fun _ _ => False) := by
  have hcollected : Follows book book s s.collected :=
    ⟨rfl, rfl, fun _ _ => valueOf?_collected _, later_collected, fun _ h => h, hs.collected⟩
  have hsame : Follows book book s s ∧ s.Resembles s := ⟨.refl hs, fun _ => rfl, rfl, rfl⟩
  unfold collectIfDue Act.Ensures
  rw [Act.on_bind_of_ok (Act.on_get s)]
  cases s.settings.collectEvery with
  | none => exact hsame
  | some every =>
      by_cases hdue : (s.evaluations : Int) % every = 0
      · simp only [if_pos hdue, Act.on_bind_of_ok (on_collect s)]
        exact ⟨hcollected, valueOf?_collected, rfl, rfl⟩
      · simp only [if_neg hdue]
        exact hsame

def conclude (count : Nat) (value : Value ν) : Act (Session ν) (Value ν) := do
  modify fun session => { session with evaluations := session.evaluations + 1 }
  let session ← get
  record (.evaluated count session.bindings.length session.values.size)
  collectIfDue
  return value

private theorem conclude_ensures (hs : s.Sound book) (count : Nat) (value : Value ν) :
    (conclude count value).Ensures s
      (fun result t => result = value ∧ Follows book book s t ∧ s.Resembles t)
      (fun _ _ => False) := by
  have hcounted := hs.follows_counted (s.evaluations + 1)
  have hevent := hcounted.sound.follows_event
    (.evaluated count s.bindings.length s.values.size) (by simp)
  have hrecorded := hcounted.trans hevent
  unfold conclude Act.Ensures
  rw [Act.on_bind_of_ok (Act.on_modify _ s), Act.on_bind_of_ok (Act.on_get _),
    Act.on_bind_of_ok (on_record _ _)]
  refine (collectIfDue_ensures hrecorded.sound).bind (fun _ _ h => h) ?_
  rintro _ t ⟨hfollows, hresembles⟩
  refine Act.ensures_pure ⟨rfl, hrecorded.trans hfollows, Resembles.trans ?_ hresembles⟩
  exact ⟨fun _ => rfl, rfl, rfl⟩

theorem on_evaluate_refused {watch : Watch} {source : String} {diagnostic : Diagnostic}
    (h : parseProgram source s.settings.sourceName = .error diagnostic) :
    (evaluate host watch source).on s = (.error (.fault diagnostic), s) := by
  unfold evaluate
  rw [Act.on_bind_of_ok (Act.on_get s)]
  dsimp only
  rw [h]
  rfl

def begun (s : Session ν) (count : Nat) (repl : Scope) : Session ν :=
  (s.noted [.parsed count] s.nextValue).entering repl

/-- The scope of the top level, as long as nothing is declared there. -/
def bareTop : Scope :=
  ⟨⟨2⟩, "repl", some ⟨1⟩, []⟩

theorem on_evaluate {watch : Watch} {source : String} {trees : List Tree} {repl : Scope}
    (h : parseProgram source s.settings.sourceName = .ok trees)
    (hrepl : s.scoping.forest.get? Forest.replId = some repl) :
    (evaluate host watch source).on s =
      (Act.closing (onScopes Scoping.leave) (runStatements host watch .nothing trees) >>=
        conclude trees.length).on (s.begun trees.length repl) := by
  have hread : (Act.ofDiagnostic (.ok trees) : Act (Session ν) (List Tree)).on s =
      (.ok trees, s) := rfl
  have hrecord : (record (.parsed trees.length)).on s =
      (.ok (), s.noted [.parsed trees.length] s.nextValue) := rfl
  have henter : (onScopes (Scoping.enter Forest.replId)).on
      (s.noted [.parsed trees.length] s.nextValue) = (.ok (), s.begun trees.length repl) :=
    on_entering hrepl
  unfold evaluate
  rw [Act.on_bind_of_ok (Act.on_get s)]
  dsimp only
  rw [h, Act.on_bind_of_ok hread, Act.on_bind_of_ok hrecord, Act.on_bind_of_ok henter]
  rfl

/-- Leaving comes back to the root from wherever the statements of a source
ended. -/
theorem leave_begun (hs : s.Sound book) (hcursor : s.scoping.cursor = Forest.globalId)
    {count : Nat} {repl : Scope} (hrepl : s.scoping.forest.get? Forest.replId = some repl)
    {t : Session ν} {book' : Value ν → Prop} (h : Proceeds book book' (s.begun count repl) t) :
    ∃ u, (onScopes Scoping.leave).on t = (.ok (), u) ∧ Proceeds book book' s u ∧
      ∃ scope, u = t.leaving scope Forest.globalId := by
  obtain ⟨repl', hget, hparent, -⟩ := h.later.grown _ repl hrepl
  have hroot : repl'.parent = some Forest.globalId := by
    obtain ⟨scope, hscope, hroot⟩ := hs.forest.repl
    rw [hrepl, Option.some.injEq] at hscope
    rw [hparent, hscope, hroot]
  have hcurrent : t.scoping.forest.get? t.scoping.cursor = some repl' := by
    rw [h.cursor]
    rw [← Forest.id_of_get? hrepl] at hget
    exact hget
  have hlater : s.Later (s.begun count repl) :=
    (later_noted [.parsed count] s.nextValue).trans (later_entering _ repl)
  exact ⟨_, on_leaving hcurrent hroot, ⟨hcursor.symm,
    hlater.trans (h.later.trans (later_leaving t repl' _)), h.book, h.sound.leaving repl' _⟩,
    repl', rfl⟩

theorem evaluate_ensures (hhonest : host.Honest own) (hs : s.Sound book)
    (hown : ∀ v, own v → book v) (hcursor : s.scoping.cursor = Forest.globalId) (watch : Watch)
    (source : String) :
    (evaluate host watch source).Ensures s
      (fun value t => ∃ book', Proceeds book book' s t ∧ (value = .nothing ∨ book' value))
      (fun failure t => (∃ book', Proceeds book book' s t) ∧
        Rejects host source s.settings.sourceName failure) := by
  cases hparse : parseProgram source s.settings.sourceName with
  | error diagnostic =>
      refine .of_on_error (on_evaluate_refused hparse) ?_
      exact ⟨⟨book, (Follows.refl hs).proceeds⟩, .inl ⟨diagnostic, hparse, rfl⟩⟩
  | ok trees =>
      obtain ⟨repl, hrepl, -⟩ := hs.forest.repl
      have hbegun : (s.begun trees.length repl).Sound book :=
        (hs.noted (Nat.le_refl _) (by simp)).entering repl
      have hrun := runStatements_ensures hhonest watch (parseProgram_isStatement hparse)
        (.inl rfl) hbegun hown (Forest.id_of_get? hrepl)
      have hclosed : (Act.closing (onScopes Scoping.leave)
          (runStatements host watch .nothing trees)).Ensures (s.begun trees.length repl)
          (fun value u => ∃ book', Proceeds book book' s u ∧ (value = .nothing ∨ book' value))
          (fun failure u => (∃ book', Proceeds book book' s u) ∧
            Rejects host source s.settings.sourceName failure) := by
        apply hrun.closing
        · rintro value t ⟨book', hproceeds, hvalue⟩
          obtain ⟨u, hu, hback, -⟩ := leave_begun hs hcursor hrepl hproceeds
          exact .of_on_ok hu ⟨book', hback, hvalue⟩
        · rintro failure t ⟨⟨book', hproceeds⟩, hinterrupts⟩
          obtain ⟨u, hu, hback, -⟩ := leave_begun hs hcursor hrepl hproceeds
          exact .of_on_ok hu ⟨⟨book', hback⟩, .inr hinterrupts⟩
      unfold Act.Ensures
      rw [on_evaluate hparse hrepl]
      refine hclosed.bind (fun _ _ h => h) ?_
      rintro value u ⟨book', hproceeds, hvalue⟩
      refine (conclude_ensures hproceeds.sound _ value).mono ?_ (fun _ _ h => h.elim)
      rintro _ w ⟨rfl, hfollows, -⟩
      exact ⟨book', hproceeds.trans hfollows.proceeds, hvalue⟩

/-- What the statements of a source ensure, evaluating the source ensures, if it is
kept by leaving the top level and by what follows after the statements. -/
theorem evaluate_of_runStatements (hhonest : host.Honest own) (hs : s.Sound book)
    (hown : ∀ v, own v → book v) (hcursor : s.scoping.cursor = Forest.globalId) {watch : Watch}
    {source : String} {trees : List Tree} {repl : Scope}
    (hparse : parseProgram source s.settings.sourceName = .ok trees)
    (hrepl : s.scoping.forest.get? Forest.replId = some repl)
    {post : Value ν → Session ν → Prop} {fail : Failure → Session ν → Prop}
    (hrun : (runStatements host watch .nothing trees).Ensures (s.begun trees.length repl) post fail)
    (hleave : ∀ value t scope, post value t → post value (t.leaving scope Forest.globalId))
    (hleave' : ∀ failure t scope, fail failure t → fail failure (t.leaving scope Forest.globalId))
    (hconclude : ∀ value t u book', Follows book' book' t u → t.Resembles u → post value t →
      post value u) :
    (evaluate host watch source).Ensures s post fail := by
  have hbegun : (s.begun trees.length repl).Sound book :=
    (hs.noted (Nat.le_refl _) (by simp)).entering repl
  have hsound := runStatements_ensures hhonest watch (parseProgram_isStatement hparse)
    (.inl rfl) hbegun hown (Forest.id_of_get? hrepl)
  have hclosed : (Act.closing (onScopes Scoping.leave)
      (runStatements host watch .nothing trees)).Ensures (s.begun trees.length repl)
      (fun value u => (∃ book', u.Sound book') ∧ post value u) fail := by
    apply (hsound.and hrun).closing
    · rintro value t ⟨⟨book', hproceeds, -⟩, ht⟩
      obtain ⟨u, hu, hback, scope, rfl⟩ := leave_begun hs hcursor hrepl hproceeds
      exact .of_on_ok hu ⟨⟨book', hback.sound⟩, hleave value t scope ht⟩
    · rintro failure t ⟨⟨⟨book', hproceeds⟩, -⟩, ht⟩
      obtain ⟨u, hu, hback, scope, rfl⟩ := leave_begun hs hcursor hrepl hproceeds
      exact .of_on_ok hu (hleave' failure t scope ht)
  unfold Act.Ensures
  rw [on_evaluate hparse hrepl]
  refine hclosed.bind (fun _ _ h => h) ?_
  rintro value u ⟨⟨book', hu⟩, hvalue⟩
  refine (conclude_ensures hu _ value).mono ?_ (fun _ _ h => h.elim)
  rintro _ w ⟨rfl, hfollows, hresembles⟩
  exact hconclude _ u w book' hfollows hresembles hvalue

end Scriptlet.Session
