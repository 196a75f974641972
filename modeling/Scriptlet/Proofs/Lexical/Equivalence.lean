import Scriptlet.Proofs.Lexical.Simulation
import Scriptlet.Proofs.Sessions.Unbound
/-!
# Sessions as lexical scoping by name

Sources that are evaluated one after the other do what the reference evaluator
does on their statements.  A source may be refused by the parser, which leaves
nothing to run, or by the analysis, which leaves the statements before the one
that it refused.
-/

namespace Scriptlet.Session

variable {ν : Type} {natives : Natives ν} {own book : Value ν → Prop} {s t : Session ν}

/-! ## Sources that do not fail while they run -/

/-- The statements of a source ran up to the first one that the analysis refused,
if there was such a one. -/
inductive Accepts (host : Host ν) : Session ν → List Tree → List Tree → Prop where
  | done {s : Session ν} : Accepts host s [] []
  | refused {s t : Session ν} {tree : Tree} {trees : List Tree} {failure : Failure} :
      (onScopes (Analysis.analyse tree)).on s = (.error failure, t) →
      Accepts host s (tree :: trees) []
  | next {s t : Session ν} {tree : Tree} {trees accepted : List Tree} {value : Value ν} :
      (runStatement host .nothing tree).on s = (.ok value, t) → Accepts host t trees accepted →
      Accepts host s (tree :: trees) (tree :: accepted)

/-- The sources were evaluated one after the other and none failed while it ran.
For each source there are the statements of it that ran and its outcome. -/
inductive Performs (host : Host ν) :
    Session ν → List String → List (List Tree) → List (Except Failure (Value ν)) → Session ν →
    Prop where
  | done {s : Session ν} : Performs host s [] [] [] s
  | unread {s t : Session ν} {source : String} {sources : List String}
      {programs : List (List Tree)} {diagnostic : Diagnostic}
      {outcomes : List (Except Failure (Value ν))} :
      parseProgram source s.settings.sourceName = .error diagnostic →
      Performs host s sources programs outcomes t →
      Performs host s (source :: sources) ([] :: programs) (.error (.fault diagnostic) :: outcomes)
        t
  | read {s t u : Session ν} {source : String} {sources : List String} {trees program : List Tree}
      {programs : List (List Tree)} {repl : Scope} {outcome : Except Failure (Value ν)}
      {outcomes : List (Except Failure (Value ν))} :
      parseProgram source s.settings.sourceName = .ok trees →
      s.scoping.forest.get? Forest.replId = some repl →
      Accepts host (s.begun trees.length repl) trees program →
      (evaluate host .nothing source).on s = (outcome, t) →
      Performs host t sources programs outcomes u →
      Performs host s (source :: sources) (program :: programs) (outcome :: outcomes) u

/-! ## Statements of a source -/

/-- The evaluator runs a program to the given result, from the frames of one state
of the top level to those of another one in which everything in view has a
value. -/
structure Mirrors (natives : Natives ν) (last : Value ν) (program : List Tree) (s t : Session ν)
    (result : Value ν) : Prop where
  run : (Reference.run natives last program).on (s.reference s.topView) =
    (.ok result, t.reference t.topView)
  covers : t.Covers (fun _ => False) t.topView

private theorem distinct_topView (hs : s.scoping.forest.Sound) : s.topView.Distinct := by
  obtain ⟨repl, hrepl, -⟩ := hs.repl
  have hmem := Forest.mem_of_get? hrepl
  have hids : ∀ scope ∈ s.scoping.forest.scopes, (scope.symbols.map Symbol.id).Nodup := by
    intro scope hscope
    apply List.Nodup.map_on _ (hs.named scope hscope).of_map
    intro a ha b hb heq
    exact (hs.identified scope hscope scope hscope a ha b hb heq).1
  rw [topView_eq hs hrepl, Env.Distinct, List.flatten_cons, List.flatten_cons, List.flatten_nil,
    List.append_nil, List.map_append, List.nodup_append]
  refine ⟨hids repl hmem, hids _ hs.lawful.global_mem, ?_⟩
  intro id hid other hother heq
  obtain ⟨a, ha, rfl⟩ := List.mem_map.1 hid
  obtain ⟨b, hb, rfl⟩ := List.mem_map.1 hother
  obtain ⟨-, hscope⟩ := hs.identified repl hmem _ hs.lawful.global_mem a ha b hb heq
  have hrepl := Forest.id_of_get? hrepl
  rw [hscope, Forest.id_of_get? hs.lawful.global_eq] at hrepl
  exact absurd hrepl (by decide)

private theorem runStatement_mirrored (hhonest : natives.host.Honest own) {tree : Tree}
    (htree : tree.IsStatement) (hstraight : tree.IsStraight) (hs : s.Sound book)
    (hown : ∀ v, own v → book v) (hcursor : s.scoping.cursor = Forest.replId)
    (hcovers : s.Covers (fun _ => False) s.topView) :
    (runStatement natives.host .nothing tree).Ensures s
      (fun value t => (Reference.evaluate natives tree).on (s.reference s.topView) =
        (.ok value, t.reference t.topView) ∧ t.Covers (fun _ => False) t.topView)
      (fun _ _ => True) := by
  have hscoping := scoping_sound hs hcursor
  have hanalyse := onScopes_ensures (Analysis.statementSound htree s.scoping hscoping)
  refine hanalyse.bind (fun _ _ _ => trivial) ?_
  rintro analysed _ ⟨scoping, rfl, hgrows, -, htyped, hscopes⟩
  have hgrown := hs.proceeds_rescoped hgrows
  have hframed : Framed own scoping.forest scoping.cursor s.topView book (s.rescoped scoping) :=
    ⟨⟨hgrown.sound, hown, (hgrows.soundScoping hscoping).cursor, rfl, rfl⟩, hcovers,
      distinct_topView hs.forest⟩
  rw [view_eq_topView hcursor] at hscopes
  have hmirrored := runsByName hhonest htyped _ _ tree hscopes hstraight _ book hframed
  have hsound := executionSound hhonest htyped _ book hframed.toStands
  refine (hsound.and hmirrored).mono ?_ (fun _ _ _ => trivial)
  rintro value t ⟨⟨book', hfollows, -⟩, hvalue, hafter⟩
  rw [topView_of_follows (hgrows.cursor.trans hcursor) hfollows]
  rw [(resembles_rescoped s scoping).reference] at hvalue
  exact ⟨hvalue, hafter⟩

theorem Accepts.mirrored (hhonest : natives.host.Honest own) {trees accepted : List Tree}
    (h : Accepts natives.host s trees accepted) (htrees : ∀ tree ∈ trees, tree.IsStatement)
    (hstraight : ∀ tree ∈ accepted, tree.IsStraight) (hs : s.Sound book)
    (hown : ∀ v, own v → book v) (hcursor : s.scoping.cursor = Forest.replId)
    (hcovers : s.Covers (fun _ => False) s.topView) (last : Value ν) :
    (runStatements natives.host .nothing last trees).Ensures s
      (fun value t => Mirrors natives last accepted s t value)
      (fun _ t => ∃ value, Mirrors natives last accepted s t value) := by
  induction h generalizing book last with
  | done =>
      rw [runStatements]
      exact Act.ensures_pure ⟨rfl, hcovers⟩
  | @refused s t tree trees failure hrefused =>
      rw [List.forall_mem_cons] at htrees
      have hscoping := scoping_sound hs hcursor
      have hanalyse := onScopes_ensures (Analysis.statementSound htrees.1 s.scoping hscoping)
      unfold Act.Ensures at hanalyse
      rw [hrefused] at hanalyse
      obtain ⟨scoping, rfl, hgrows, hkept, -⟩ := hanalyse
      have hview := topView_of_kept hscoping hcursor hgrows hkept
      rw [runStatements]
      refine .of_on_error (Act.on_bind_of_error hrefused _) ⟨last, ?_, ?_⟩
      · rw [hview, (resembles_rescoped s scoping).reference]
        rfl
      · rw [hview]
        exact hcovers
  | @next s t tree trees accepted value hrun _ ih =>
      rw [List.forall_mem_cons] at htrees hstraight
      have hsound := runStatement_ensures hhonest .nothing htrees.1 hs hown hcursor
      have hmirrored := runStatement_mirrored hhonest htrees.1 hstraight.1 hs hown hcursor hcovers
      unfold Act.Ensures at hsound hmirrored
      rw [hrun] at hsound hmirrored
      obtain ⟨book', hproceeds, -⟩ := hsound
      obtain ⟨hvalue, hcovers'⟩ := hmirrored
      have hrest := ih htrees.2 hstraight.2 hproceeds.sound
        (fun v hv => hproceeds.book v (hown v hv)) (hproceeds.cursor.trans hcursor) hcovers' value
      -- The rest of the program starts where the first statement ended.
      have hextend : ∀ u result, Mirrors natives value accepted t u result →
          Mirrors natives last (tree :: accepted) s u result := by
        intro u result hu
        refine ⟨?_, hu.covers⟩
        rw [Reference.run, Act.on_bind_of_ok hvalue, hu.run]
      unfold Act.Ensures
      rw [runStatements_cons, Act.on_bind_of_ok hrun]
      refine hrest.mono (fun result u hu => hextend u result hu) ?_
      rintro failure u ⟨result, hu⟩
      exact ⟨result, hextend u result hu⟩

/-! ## Whole sources -/

private theorem resembles_begun (s : Session ν) (count : Nat) (repl : Scope) :
    s.Resembles (s.begun count repl) := by
  have hparsed : s.Resembles (s.noted [.parsed count] s.nextValue) := ⟨fun _ => rfl, rfl, rfl⟩
  exact hparsed.trans (resembles_rescoped _ _)

private theorem evaluate_mirrored (hhonest : natives.host.Honest own) (hinv : s.Inv own book)
    (hcovers : s.Covers (fun _ => False) s.topView) {source : String}
    {trees program : List Tree} {repl : Scope}
    (hparse : parseProgram source s.settings.sourceName = .ok trees)
    (hrepl : s.scoping.forest.get? Forest.replId = some repl)
    (haccepts : Accepts natives.host (s.begun trees.length repl) trees program)
    (hstraight : ∀ tree ∈ program, tree.IsStraight) :
    (evaluate natives.host .nothing source).Ensures s
      (fun value t => Mirrors natives .nothing program s t value)
      (fun _ t => ∃ value, Mirrors natives .nothing program s t value) := by
  have hbegun : (s.begun trees.length repl).Sound book :=
    (hinv.sound.noted (Nat.le_refl _) (by simp)).entering repl
  have htrees := parseProgram_isStatement hparse
  have hcursor := Forest.id_of_get? hrepl
  have hmirrored := haccepts.mirrored hhonest htrees hstraight hbegun hinv.own hcursor hcovers
    .nothing
  have hstart := (resembles_begun s trees.length repl).reference s.topView
  have hbefore : ∀ t result,
      Mirrors natives .nothing program (s.begun trees.length repl) t result →
      Mirrors natives .nothing program s t result := by
    intro t result h
    refine ⟨?_, h.covers⟩
    rw [← hstart]
    exact h.run
  -- Leaving the top level cannot be told by a program.
  have hleave : ∀ result t scope, Mirrors natives .nothing program s t result →
      Mirrors natives .nothing program s (t.leaving scope Forest.globalId) result := by
    intro result t scope h
    have hend := reference_leaving t scope Forest.globalId t.topView
    have hrun := h.run
    rw [← hend] at hrun
    exact ⟨hrun, h.covers⟩
  apply evaluate_of_runStatements hhonest hinv.sound hinv.own hinv.cursor hparse hrepl
    (hmirrored.mono (fun value t h => hbefore t value h)
      (fun _ t h => h.imp fun value h => hbefore t value h)) hleave
  · rintro failure t scope ⟨value, h⟩
    exact ⟨value, hleave value t scope h⟩
  · intro value t u book' hfollows hresembles h
    have hview : u.topView = t.topView := by
      rw [topView, hfollows.forest]
      rfl
    refine ⟨?_, ?_⟩
    · rw [hview, hresembles.reference]
      exact h.run
    · rw [hview]
      exact h.covers.later hfollows.later

/-! ## Sources in order -/

theorem Ready.repl_symbols (h : Ready own s) :
    ∃ repl, s.scoping.forest.get? Forest.replId = some repl ∧ repl.symbols = [] := by
  induction h with
  | initial settings => exact ⟨_, rfl, rfl⟩
  | @make own s t payload value _ hfresh ih =>
      rw [on_fresh, Prod.mk.injEq] at hfresh
      obtain ⟨-, rfl⟩ := hfresh
      exact ih
  | keep _ _ ih => exact ih
  | @register own s t name arguments result handle outcome hready hname hregister ih =>
      obtain ⟨book, hinv⟩ := hready.reachable.exists_inv
      have hensures := register_ensures hinv.sound hinv.cursor hname arguments result handle
      unfold Act.Ensures at hensures
      rw [hregister] at hensures
      cases outcome with
      | ok symbol =>
          rw [hensures.2.repl]
          exact ih
      | error failure =>
          rw [hensures.2.repl]
          exact ih

/-- The evaluator before the first source: a frame for the native functions that
were registered, and an empty one for the top level. -/
def firstReference (s : Session ν) : Reference ν where
  frames := [[], s.frameOf s.scoping.forest.global.symbols]
  next := s.nextValue
  trace := s.observed

theorem Ready.reference_eq (h : Ready own s) : s.reference s.topView = s.firstReference := by
  obtain ⟨book, hinv⟩ := h.reachable.exists_inv
  obtain ⟨repl, hrepl, hsymbols⟩ := h.repl_symbols
  rw [topView_eq hinv.sound.forest hrepl, hsymbols]
  rfl

theorem Performs.mirrored (hhonest : natives.host.Honest own) {sources : List String}
    {programs : List (List Tree)} {outcomes : List (Except Failure (Value ν))}
    (h : Performs natives.host s sources programs outcomes t)
    (hstraight : ∀ program ∈ programs, ∀ tree ∈ program, tree.IsStraight)
    (hinv : ∃ book, s.Inv own book) (hcovers : s.Covers (fun _ => False) s.topView) :
    ∃ results, (programs.mapM (Reference.run natives .nothing)).on (s.reference s.topView) =
        (.ok results, t.reference t.topView) ∧
      List.Forall₂ (fun outcome result => ∀ value, outcome = .ok value → value = result)
        outcomes results := by
  induction h with
  | done => exact ⟨[], rfl, .nil⟩
  | @unread s t source sources programs diagnostic outcomes hparse _ ih =>
      rw [List.forall_mem_cons] at hstraight
      obtain ⟨results, hon, hall⟩ := ih hstraight.2 hinv hcovers
      refine ⟨.nothing :: results, ?_, .cons (by simp) hall⟩
      rw [List.mapM_cons, Reference.run, pure_bind, Act.on_bind_of_ok hon]
      rfl
  | @read s t u source sources trees program programs repl outcome outcomes hparse hrepl haccepts
      hevaluate _ ih =>
      rw [List.forall_mem_cons] at hstraight
      obtain ⟨book, hinv⟩ := hinv
      have hsound := evaluate_ensures hhonest hinv.sound hinv.own hinv.cursor .nothing source
      have hmirrored := evaluate_mirrored hhonest hinv hcovers hparse hrepl haccepts hstraight.1
      unfold Act.Ensures at hsound hmirrored
      rw [hevaluate] at hsound hmirrored
      have hproceeds : ∃ book', Proceeds book book' s t := by
        cases outcome with
        | ok value =>
            obtain ⟨book', hproceeds, -⟩ := hsound
            exact ⟨book', hproceeds⟩
        | error failure => exact hsound.1
      have hresult : ∃ result, Mirrors natives .nothing program s t result ∧
          ∀ value, outcome = .ok value → value = result := by
        cases outcome with
        | ok value =>
            refine ⟨value, hmirrored, ?_⟩
            intro other hother
            exact (Except.ok.inj hother).symm
        | error failure =>
            obtain ⟨result, hresult⟩ := hmirrored
            exact ⟨result, hresult, by simp⟩
      obtain ⟨book', hproceeds⟩ := hproceeds
      obtain ⟨result, hmatch, hsame⟩ := hresult
      obtain ⟨results, hon, hall⟩ := ih hstraight.2 ⟨book', hinv.proceeds hproceeds⟩ hmatch.covers
      refine ⟨result :: results, ?_, .cons hsame hall⟩
      rw [List.mapM_cons, Act.on_bind_of_ok hmatch.run, Act.on_bind_of_ok hon]
      rfl

/-- Sources that do not fail while they run do what lexical scoping by name says:
the output, the calls of native functions with their arguments, and the results
of the sources that succeed are those of the reference evaluator. -/
theorem performs_by_name (hready : Ready own s) (hgenuine : natives.Genuine own)
    {sources : List String} {programs : List (List Tree)}
    {outcomes : List (Except Failure (Value ν))}
    (hrun : Performs natives.host s sources programs outcomes t)
    (hstraight : ∀ program ∈ programs, ∀ tree ∈ program, tree.IsStraight) :
    ∃ results r,
      (programs.mapM (Reference.run natives .nothing)).on s.firstReference = (.ok results, r) ∧
      r.trace = t.observed ∧
      List.Forall₂ (fun outcome result => ∀ value, outcome = .ok value → value = result)
        outcomes results := by
  obtain ⟨results, hon, hall⟩ := hrun.mirrored (honest_host hgenuine) hstraight
    hready.reachable.exists_inv hready.covers
  rw [hready.reference_eq] at hon
  exact ⟨results, _, hon, rfl, hall⟩

/-- A function that says that it was called and returns seven. -/
def sevenNatives : Natives Unit where
  respond _ _ _ _ := ⟨["seven\n"], 0, .ok (.datum (.integer 7))⟩

private theorem sevenNatives_genuine (own : Value Unit → Prop) : sevenNatives.Genuine own := by
  intro handle arguments trace next value h
  simp [sevenNatives] at h

/-- The statement `{ var seven = true; : seven }`. -/
def shadowing : Tree :=
  .block [.declare ⟨.name, "seven", 1, 7, "seven", "<input>"⟩
      (.literal ⟨.truth, "true", 1, 15, "true", "<input>"⟩ .truth),
    .debugPrint (.reference ⟨.name, "seven", 1, 23, "seven", "<input>"⟩)
      ⟨.debugPrint, ":", 1, 21, ":", "<input>"⟩]
    (some ⟨.leftCurly, "\x7b", 1, 1, "\x7b", "<input>"⟩)

def calling : Tree :=
  .call (.reference ⟨.name, "seven", 1, 1, "seven", "<input>"⟩) []
    ⟨.leftParen, "(", 1, 6, "(", "<input>"⟩

private theorem isStraight_shadowing_calling :
    ∀ program ∈ [[shadowing], [calling]], ∀ tree ∈ program, tree.IsStraight := by
  rintro program hprogram tree htree name ⟨condition, body, token, hmem, -⟩
  rcases List.mem_pair.1 hprogram with rfl | rfl
  · rw [List.mem_singleton.1 htree] at hmem
    simp [shadowing, Tree.preorder, Tree.preorderAll] at hmem
  · rw [List.mem_singleton.1 htree] at hmem
    simp [calling, Tree.preorder, Tree.preorderAll] at hmem

def sevensShadowed : Session Unit :=
  ((evaluate sevenNatives.host .nothing "\x7b var seven = true; : seven \x7d").on sevensReady).2

def sevensCalled : Session Unit :=
  ((evaluate sevenNatives.host .nothing "seven()").on sevensShadowed).2

theorem parse_shadowing :
    parseProgram "\x7b var seven = true; : seven \x7d" Settings.standard.sourceName =
      .ok [shadowing] := by
  decide +kernel

theorem sevensShadowed_eq :
    sevensShadowed =
      ((Act.closing (onScopes Scoping.leave)
          (runStatements sevenNatives.host .nothing .nothing [shadowing]) >>= conclude 1).on
        (sevensReady.begun 1 bareTop)).2 := by
  rw [sevensShadowed, on_evaluate parse_shadowing repl_sevensReady]
  rfl

theorem repl_sevensShadowed :
    sevensShadowed.scoping.forest.get? Forest.replId = some bareTop := by
  rw [sevensShadowed_eq]
  rfl

theorem parse_calling :
    parseProgram "seven()" sevensShadowed.settings.sourceName = .ok [calling] := by
  rw [sevensShadowed_eq]
  change parseProgram "seven()" Settings.standard.sourceName = .ok [calling]
  decide +kernel

private theorem accepts_shadowing :
    Accepts sevenNatives.host (sevensReady.begun 1 bareTop) [shadowing] [shadowing] := by
  have hvalue : ((runStatement sevenNatives.host .nothing shadowing).on
      (sevensReady.begun 1 bareTop)).1 = .ok .nothing := rfl
  exact .next (Prod.ext hvalue rfl) .done

private theorem accepts_calling :
    Accepts sevenNatives.host (sevensShadowed.begun 1 bareTop) [calling] [calling] := by
  have hvalue : ((runStatement sevenNatives.host .nothing calling).on
      (sevensShadowed.begun 1 bareTop)).1 = .ok ⟨⟨3⟩, .primitive (.integer 7)⟩ := by
    rw [sevensShadowed_eq]
    rfl
  exact .next (Prod.ext hvalue rfl) .done

private theorem performs_sevens :
    Performs sevenNatives.host sevensReady ["\x7b var seven = true; : seven \x7d", "seven()"]
      [[shadowing], [calling]] [.ok .nothing, .ok ⟨⟨3⟩, .primitive (.integer 7)⟩]
      sevensCalled := by
  have hshadowed : (evaluate sevenNatives.host .nothing "\x7b var seven = true; : seven \x7d").on
      sevensReady = (.ok .nothing, sevensShadowed) := by
    refine Prod.ext ?_ rfl
    rw [on_evaluate parse_shadowing repl_sevensReady]
    rfl
  have hcalled : (evaluate sevenNatives.host .nothing "seven()").on sevensShadowed =
      (.ok ⟨⟨3⟩, .primitive (.integer 7)⟩, sevensCalled) := by
    refine Prod.ext ?_ rfl
    rw [on_evaluate parse_calling repl_sevensShadowed, sevensShadowed_eq]
    rfl
  exact .read parse_shadowing repl_sevensReady accepts_shadowing hshadowed
    (.read parse_calling repl_sevensShadowed accepts_calling hcalled .done)

private theorem observed_sevensCalled :
    sevensCalled.observed = [.wrote "seven\n", .called "seven" () [], .wrote "truth true\n"] := by
  rw [sevensCalled, on_evaluate parse_calling repl_sevensShadowed, sevensShadowed_eq]
  rfl

theorem performs_by_name_sevens :
    ∃ r, ([[shadowing], [calling]].mapM (Reference.run sevenNatives .nothing)).on
        sevensReady.firstReference =
        (.ok [.nothing, ⟨⟨3⟩, .primitive (.integer 7)⟩], r) ∧
      r.trace = [.wrote "seven\n", .called "seven" () [], .wrote "truth true\n"] := by
  obtain ⟨results, r, hon, htrace, hall⟩ := performs_by_name ready_sevensReady
    (sevenNatives_genuine _) performs_sevens isStraight_shadowing_calling
  obtain ⟨first, rest, hfirst, hrest, rfl⟩ := List.forall₂_cons_left_iff.1 hall
  obtain ⟨second, others, hsecond, hothers, rfl⟩ := List.forall₂_cons_left_iff.1 hrest
  rw [List.forall₂_nil_left_iff.1 hothers, ← hfirst _ rfl, ← hsecond _ rfl] at hon
  refine ⟨r, hon, ?_⟩
  rw [htrace, observed_sevensCalled]

end Scriptlet.Session
