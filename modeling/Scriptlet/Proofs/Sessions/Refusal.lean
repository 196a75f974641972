import Scriptlet.Proofs.Analysis.Additions
import Scriptlet.Proofs.Analysis.Derivation
import Scriptlet.Proofs.Lexical.Simulation
import Scriptlet.Proofs.Sessions.Concatenation
import Scriptlet.Proofs.Sessions.Reachability
/-!
# Refused sources

A source that cannot be read leaves the session as it is.  A statement that the analysis
refuses leaves it as the statements before it did, but for scopes of blocks that nothing
can reach any more.
-/

namespace Scriptlet

theorem Act.Ensures.exists_error {σ α : Type} {act : Act σ α} {s : σ} {fail : Failure → σ → Prop}
    (h : act.Ensures s (fun _ _ => False) fail) :
    ∃ failure t, act.on s = (.error failure, t) ∧ fail failure t := by
  unfold Ensures at h
  match hrun : act.on s with
  | (.ok value, t) =>
      rw [hrun] at h
      exact h.elim
  | (.error failure, t) =>
      rw [hrun] at h
      exact ⟨failure, t, rfl, h⟩

namespace Session

open Act (Preserves)

variable {ν : Type} {host : Host ν} {base : Forest} {s t u : Session ν}

/-- The second session has come out of the first one without any effect.  There may be more scopes
of blocks, which no scope that was there before is nested in. -/
structure Unaffected (t u : Session ν) : Prop where
  settings : u.settings = t.settings
  values : u.values = t.values
  bindings : u.bindings = t.bindings
  evaluations : u.evaluations = t.evaluations
  next : u.nextValue = t.nextValue
  labels : u.labels = t.labels
  observed : u.observed = t.observed
  kept : t.scoping.Kept u.scoping
  added : t.scoping.AddsBlocks u.scoping
  chain : ∀ id scope, t.scoping.forest.get? id = some scope →
    u.scoping.forest.chain id = t.scoping.forest.chain id
  lookup : ∀ id scope, t.scoping.forest.get? id = some scope →
    ∀ name, u.scoping.forest.lookup id name = t.scoping.forest.lookup id name

theorem Unaffected.rescoped (h : t.Unaffected u) {scoping : Scoping}
    (hforest : scoping.forest = u.scoping.forest) : t.Unaffected (u.rescoped scoping) where
  settings := h.settings
  values := h.values
  bindings := h.bindings
  evaluations := h.evaluations
  next := h.next
  labels := h.labels
  observed := (resembles_rescoped u scoping).observed.trans h.observed
  kept := h.kept.of_forest hforest
  added := h.added.of_forest hforest
  chain id scope hget := (congrArg (Forest.chain · id) hforest).trans (h.chain id scope hget)
  lookup id scope hget name :=
    (congrArg (Forest.lookup · id name) hforest).trans (h.lookup id scope hget name)

private theorem unaffected_refused (ht : t.Ordered base) {scoping : Scoping}
    (hscoping : scoping.Ordered base) (hkept : t.scoping.Kept scoping)
    (hadded : t.scoping.AddsBlocks scoping) : t.Unaffected (t.rescoped scoping) where
  settings := rfl
  values := rfl
  bindings := rfl
  evaluations := rfl
  next := rfl
  labels := rfl
  observed := (resembles_rescoped t scoping).observed
  kept := hkept
  added := hadded
  chain _ _ hget := hkept.chain ht.numbered hscoping.numbered hget
  lookup _ _ hget := hkept.lookup ht.numbered hscoping.numbered hget

private theorem unaffected_leave : Preserves t.Unaffected (onScopes Scoping.leave) :=
  fun u h => h.rescoped (@Scoping.forest_leave (· = u.scoping.forest) u.scoping rfl)

/-- The analysis of a tree of the parser fails without an effect. -/
theorem runStatement_refused (ht : t.Ordered base) {tree : Tree} (htree : tree.IsClause)
    {failure : Failure} {scoping : Scoping}
    (hanalyse : (Analysis.analyse tree).on t.scoping = (.error failure, scoping))
    (watch : Watch) :
    ∃ u, (runStatement host watch tree).on t = (.error failure, u) ∧ t.Unaffected u := by
  have hkept := Analysis.clause_elaborating htree t.scoping ⟨ht.numbered, ht.cursor⟩
  have hordered := (Scoping.upholds_ordered base).analyse tree t.scoping ht
  have hadded := (Scoping.upholds_addsBlocks t.scoping).analyse tree t.scoping
    fun _ _ hget hnone => by rw [hnone] at hget; cases hget
  unfold Act.Ensures at hkept
  rw [hanalyse] at hkept hordered hadded
  have hrun : (runStatement host watch tree).on t = (.error failure, t.rescoped scoping) := by
    unfold runStatement
    rw [Act.on_bind_of_error (on_onScopes hanalyse)]
  exact ⟨_, hrun, unaffected_refused ht hordered hkept hadded⟩

/-- A source that is refused has no effect beyond that of the statements before the refused one;
if it is refused before any statement is run, it has none at all. -/
theorem refused_without_effect {settings : Settings}
    (hreachable : (initial settings : Session ν).LeadsTo s)
    (hhost : ∀ handle arguments (s : Session ν), s.LeadsTo ((host.invoke handle arguments).on s).2)
    (watch : Watch) (source : String) :
    (∀ diagnostic, parseProgram source s.settings.sourceName = .error diagnostic →
      (evaluate host watch source).on s = (.error (.fault diagnostic), s)) ∧
    ∀ before tree later, parseProgram source s.settings.sourceName =
        .ok (before ++ tree :: later) →
      ∀ value t, (opening host watch (before ++ tree :: later).length before).on s =
        (.ok value, t) →
      ∀ failure scoping, (Analysis.analyse tree).on t.scoping = (.error failure, scoping) →
      ∃ failure' u, (evaluate host watch source).on s = (.error failure', u) ∧
        t.Unaffected u := by
  refine ⟨fun diagnostic hparse => on_evaluate_refused hparse, ?_⟩
  intro before tree later hparse value t hbefore failure scoping hanalyse
  have hs := hreachable.ordered (ordered_initial settings)
  obtain ⟨repl, hrepl, -⟩ := Scoping.Ordered.exists_repl hs
  have ht : t.Ordered .initial := by
    have hopening := ordered_opening
      (fun handle arguments s => (hhost handle arguments s).ordered) watch
      (before ++ tree :: later).length before s hs
    rwa [hbefore] at hopening
  rw [on_opening hrepl] at hbefore
  have htree : tree.IsClause := TokenStream.program_isClause hparse tree (by simp)
  obtain ⟨refused, hrefused, hunaffected⟩ := runStatement_refused ht htree hanalyse watch
  have hrun : (runStatements host watch .nothing (before ++ tree :: later)).on
      (s.begun (before ++ tree :: later).length repl) = (.error failure, refused) := by
    rw [runStatements_append, Act.on_bind_of_ok hbefore, runStatements_cons,
      Act.on_bind_of_error hrefused]
  -- Leaving may fail in turn; the failure is another one then.
  have hclosed : (Act.closing (onScopes Scoping.leave) (runStatements host watch .nothing
      (before ++ tree :: later))).Ensures (s.begun (before ++ tree :: later).length repl)
      (fun _ _ => False) (fun _ u => t.Unaffected u) := by
    have hbody : (runStatements host watch .nothing (before ++ tree :: later)).Ensures
        (s.begun (before ++ tree :: later).length repl) (fun _ _ => False)
        (fun _ u => t.Unaffected u) := .of_on_error hrun hunaffected
    refine hbody.closing (fun _ _ h => h.elim) fun _ u h => ?_
    exact (unaffected_leave (t := t)).ensures h
  have hevaluate : (evaluate host watch source).Ensures s (fun _ _ => False)
      (fun _ u => t.Unaffected u) := by
    unfold Act.Ensures
    rw [on_evaluate hparse hrepl]
    exact hclosed.bind (fun _ _ h => h) fun _ _ h => h.elim
  exact hevaluate.exists_error

def oneShown : Tree :=
  .debugPrint (.literal ⟨.number, "1", 1, 3, "1", "<input>"⟩ .integer)
    ⟨.debugPrint, ":", 1, 1, ":", "<input>"⟩

/-- A block that declares a name and then refers to one that nobody declared. -/
def undefinedInBlock : Tree :=
  .block [.declare ⟨.name, "x", 2, 7, "x", "<input>"⟩
      (.literal ⟨.number, "2", 2, 11, "2", "<input>"⟩ .integer),
    .reference ⟨.name, "y", 3, 1, "y", "<input>"⟩]
    (some ⟨.leftCurly, "\x7b", 2, 1, "\x7b", "<input>"⟩)

/-- The block is refused after a line was written, and that is all that happened. -/
theorem refused_without_effect_undefined :
    ∃ failure u,
      (evaluate sevens .nothing ": 1\n\x7b var x = 2\ny \x7d").on (.initial .standard) =
        (.error failure, u) ∧
      u.observed = [.wrote "int 1\n"] ∧ u.bindings = [] := by
  have hparse : parseProgram ": 1\n\x7b var x = 2\ny \x7d" Settings.standard.sourceName =
      .ok ([oneShown] ++ undefinedInBlock :: []) := by
    decide +kernel
  let t : Session Unit := ((opening sevens .nothing 2 [oneShown]).on (.initial .standard)).2
  have hbefore : (opening sevens .nothing 2 [oneShown]).on (.initial .standard) =
      (.ok .nothing, t) :=
    Prod.ext rfl rfl
  let scoping : Scoping := ((Analysis.analyse undefinedInBlock).on t.scoping).2
  have hanalyse : (Analysis.analyse undefinedInBlock).on t.scoping =
      (.error (.located (.undefinedSymbol "y" "variable") ⟨"<input>", 3, 1, 3, 1⟩), scoping) :=
    Prod.ext rfl rfl
  have hobserved : t.observed = [.wrote "int 1\n"] := rfl
  have hbindings : t.bindings = [] := rfl
  obtain ⟨failure, u, hevaluate, hunaffected⟩ :=
    (refused_without_effect (s := .initial .standard) (.apart rfl) leadsTo_sevens
      .nothing ": 1\n\x7b var x = 2\ny \x7d").2 _ _ _ hparse _ t hbefore _ _ hanalyse
  exact ⟨failure, u, hevaluate, hunaffected.observed.trans hobserved,
    hunaffected.bindings.trans hbindings⟩

end Session

end Scriptlet
