import Scriptlet.Proofs.Analysis.Naming
import Scriptlet.Proofs.Analysis.Stamps
import Scriptlet.Proofs.Sessions.Reachability
/-!
# Annotations of statements

Whatever an embedding program has done to a session, and wherever its cursor stands, the
statements of a program are annotated as their text says.
-/

namespace Scriptlet

/-- Statements that are accepted at any scope of a reachable session are annotated in accordance
with their text: the syntax trees come back when the identities are erased (up to the operators of
assignments, which annotated trees do not keep), the blocks bear new scopes, no two of them the
same, each below the scope around the block, the declarations are held by the scopes around them,
and every name stands for the nearest declaration before it in the innermost block that has one, or
for what is visible at the cursor before the statements. -/
theorem Session.analysis_follows_text {ν : Type} {settings : Settings} {s : Session ν}
    (hreachable : (initial settings : Session ν).LeadsTo s) {trees : List Tree}
    (hparsed : ∀ tree ∈ trees, tree.IsParsed) {nodes : List Annotated} {t : Scoping}
    (hanalyse : (Analysis.analyseAll trees).on s.scoping = (.ok nodes, t)) :
    let places := Annotated.placedAll s.scoping.cursor nodes
    (∀ operator, Annotated.eraseAll operator nodes = Tree.withOperatorAll operator trees) ∧
    (Annotated.stamps places).Nodup ∧
    (∀ outer statements inner token, (outer, .block statements inner token) ∈ places →
      s.scoping.forest.get? inner = none ∧
        ∃ scope, t.forest.get? inner = some scope ∧ scope.parent = some outer) ∧
    (∀ outer symbol initializer name, (outer, .declare symbol initializer name) ∈ places →
      ∃ scope, t.forest.get? outer = some scope ∧
        ∃ found ∈ scope.symbols, found.id = symbol ∧ found.name = name.text) ∧
    ∃ outside : String → Option Symbol,
      (∀ name, s.scoping.forest.lookup s.scoping.cursor name = .ok (outside name)) ∧
      Annotated.FollowsAll (fun name => (outside name).map Symbol.id) [[]] nodes := by
  intro places
  have hs := hreachable.ordered (ordered_initial settings)
  have hplaced : s.scoping.Placed := ⟨hs.numbered, hs.cursor⟩
  have hall := (Analysis.all_elaborating
    (fun tree htree => Analysis.clause_elaborating (hparsed tree htree).isClause) hplaced).and
    (Analysis.stays_analyseAll trees s.scoping hplaced)
  unfold Act.Ensures at hall
  rw [hanalyse] at hall
  obtain ⟨helaborates, -, hnested⟩ := hall
  obtain ⟨count, -, hstamps⟩ := helaborates.stamps hplaced s.scoping.cursor
  obtain ⟨scope, hscope⟩ := hs.cursor
  refine ⟨helaborates.erase, ?_, ?_, ?_, s.scoping.view.resolve,
    Scoping.lookup_eq_resolve hscope, helaborates.follows hplaced fun name => rfl⟩
  · rw [hstamps]
    exact Analysis.nextScopes_nodup _ _
  · intro outer statements inner token hplace
    obtain ⟨node, hnode, hmem⟩ := Annotated.mem_placedAll.1 hplace
    refine ⟨?_, (hnested node hnode).parent hmem⟩
    have hinner : inner ∈ Annotated.stamps places := List.mem_filterMap.2 ⟨_, hplace, rfl⟩
    rw [hstamps] at hinner
    exact Analysis.get?_of_mem_nextScopes hs.numbered hinner
  · intro outer symbol initializer name hplace
    exact helaborates.holds hplaced hplace

/-- A variable, and another one of its name in a block, whose initializer is the first. -/
def shadowedTrees : List Tree :=
  [.declare ⟨.name, "x", 1, 5, "x", "<input>"⟩
      (.literal ⟨.number, "1", 1, 9, "1", "<input>"⟩ .integer),
    .block [.declare ⟨.name, "x", 2, 7, "x", "<input>"⟩
        (.reference ⟨.name, "x", 2, 11, "x", "<input>"⟩),
      .assign (.reference ⟨.name, "x", 3, 1, "x", "<input>"⟩)
        (.literal ⟨.number, "2", 3, 5, "2", "<input>"⟩ .integer)
        ⟨.assign, "=", 3, 3, "=", "<input>"⟩]
      (some ⟨.leftCurly, "\x7b", 2, 1, "\x7b", "<input>"⟩)]

def shadowedNodes : List Annotated :=
  [.declare ⟨5⟩ (.literal ⟨.number, "1", 1, 9, "1", "<input>"⟩ .integer)
      ⟨.name, "x", 1, 5, "x", "<input>"⟩,
    .block [.declare ⟨6⟩ (.reference ⟨5⟩ ⟨.name, "x", 2, 11, "x", "<input>"⟩)
        ⟨.name, "x", 2, 7, "x", "<input>"⟩,
      .assign ⟨6⟩ (.literal ⟨.number, "2", 3, 5, "2", "<input>"⟩ .integer)
        ⟨.name, "x", 3, 1, "x", "<input>"⟩]
      ⟨3⟩ (some ⟨.leftCurly, "\x7b", 2, 1, "\x7b", "<input>"⟩)]

/-- At the top level, the block gets a scope below it, and the names are those of its text. -/
theorem Session.analysis_follows_text_shadowing :
    ∃ t : Scoping,
      (Analysis.analyseAll shadowedTrees).on
        ((onScopes (Scoping.enter Forest.replId)).on
          (.initial .standard : Session Unit)).2.scoping = (.ok shadowedNodes, t) ∧
      (∃ scope, t.forest.get? ⟨3⟩ = some scope ∧ scope.parent = some Forest.replId) ∧
      ∃ outside, Annotated.FollowsAll outside [[]] shadowedNodes := by
  have hparse : parseProgram "var x = 1\n\x7b var x = x\nx = 2 \x7d" "<input>" =
      .ok shadowedTrees := by
    decide +kernel
  have hreachable : (initial .standard : Session Unit).LeadsTo _ := .enter Forest.replId
  let s : Session Unit := ((onScopes (Scoping.enter Forest.replId)).on (.initial .standard)).2
  let t : Scoping := ((Analysis.analyseAll shadowedTrees).on s.scoping).2
  have hanalyse : (Analysis.analyseAll shadowedTrees).on s.scoping = (.ok shadowedNodes, t) :=
    Prod.ext rfl rfl
  have hcursor : s.scoping.cursor = Forest.replId := rfl
  obtain ⟨-, -, hblocks, -, outside, -, hfollows⟩ :=
    analysis_follows_text hreachable (fun _ htree => .inProgram hparse htree) hanalyse
  obtain ⟨-, scope, hscope, hparent⟩ := hblocks s.scoping.cursor _ ⟨3⟩ _
    (Annotated.mem_placedAll.2 ⟨_, List.mem_cons_of_mem _ List.mem_cons_self, List.mem_cons_self⟩)
  exact ⟨t, hanalyse, ⟨scope, hscope, hparent.trans (congrArg some hcursor)⟩, _, hfollows⟩

end Scriptlet
