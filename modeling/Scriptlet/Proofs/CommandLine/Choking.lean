import Scriptlet.Proofs.CommandLine.Values
import Scriptlet.Proofs.Sessions.Readability
import Scriptlet.Proofs.Sessions.Requests
import Scriptlet.Proofs.Syntax.Literals
import Scriptlet.Proofs.Syntax.Shape
/-!
# What a session at the command line chokes on

Whatever source a session at the command line is given, it stops for a fault of the
language, with one exception: a statement that is accepted but cannot be dumped, though
a dump is asked for, stops it with an error from outside the language.
-/

namespace Scriptlet

namespace Session

variable {ν : Type}

/-- The session accepts the statement and cannot dump it. -/
def Balks (watch : Watch) (tree : Tree) (s : Session ν) : Prop :=
  (∃ analysed t, (Analysis.analyse tree).on s.scoping = (.ok analysed, t)) ∧ watch.ChokesOn tree

/-- The session balks at one of the statements, after those before it were run. -/
inductive Chokes (host : Host ν) (watch : Watch) : List Tree → Session ν → Prop where
  | here {tree : Tree} {trees : List Tree} {s : Session ν} :
      s.Balks watch tree → Chokes host watch (tree :: trees) s
  | later {tree : Tree} {trees : List Tree} {s t : Session ν} {value : Value ν} :
      (runStatement host watch tree).on s = (.ok value, t) → Chokes host watch trees t →
      Chokes host watch (tree :: trees) s

/-- The source has a statement that the session chokes on once it has entered the top level. -/
def ChokesOn (host : Host ν) (watch : Watch) (source : String) (s : Session ν) : Prop :=
  ∃ trees value t, parseProgram source s.settings.sourceName = .ok trees ∧
    (opening host watch trees.length []).on s = (.ok value, t) ∧ t.Chokes host watch trees

private theorem on_opening_nil {s : Session ν} {repl : Scope}
    (hrepl : s.scoping.forest.get? Forest.replId = some repl) (host : Host ν) (watch : Watch)
    (count : Nat) : (opening host watch count []).on s = (.ok .nothing, s.begun count repl) := by
  rw [on_opening hrepl, runStatements, Act.on_pure]

/-- A session that is to dump its statements chokes on a numeral of too many digits. -/
theorem chokesOn_numeral {s : Session ν} {repl : Scope} {watch : Watch} {numeral : String}
    (hrepl : s.scoping.forest.get? Forest.replId = some repl)
    (hwatch : watch.syntaxTree = true ∨ watch.annotatedTree = true)
    (hdigits : ∀ c ∈ numeral.toList, c.isDigit = true)
    (hlong : Numeral.digitLimit < numeral.toList.length) (host : Host ν) :
    s.ChokesOn host watch numeral := by
  have hne : numeral.toList ≠ [] := List.ne_nil_of_length_pos (Nat.zero_lt_of_lt hlong)
  obtain ⟨token, hparse, rfl⟩ := parseProgram_numeral hne hdigits s.settings.sourceName
  have hunreadable : ¬ (Tree.literal token .integer).IsReadable := by
    rw [Tree.isReadable_iff]
    exact fun h => h.1 token .integer rfl ⟨rfl, hlong⟩
  exact ⟨_, _, _, hparse, on_opening_nil hrepl host watch _,
    .here ⟨⟨_, _, rfl⟩, hwatch, hunreadable⟩⟩

/-- The cursor stands on the given scope of a sound forest, and the stored values are modest. -/
structure Calm (id : ScopeId) (s : Session Behaviour) : Prop where
  forest : s.scoping.forest.Sound
  cursor : s.scoping.cursor = id
  values : ∀ value ∈ s.values.values, value.payload.IsModest

variable {forest : Forest} {id : ScopeId} {s t : Session Behaviour} {watch : Watch} {tree : Tree}

theorem Modest.calm (hs : s.Modest forest id) (hforest : forest.Sound) : s.Calm id :=
  ⟨hs.forest ▸ hforest, hs.cursor, hs.values⟩

theorem Modest.shown (hs : s.Modest forest id) (h : s.Shown t) : t.Modest forest id := by
  obtain ⟨labels, journal, rfl⟩ := h
  exact ⟨hs.forest, hs.cursor, hs.values⟩

/-! ## Statements -/

theorem Calm.scoping (hs : s.Calm Forest.replId) : s.scoping.Sound := by
  obtain ⟨repl, hrepl, -⟩ := hs.forest.repl
  exact ⟨hs.forest, ⟨repl, hs.cursor ▸ hrepl⟩, by rw [hs.cursor]; decide⟩

theorem Calm.rescoped (hs : s.Calm id) {scoping : Scoping} (h : s.scoping.Grows scoping) :
    (s.rescoped scoping).Calm id :=
  ⟨h.sound, h.cursor.trans hs.cursor, hs.values⟩

private theorem runStatement_calm (hs : s.Calm Forest.replId) (watch : Watch)
    (htree : tree.IsStatement) (hclause : tree.IsClause) :
    (runStatement Behaviour.standardHost watch tree).Ensures s
      (fun value t => (value.payload.IsModest ∧ t.Calm Forest.replId) ∧ ¬ s.Balks watch tree)
      (fun failure t => t.Calm Forest.replId ∧ (failure.IsFault ↔ ¬ s.Balks watch tree)) := by
  have hscoping := hs.scoping
  have hanalyse := (Act.ensures_on (Analysis.analyse tree) s.scoping).and
    ((Analysis.statementSound htree s.scoping hscoping).and
      ((Analysis.stays_analyse tree s.scoping hscoping.placed).and
        (Analysis.clause_elaborating hclause s.scoping hscoping.placed)))
  refine (onScopes_ensures hanalyse).bind ?_ ?_
  · rintro failure _ ⟨scoping, rfl, hon, ⟨hgrows, -, diagnostic, hfailure, -⟩, -⟩
    refine ⟨hs.rescoped hgrows, iff_of_true ⟨diagnostic, hfailure⟩ ?_⟩
    rintro ⟨⟨analysed, t, hok⟩, -⟩
    rw [hok] at hon
    cases hon
  rintro analysed _ ⟨scoping, rfl, hon, ⟨hgrows, -⟩, ⟨-, hnested⟩, helaborates⟩
  have hbalks : s.Balks watch tree ↔ watch.ChokesOn tree := and_iff_right ⟨analysed, scoping, hon⟩
  have hrescoped : (s.rescoped scoping).Modest scoping.forest Forest.replId :=
    ⟨rfl, hgrows.cursor.trans hs.cursor, hs.values⟩
  rw [hs.cursor] at hnested
  refine (observe_shown watch htree helaborates _).bind ?_ ?_
  · rintro failure t ⟨ht, hfailure, hchokes⟩
    exact ⟨(hrescoped.shown ht).calm hgrows.sound,
      iff_of_false hfailure (not_not_intro (hbalks.2 hchokes))⟩
  rintro _ t ⟨ht, hchokes⟩
  have hfine : ¬ s.Balks watch tree := fun h => hchokes (hbalks.1 h)
  have hexecute := (carries_modest scoping.forest).execute hnested (fun _ _ => trivial) t
    (hrescoped.shown ht)
  refine hexecute.mono ?_ ?_
  · rintro value u ⟨hvalue, hu⟩
    exact ⟨⟨hvalue, hu.calm hgrows.sound⟩, hfine⟩
  · rintro failure u ⟨hfailure, hu⟩
    exact ⟨hu.calm hgrows.sound, iff_of_true hfailure hfine⟩

/-- Running statements fails for a fault, unless the session chokes on them. -/
theorem runStatements_calm {trees : List Tree} (htrees : ∀ tree ∈ trees, tree.IsStatement)
    (hclauses : ∀ tree ∈ trees, tree.IsClause) {last : Value Behaviour}
    (hlast : last.payload.IsModest) (watch : Watch) (hs : s.Calm Forest.replId) :
    (runStatements Behaviour.standardHost watch last trees).Ensures s
      (fun value t => (value.payload.IsModest ∧ t.Calm Forest.replId) ∧
        ¬ s.Chokes Behaviour.standardHost watch trees)
      (fun failure t => t.Calm Forest.replId ∧
        (failure.IsFault ↔ ¬ s.Chokes Behaviour.standardHost watch trees)) := by
  induction trees generalizing s last with
  | nil =>
      rw [runStatements]
      refine Act.ensures_pure ⟨⟨hlast, hs⟩, ?_⟩
      rintro ⟨⟩
  | cons tree trees ih =>
      rw [List.forall_mem_cons] at htrees hclauses
      have hstatement := (Act.ensures_on (runStatement Behaviour.standardHost watch tree) s).and
        (runStatement_calm hs watch htrees.1 hclauses.1)
      rw [runStatements_cons]
      refine hstatement.bind ?_ ?_
      · rintro failure t ⟨hon, ht, hfault⟩
        -- The first statement failed, so the session chokes on it or not at all.
        have hchokes : s.Chokes Behaviour.standardHost watch (tree :: trees) ↔
            s.Balks watch tree := by
          refine ⟨?_, .here⟩
          rintro (hbalks | ⟨hok, -⟩)
          · exact hbalks
          · rw [hok] at hon
            cases hon
        exact ⟨ht, by rw [hchokes]; exact hfault⟩
      · rintro value t ⟨hon, ⟨hvalue, ht⟩, hfine⟩
        have hchokes : s.Chokes Behaviour.standardHost watch (tree :: trees) ↔
            t.Chokes Behaviour.standardHost watch trees := by
          refine ⟨?_, .later hon⟩
          rintro (hbalks | ⟨hok, hlater⟩)
          · exact absurd hbalks hfine
          · rw [hok] at hon
            cases hon
            exact hlater
        rw [hchokes]
        exact ih htrees.2 hclauses.2 hvalue ht

/-! ## Sources -/

theorem Calm.leaving (hs : s.Calm Forest.replId) :
    ∃ t, (onScopes Scoping.leave).on s = (.ok (), t) ∧ t.Calm Forest.globalId := by
  obtain ⟨repl, hrepl, hparent⟩ := hs.forest.repl
  have hcurrent : s.scoping.forest.get? s.scoping.cursor = some repl := hs.cursor ▸ hrepl
  exact ⟨_, on_leaving hcurrent hparent, hs.forest, rfl, hs.values⟩

theorem Calm.concluded (hs : s.Calm id) (count : Nat) (value : Value Behaviour) :
    ∃ t, (conclude count value).on s = (.ok value, t) ∧ t.Calm id := by
  rw [on_conclude]
  rcases on_collectIfDue (s.counted count) with hon | hon
  · exact ⟨_, Act.on_bind_of_ok hon _, hs.forest, hs.cursor, hs.values⟩
  · exact ⟨_, Act.on_bind_of_ok hon _, hs.forest, hs.cursor,
      fun value hvalue => hs.values value (ValueTable.mem_collect hvalue)⟩

/-- Evaluating a source yields a modest value or fails for a fault, unless the session chokes on
the source. -/
theorem evaluate_calm (hs : s.Calm Forest.globalId) (watch : Watch) (source : String) :
    (evaluate Behaviour.standardHost watch source).Ensures s
      (fun value t => (value.payload.IsModest ∧ t.Calm Forest.globalId) ∧
        ¬ s.ChokesOn Behaviour.standardHost watch source)
      (fun failure t => t.Calm Forest.globalId ∧
        (failure.IsFault ↔ ¬ s.ChokesOn Behaviour.standardHost watch source)) := by
  cases hparse : parseProgram source s.settings.sourceName with
  | error diagnostic =>
      refine .of_on_error (on_evaluate_refused hparse) ⟨hs, iff_of_true ⟨_, rfl⟩ ?_⟩
      rintro ⟨trees, value, t, hread, -⟩
      rw [hparse] at hread
      cases hread
  | ok trees =>
      obtain ⟨repl, hrepl, -⟩ := hs.forest.repl
      have hbegun : (s.begun trees.length repl).Calm Forest.replId :=
        ⟨hs.forest, Forest.id_of_get? hrepl, hs.values⟩
      have hchokes : s.ChokesOn Behaviour.standardHost watch source ↔
          (s.begun trees.length repl).Chokes Behaviour.standardHost watch trees := by
        have hopening := on_opening_nil hrepl Behaviour.standardHost watch trees.length
        refine ⟨?_, fun h => ⟨trees, _, _, hparse, hopening, h⟩⟩
        rintro ⟨others, value, t, hread, hon, ht⟩
        rw [hparse] at hread
        cases hread
        rw [hopening] at hon
        cases hon
        exact ht
      have hnothing : (Value.nothing : Value Behaviour).payload.IsModest := trivial
      have hrun := runStatements_calm (parseProgram_isStatement hparse)
        (fun tree htree => (Tree.IsParsed.inProgram hparse htree).isClause) hnothing watch hbegun
      have hclosed : (Act.closing (onScopes Scoping.leave)
          (runStatements Behaviour.standardHost watch .nothing trees)).Ensures
          (s.begun trees.length repl)
          (fun value u => (value.payload.IsModest ∧ u.Calm Forest.globalId) ∧
            ¬ s.ChokesOn Behaviour.standardHost watch source)
          (fun failure u => u.Calm Forest.globalId ∧
            (failure.IsFault ↔ ¬ s.ChokesOn Behaviour.standardHost watch source)) := by
        rw [hchokes]
        apply hrun.closing
        · rintro value t ⟨⟨hvalue, ht⟩, hfine⟩
          obtain ⟨u, hon, hu⟩ := ht.leaving
          exact .of_on_ok hon ⟨⟨hvalue, hu⟩, hfine⟩
        · rintro failure t ⟨ht, hfault⟩
          obtain ⟨u, hon, hu⟩ := ht.leaving
          exact .of_on_ok hon ⟨hu, hfault⟩
      unfold Act.Ensures
      rw [on_evaluate hparse hrepl]
      refine hclosed.bind (fun _ _ h => h) ?_
      rintro value u ⟨⟨hvalue, hu⟩, hfine⟩
      obtain ⟨w, hon, hw⟩ := hu.concluded trees.length value
      exact .of_on_ok hon ⟨⟨hvalue, hw⟩, hfine⟩

end Session

end Scriptlet
