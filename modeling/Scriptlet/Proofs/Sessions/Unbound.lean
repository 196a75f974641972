import Scriptlet.Proofs.Sessions.Readability
import Scriptlet.Proofs.Sessions.TypeSoundness
import Scriptlet.Proofs.Syntax.Faults
/-!
# Variables without a value

A session whose native functions never fail and return what they declare comes to
read a variable without a value only through a conditional: the first such
variable is one that the body of a conditional declares.  A declaration that was
not run is in view afterwards, so that every later use of the name is resolved to
it, and what is declared by such a use has no value either.
-/

namespace Scriptlet.Session

variable {ν : Type} {host : Host ν} {own book : Value ν → Prop} {s t : Session ν}
  {declared : ν → Option Primitive.Kind} {excused : String → Prop}

/-- The states of a session before its first evaluation, with the values that the
embedding program holds: native functions were registered, in any order and with
any outcome. -/
inductive Ready : (Value ν → Prop) → Session ν → Prop where
  | initial (settings : Settings) : Ready (fun _ => False) (.initial settings)
  | make {own : Value ν → Prop} {s t : Session ν} {payload : Payload ν} {value : Value ν} :
      Ready own s → (fresh payload).on s = (.ok value, t) → Ready (entered own value) t
  | keep {own : Value ν → Prop} {s : Session ν} {value : Value ν} :
      Ready own s → s.Knows value → Ready (entered own value) s
  | register {own : Value ν → Prop} {s t : Session ν} {name : String} {arguments : List String}
      {result : Option String} {handle : ν} {outcome : Except Failure Symbol} :
      Ready own s → ReadsAsName name →
      (register name arguments result handle).on s = (outcome, t) → Ready own t

theorem Ready.reachable (h : Ready own s) : Reachable own s := by
  induction h with
  | initial settings => exact .initial settings
  | make _ hfresh ih => exact .make ih hfresh
  | keep _ hknows ih => exact .keep ih hknows
  | register _ hname hregister ih => exact .register ih hname hregister

/-- Before the first evaluation everything in view has a value. -/
theorem Ready.covers (h : Ready own s) : s.Covers excused s.topView := by
  induction h with
  | initial settings =>
      intro frame hframe symbol hsymbol type htype
      have htypes : ∀ frame ∈ (Forest.chainIn Forest.initial.scopes Forest.replId).map
          Scope.symbols, ∀ symbol ∈ frame, symbol.variant.type? = none := by
        decide
      rw [htypes frame hframe symbol hsymbol] at htype
      simp at htype
  | @make own s t payload value _ hfresh ih =>
      rw [on_fresh, Prod.mk.injEq, Except.ok.injEq] at hfresh
      obtain ⟨rfl, rfl⟩ := hfresh
      exact ih
  | keep _ _ ih => exact ih
  | @register own s t name arguments result handle outcome hready hname hregister ih =>
      obtain ⟨book, hinv⟩ := hready.reachable.exists_inv
      have hensures := register_ensures hinv.sound hinv.cursor hname arguments result handle
      unfold Act.Ensures at hensures
      rw [hregister] at hensures
      cases outcome with
      | ok symbol => exact hensures.2.covers excused ih
      | error failure => exact hensures.2.covers excused ih

/-! ## Statements of a source -/

/-- Native functions are registered as they declare, and what is in view at the
top level is covered. -/
structure Orderly (declared : ν → Option Primitive.Kind) (excused : String → Prop)
    (s : Session ν) : Prop where
  serves : s.Serves declared
  covers : s.Covers excused s.topView

theorem Orderly.follows {book' : Value ν → Prop} (h : s.Orderly declared excused)
    (hfollows : Follows book book' s t) : t.Orderly declared excused :=
  ⟨h.serves.follows hfollows, (hfollows.later.keepsTop hfollows.forest).covers excused h.covers⟩

theorem view_eq_topView (h : s.scoping.cursor = Forest.replId) : s.scoping.view = s.topView := by
  rw [Scoping.view, h]
  rfl

theorem topView_of_kept (hs : s.scoping.Sound) (hcursor : s.scoping.cursor = Forest.replId)
    {scoping : Scoping} (hgrows : s.scoping.Grows scoping) (hkept : s.scoping.Kept scoping) :
    (s.rescoped scoping).topView = s.topView := by
  obtain ⟨scope, hscope⟩ := hs.cursor
  rw [← view_eq_topView hcursor, ← Scoping.view_of_kept hs.forest.numbered hgrows.sound.numbered
    hscope hkept hgrows.cursor]
  exact (view_eq_topView (hgrows.cursor.trans hcursor)).symm

/-- Executing a statement leaves the view from the top level to the analysis. -/
theorem topView_of_follows {scoping : Scoping} (hcursor : scoping.cursor = Forest.replId)
    {book' : Value ν → Prop} (h : Follows book book' (s.rescoped scoping) t) :
    t.topView = scoping.view := by
  rw [topView, h.forest, Scoping.view, hcursor]
  rfl

/-- A statement of a source touches no symbol of the global scope. -/
theorem Serves.rescoped (h : s.Serves declared) (hs : s.scoping.Sound) {scoping : Scoping}
    (hlocal : s.scoping.Local scoping) : (s.rescoped scoping).Serves declared := by
  have hglobal : scoping.forest.global = s.scoping.forest.global := by
    rw [Forest.global, hlocal _ _ hs.inner.symm hs.forest.lawful.global_eq]
    rfl
  rintro name handle result type ⟨symbol, hmem, hrest⟩
  have hmem : symbol ∈ scoping.forest.global.symbols := hmem
  rw [hglobal] at hmem
  exact h name handle result type ⟨symbol, hmem, hrest⟩

/-- Failures other than reading a variable without a value. -/
def IsHarmless (failure : Failure) : Prop :=
  (∃ d, failure = .fault d ∧ d.IsReading) ∨ failure.IsSemantic ∨ IsNumeral failure

private theorem not_isHarmless_unbound (name : String) (span : Span) :
    ¬ IsHarmless (.located (.unboundValue name) span) := by
  rintro (⟨d, hd, h⟩ | ⟨d, hd, h⟩ | ⟨error, h⟩)
  · rw [← Failure.fault.inj hd] at h
    rcases h with h | h <;> exact absurd h (by simp [Diagnostic.of, Fault.kind, Fault.Kind.parent?])
  · rw [← Failure.fault.inj hd] at h
    rcases h with h | h | h <;>
      exact absurd h (by simp [Diagnostic.of, Fault.kind, Fault.Kind.parent?])
  · simp [Failure.located] at h

private theorem runStatement_covered (hhonest : host.Honest own)
    (hobliging : host.Obliging declared) {tree : Tree} (htree : tree.IsStatement)
    (hreadable : tree.IsReadable) (hexcused : ∀ name, tree.Guards name → excused name)
    (hs : s.Sound book) (hown : ∀ v, own v → book v) (hcursor : s.scoping.cursor = Forest.replId)
    (horderly : s.Orderly declared excused) :
    (runStatement host .nothing tree).Ensures s (fun _ t => t.Orderly declared excused)
      (fun failure t => Excuses excused failure ∨
        IsHarmless failure ∧ t.Orderly declared excused) := by
  have hscoping := scoping_sound hs hcursor
  have hview := view_eq_topView hcursor
  have hanalyse := onScopes_ensures (Analysis.statementSound htree s.scoping hscoping)
  refine hanalyse.bind ?_ ?_
  · rintro failure _ ⟨scoping, rfl, hgrows, hkept, hfailure⟩
    refine .inr ⟨.inr (.inl hfailure), horderly.serves.rescoped hscoping hkept.local, ?_⟩
    rw [topView_of_kept hscoping hcursor hgrows hkept]
    exact horderly.covers
  rintro analysed _ ⟨scoping, rfl, hgrows, hlocal, htyped, hscopes⟩
  have hgrown := hs.proceeds_rescoped hgrows
  have htended : Tended own declared excused scoping.forest scoping.cursor s.topView book
      (s.rescoped scoping) :=
    ⟨⟨hgrown.sound, hown, (hgrows.soundScoping hscoping).cursor, rfl, rfl⟩,
      horderly.serves.rescoped hscoping hlocal, horderly.covers⟩
  rw [hview] at hscopes
  have hrun := statementCovered hhonest hobliging htyped s.topView scoping.view tree hscopes
    hreadable hexcused (s.rescoped scoping) book htended
  have hsound := executionSound hhonest htyped (s.rescoped scoping) book htended.toStands
  have hrepl := hgrows.cursor.trans hcursor
  refine (hsound.and hrun).mono ?_ ?_
  · rintro value t ⟨⟨book', hfollows, -⟩, hcovers⟩
    refine ⟨htended.serves.follows hfollows, ?_⟩
    rw [topView_of_follows hrepl hfollows]
    exact hcovers
  · rintro failure t ⟨⟨⟨book', hfollows⟩, -⟩, hfailure⟩
    refine hfailure.imp_right ?_
    rintro ⟨hnumeral, hcovers⟩
    refine ⟨.inr (.inr hnumeral), htended.serves.follows hfollows, ?_⟩
    rw [topView_of_follows hrepl hfollows]
    exact hcovers

private theorem runStatements_covered (hhonest : host.Honest own)
    (hobliging : host.Obliging declared) {trees : List Tree}
    (htrees : ∀ tree ∈ trees, tree.IsStatement) (hreadable : ∀ tree ∈ trees, tree.IsReadable)
    (hexcused : ∀ tree ∈ trees, ∀ name, tree.Guards name → excused name) (hs : s.Sound book)
    (hown : ∀ v, own v → book v) (hcursor : s.scoping.cursor = Forest.replId)
    (horderly : s.Orderly declared excused) (last : Value ν) :
    (runStatements host .nothing last trees).Ensures s (fun _ t => t.Orderly declared excused)
      (fun failure t => Excuses excused failure ∨
        IsHarmless failure ∧ t.Orderly declared excused) := by
  induction trees generalizing s book last with
  | nil =>
      rw [runStatements]
      exact Act.ensures_pure horderly
  | cons tree trees ih =>
      rw [List.forall_mem_cons] at htrees hreadable hexcused
      rw [runStatements_cons]
      have hsound := runStatement_ensures hhonest .nothing htrees.1 hs hown hcursor
      have hcovered := runStatement_covered hhonest hobliging htrees.1 hreadable.1 hexcused.1 hs
        hown hcursor horderly
      refine (hsound.and hcovered).bind (fun _ _ h => h.2) ?_
      rintro value t ⟨⟨book', hproceeds, -⟩, horderly'⟩
      exact ih htrees.2 hreadable.2 hexcused.2 hproceeds.sound
        (fun v hv => hproceeds.book v (hown v hv)) (hproceeds.cursor.trans hcursor) horderly' value

/-! ## Whole sources -/

private theorem evaluate_covered (hhonest : host.Honest own) (hobliging : host.Obliging declared)
    (hinv : s.Inv own book) (horderly : s.Orderly declared excused) {source : String}
    (hreadable : ∀ trees, parseProgram source s.settings.sourceName = .ok trees →
      ∀ tree ∈ trees, tree.IsReadable)
    (hexcused : ∀ trees, parseProgram source s.settings.sourceName = .ok trees →
      ∀ tree ∈ trees, ∀ name, tree.Guards name → excused name) :
    (evaluate host .nothing source).Ensures s (fun _ t => t.Orderly declared excused)
      (fun failure t => Excuses excused failure ∨
        IsHarmless failure ∧ t.Orderly declared excused) := by
  cases hparse : parseProgram source s.settings.sourceName with
  | error d =>
      refine .of_on_error (on_evaluate_refused hparse) (.inr ⟨.inl ⟨d, rfl, ?_⟩, horderly⟩)
      exact parseProgram_isReading hparse
  | ok trees =>
      obtain ⟨repl, hrepl, -⟩ := hinv.sound.forest.repl
      have hbegun : (s.begun trees.length repl).Sound book :=
        (hinv.sound.noted (Nat.le_refl _) (by simp)).entering repl
      have htrees := parseProgram_isStatement hparse
      have hcovered := runStatements_covered hhonest hobliging htrees (hreadable trees hparse)
        (hexcused trees hparse) hbegun hinv.own (Forest.id_of_get? hrepl)
        ⟨horderly.serves, horderly.covers⟩ .nothing
      apply evaluate_of_runStatements hhonest hinv.sound hinv.own hinv.cursor hparse hrepl hcovered
      · exact fun value t scope ht => ⟨ht.serves, ht.covers⟩
      · exact fun failure t scope hfailure =>
          hfailure.imp_right fun ht => ⟨ht.1, ht.2.serves, ht.2.covers⟩
      · exact fun value t u book' hfollows _ ht => ht.follows hfollows

/-! ## A declaration that is not run -/

private theorem analyse_declare {scoping : Scoping} (hs : scoping.Sound) {scope : Scope}
    (hscope : scoping.forest.get? scoping.cursor = some scope) {name : Token}
    {initializer : Tree} (hinitializer : initializer.IsExpression) :
    (Analysis.analyse (.declare name initializer)).Ensures scoping
      (fun analysed t => ∃ node type, scope.find? name.text = none ∧
        analysed.node = .declare (scoping.forest.newSymbol name.text (.var type)).id node name ∧
        t = scoping.inserted scope name.text (.var type) (Symbol.Variant.var type).sort)
      (fun _ _ => True) := by
  rw [Analysis.analyse]
  refine (Analysis.expressionSound hinitializer scoping hs).bind (fun _ _ _ => trivial) ?_
  rintro value _ ⟨rfl, -⟩
  refine (Analysis.requireValue_ensures value _ hinitializer).bind (fun _ _ _ => trivial) ?_
  rintro type scoping ⟨rfl, -⟩
  unfold Act.Ensures
  cases hfind : scope.find? name.text with
  | some existing =>
      obtain ⟨diagnostic, hon, -⟩ := Scoping.on_declare_taken hscope hfind (.var type) name.span
      rw [Act.on_bind_of_error hon]
      trivial
  | none =>
      rw [Act.on_bind_of_ok (Scoping.on_declare hscope hfind _ _)]
      exact ⟨value.node, type, rfl, rfl, rfl⟩

private theorem analyse_guarded {scoping : Scoping} (hs : scoping.Sound) {scope : Scope}
    (hscope : scoping.forest.get? scoping.cursor = some scope) {falsehood keyword name : Token}
    {initializer : Tree} (hinitializer : initializer.IsExpression) :
    (Analysis.analyse (.conditional (.literal falsehood .truth) (.declare name initializer)
        keyword)).Ensures scoping
      (fun analysed t => ∃ node type, scope.find? name.text = none ∧
        analysed.node = .conditional (.literal falsehood .truth)
          (.declare (scoping.forest.newSymbol name.text (.var type)).id node name) keyword ∧
        t = scoping.inserted scope name.text (.var type) (Symbol.Variant.var type).sort)
      (fun _ _ => True) := by
  have hcondition : (Analysis.analyse (.literal falsehood .truth)).on scoping =
      (.ok ⟨.literal falsehood .truth, some Primitive.Kind.truth.typeId⟩, scoping) := by
    rw [Analysis.analyse]
    rfl
  unfold Act.Ensures
  rw [Analysis.analyse, Act.on_bind_of_ok hcondition]
  simp only [Analysis.requireValue]
  rw [Act.on_bind_of_ok (Act.on_pure _ _), if_pos rfl]
  refine (analyse_declare hs hscope hinitializer).bind (fun _ _ h => h) ?_
  rintro branch _ ⟨node, type, hfree, hnode, rfl⟩
  exact Act.ensures_pure ⟨node, type, hfree, by rw [hnode], rfl⟩

private theorem execute_guarded {falsehood keyword : Token} (h : falsehood.text = "false")
    (body : Annotated) (s : Session ν) :
    (execute host (.conditional (.literal falsehood .truth) body keyword)).on s =
      (.ok .nothing, s.noted [] (s.nextValue + 1)) := by
  have hvalue : literalValue falsehood .truth = .ok (.truth false) := by
    simp [literalValue, h]
  have htest : (execute host (.literal falsehood .truth)).on s =
      (.ok ⟨⟨s.nextValue⟩, .primitive (.truth false)⟩, s.noted [] (s.nextValue + 1)) := by
    rw [execute, hvalue]
    rfl
  rw [execute, Act.on_bind_of_ok htest, if_neg (by simp [isTrue])]
  rfl

/-- A source that only declares a variable under a condition that does not hold
leaves the variable in view and without a value. -/
theorem evaluate_guarded (hhonest : host.Honest own) (hinv : s.Inv own book) {source : String}
    {falsehood keyword name : Token} {initializer : Tree} (hfalse : falsehood.text = "false")
    (hparse : parseProgram source s.settings.sourceName =
      .ok [.conditional (.literal falsehood .truth) (.declare name initializer) keyword]) :
    (evaluate host .nothing source).Ensures s
      (fun _ t => ∃ symbol type, t.topView.resolve name.text = some symbol ∧
        symbol.name = name.text ∧ symbol.variant.type? = some type ∧
        t.valueOf? symbol.id = none)
      (fun _ _ => True) := by
  obtain ⟨repl, hrepl, -⟩ := hinv.sound.forest.repl
  have hid := Forest.id_of_get? hrepl
  have htrees := parseProgram_isStatement hparse
  have hinitializer : initializer.IsExpression := by
    have htree := htrees _ (List.mem_singleton_self _)
    cases htree with
    | expression h => cases h
    | conditional _ hbody =>
        cases hbody with
        | expression h => cases h
        | declare h => exact h
  have hbegun : (s.begun 1 repl).Sound book :=
    (hinv.sound.noted (Nat.le_refl _) (by simp)).entering repl
  have hscoping := scoping_sound hbegun hid
  have hcurrent : (s.begun 1 repl).scoping.forest.get? (s.begun 1 repl).scoping.cursor =
      some repl := by
    rw [← hid] at hrepl
    exact hrepl
  have hrun : (runStatements host .nothing .nothing
      [.conditional (.literal falsehood .truth) (.declare name initializer) keyword]).Ensures
      (s.begun 1 repl)
      (fun _ t => ∃ type, repl.find? name.text = none ∧
        t = ((s.begun 1 repl).rescoped ((s.begun 1 repl).scoping.inserted repl name.text
          (.var type) (Symbol.Variant.var type).sort)).noted [] (s.nextValue + 1))
      (fun _ _ => True) := by
    rw [runStatements]
    refine (onScopes_ensures (analyse_guarded hscoping hcurrent hinitializer)).bind
      (fun _ _ _ => trivial) ?_
    rintro analysed _ ⟨scoping, rfl, node, type, hfree, hnode, rfl⟩
    rw [hnode]
    unfold Act.Ensures
    rw [Act.on_bind_of_ok (show (observe .nothing _ _).on _ = (.ok (), _) from rfl),
      Act.on_bind_of_ok (execute_guarded hfalse _ _)]
    exact ⟨type, hfree, rfl⟩
  apply evaluate_of_runStatements hhonest hinv.sound hinv.own hinv.cursor hparse hrepl
  · refine hrun.mono ?_ (fun _ _ h => h)
    rintro value t ⟨type, hfree, rfl⟩
    refine ⟨s.scoping.forest.newSymbol name.text (.var type), type, ?_, rfl, rfl, ?_⟩
    · obtain ⟨env, -, hafter⟩ := Scoping.view_inserted hbegun.forest.numbered hcurrent name.text
        (.var type) (Symbol.Variant.var type).sort
      have hcursor : ((s.begun 1 repl).scoping.inserted repl name.text (.var type)
          (Symbol.Variant.var type).sort).cursor = Forest.replId := hid
      have hnew : (s.begun 1 repl).scoping.forest.newSymbol name.text (.var type) =
          s.scoping.forest.newSymbol name.text (.var type) := rfl
      rw [Scoping.view, hcursor, hnew] at hafter
      have hfree : repl.symbols.find? (fun symbol => symbol.name = name.text) = none := hfree
      refine (congrArg (fun env => Env.resolve env name.text) hafter).trans ?_
      rw [Env.resolve, List.findSome?_cons, List.find?_append, hfree]
      simp [Forest.newSymbol]
    · have hnone := hinv.sound.boundTo?_newSymbol name.text (.var type)
      have hunbound : s.valueOf? (s.scoping.forest.newSymbol name.text (.var type)).id = none := by
        rw [valueOf?, hnone]
        rfl
      exact hunbound
  · exact fun _ _ _ h => h
  · exact fun _ _ _ h => h
  · rintro value t u book' hfollows hresembles ⟨symbol, type, hresolve, hname, htype, hnone⟩
    refine ⟨symbol, type, ?_, hname, htype, (hresembles.values symbol.id).trans hnone⟩
    rw [topView, hfollows.forest]
    exact hresolve

private theorem evaluate_unbound (hinv : s.Inv own book) {source : String} {name : Token}
    (hparse : parseProgram source s.settings.sourceName = .ok [.reference name])
    {symbol : Symbol} {type : SymbolId} (hresolve : s.topView.resolve name.text = some symbol)
    (htype : symbol.variant.type? = some type) (hnone : s.valueOf? symbol.id = none) :
    ∃ t, (evaluate host .nothing source).on s =
      (.error (.located (.unboundValue symbol.name) name.span), t) := by
  obtain ⟨repl, hrepl, hparent⟩ := hinv.sound.forest.repl
  have hid := Forest.id_of_get? hrepl
  have hcurrent : (s.begun 1 repl).scoping.forest.get? (s.begun 1 repl).scoping.cursor =
      some repl := by
    rw [← hid] at hrepl
    exact hrepl
  have hview : (s.begun 1 repl).scoping.view = s.topView := view_eq_topView hid
  have hlookup := Scoping.lookup_eq_resolve hcurrent name.text
  rw [hview, hresolve] at hlookup
  have hvisible := (Forest.visible_of_lookup hcurrent hlookup).1
  have hanalyse : (Analysis.analyse (.reference name)).on (s.begun 1 repl).scoping =
      (.ok ⟨.reference symbol.id name, some type⟩, (s.begun 1 repl).scoping) := by
    rw [Analysis.analyse, Analysis.reference,
      Act.on_bind_of_ok (by rw [Scoping.on_resolve, hlookup])]
    dsimp only
    rw [htype]
    rfl
  have hread : (execute host (.reference symbol.id name)).on
      ((s.begun 1 repl).rescoped (s.begun 1 repl).scoping) =
      (.error (.located (.unboundValue symbol.name) name.span),
        ((s.begun 1 repl).rescoped (s.begun 1 repl).scoping).rescoped
          (s.begun 1 repl).scoping) := by
    rw [execute, on_readVariable (s := (s.begun 1 repl).rescoped (s.begun 1 repl).scoping)
      hinv.sound.forest hcurrent hvisible]
    have hnone : ((s.begun 1 repl).rescoped (s.begun 1 repl).scoping).valueOf? symbol.id = none :=
      hnone
    rw [hnone]
    rfl
  have hrun : (runStatements host .nothing .nothing [.reference name]).on (s.begun 1 repl) =
      (.error (.located (.unboundValue symbol.name) name.span),
        ((s.begun 1 repl).rescoped (s.begun 1 repl).scoping).rescoped
          (s.begun 1 repl).scoping) := by
    rw [runStatements, Act.on_bind_of_ok (on_onScopes hanalyse),
      Act.on_bind_of_ok (show (observe .nothing _ _).on _ = (.ok (), _) from rfl),
      Act.on_bind_of_error hread]
  have hleave : (onScopes Scoping.leave).on
      (((s.begun 1 repl).rescoped (s.begun 1 repl).scoping).rescoped (s.begun 1 repl).scoping) =
      (.ok (), _) := on_leaving hcurrent hparent
  rw [on_evaluate hparse hrepl]
  exact ⟨_, Act.on_bind_of_error (Act.on_closing hrun hleave) _⟩

/-! ## Runs of sources -/

/-- The literals of a source are short enough to be read. -/
def ReadableSource (source : String) : Prop :=
  ∀ file trees, parseProgram source file = .ok trees → ∀ tree ∈ trees, tree.IsReadable

/-- The source declares the name in the body of a conditional. -/
def GuardsIn (source name : String) : Prop :=
  ∃ file trees, parseProgram source file = .ok trees ∧ ∃ tree ∈ trees, tree.Guards name

/-- The failure of reading a variable without a value. -/
def Missing (outcome : Except Failure (Value ν)) (name : String) : Prop :=
  ∃ span, outcome = .error (.located (.unboundValue name) span)

/-- The sources, the latest first, were evaluated one after the other, whatever
the outcomes, but no variable without a value was read so far. -/
inductive Evaluates (host : Host ν) (s : Session ν) : List String → Session ν → Prop where
  | none : Evaluates host s [] s
  | next {sources : List String} {source : String} {t u : Session ν}
      {outcome : Except Failure (Value ν)} : Evaluates host s sources t →
      (evaluate host .nothing source).on t = (outcome, u) → (∀ name, ¬ Missing outcome name) →
      Evaluates host s (source :: sources) u

structure Undisturbed (own : Value ν → Prop) (declared : ν → Option Primitive.Kind)
    (excused : String → Prop) (s : Session ν) : Prop where
  inv : ∃ book, s.Inv own book
  orderly : s.Orderly declared excused

/-- One more source: it reads no variable without a value, other than one of an
excused name, and the next source finds the session undisturbed. -/
theorem Undisturbed.evaluate (hhonest : host.Honest own) (hobliging : host.Obliging declared)
    (h : s.Undisturbed own declared excused) {source : String} (hreadable : ReadableSource source)
    (hexcused : ∀ name, GuardsIn source name → excused name)
    {outcome : Except Failure (Value ν)}
    (hevaluate : (evaluate host .nothing source).on s = (outcome, t)) :
    (∀ name, Missing outcome name → excused name) ∧
      ((∀ name, ¬ Missing outcome name) → t.Undisturbed own declared excused) := by
  obtain ⟨book, hinv⟩ := h.inv
  have hsound := evaluate_ensures hhonest hinv.sound hinv.own hinv.cursor .nothing source
  have hcovered := evaluate_covered hhonest hobliging hinv h.orderly (hreadable _)
    fun trees hparse tree htree name hname =>
      hexcused name ⟨_, trees, hparse, tree, htree, hname⟩
  unfold Act.Ensures at hsound hcovered
  rw [hevaluate] at hsound hcovered
  cases outcome with
  | ok value =>
      obtain ⟨book', hproceeds, -⟩ := hsound
      refine ⟨?_, fun _ => ⟨⟨book', hinv.proceeds hproceeds⟩, hcovered⟩⟩
      rintro name ⟨span, hname⟩
      simp at hname
  | error failure =>
      obtain ⟨⟨book', hproceeds⟩, -⟩ := hsound
      rcases hcovered with ⟨name, span, rfl, hname⟩ | ⟨hharmless, horderly⟩
      · refine ⟨?_, fun hnone => absurd ⟨span, rfl⟩ (hnone name)⟩
        rintro other ⟨span', hother⟩
        have hfault := congrArg Diagnostic.fault (Failure.fault.inj (Except.error.inj hother))
        rw [← Fault.unboundValue.inj hfault]
        exact hname
      · refine ⟨?_, fun _ => ⟨⟨book', hinv.proceeds hproceeds⟩, horderly⟩⟩
        rintro name ⟨span, hname⟩
        rw [Except.error.inj hname] at hharmless
        exact absurd hharmless (not_isHarmless_unbound name span)

theorem Evaluates.undisturbed (hhonest : host.Honest own) (hobliging : host.Obliging declared)
    (hready : Ready own s) (hserves : s.Serves declared) {sources : List String}
    (hrun : Evaluates host s sources t) (hreadable : ∀ source ∈ sources, ReadableSource source)
    (hexcused : ∀ source ∈ sources, ∀ name, GuardsIn source name → excused name) :
    t.Undisturbed own declared excused := by
  induction hrun with
  | none => exact ⟨hready.reachable.exists_inv, hserves, hready.covers⟩
  | next _ hevaluate hnone ih =>
      rw [List.forall_mem_cons] at hreadable hexcused
      have hbefore := ih hreadable.2 hexcused.2
      exact (hbefore.evaluate hhonest hobliging hreadable.1 hexcused.1 hevaluate).2 hnone

/-- The first variable without a value that a session reads has a name that the body of a
conditional declares, so that a session without such declarations reads none.  It does happen to
these names: after a declaration under a condition that does not hold, the name has no value. -/
theorem missing_only_where_guarded (hready : Ready own s) (hserves : s.Serves declared)
    (hhonest : host.Honest own) (hobliging : host.Obliging declared) {sources : List String}
    (hrun : Evaluates host s sources t) {source : String}
    (hreadable : ∀ text ∈ source :: sources, ReadableSource text)
    {outcome : Except Failure (Value ν)} {u : Session ν}
    (hevaluate : (evaluate host .nothing source).on t = (outcome, u)) :
    (∀ name, Missing outcome name → ∃ text ∈ source :: sources, GuardsIn text name) ∧
    (∀ (falsehood keyword name use : Token) (initializer : Tree) (later : String)
        (value : Value ν),
      parseProgram source t.settings.sourceName =
        .ok [.conditional (.literal falsehood .truth) (.declare name initializer) keyword] →
      falsehood.text = "false" → outcome = .ok value →
      parseProgram later u.settings.sourceName = .ok [.reference use] → use.text = name.text →
      Missing ((evaluate host .nothing later).on u).1 name.text) := by
  have hundisturbed : t.Undisturbed own declared
      (fun name => ∃ text ∈ source :: sources, GuardsIn text name) := by
    apply hrun.undisturbed hhonest hobliging hready hserves
    · exact fun text htext => hreadable text (List.mem_cons_of_mem _ htext)
    · exact fun text htext name hname => ⟨text, List.mem_cons_of_mem _ htext, hname⟩
  refine ⟨?_, ?_⟩
  · exact (hundisturbed.evaluate hhonest hobliging (hreadable source List.mem_cons_self)
      (fun name hname => ⟨source, List.mem_cons_self, hname⟩) hevaluate).1
  · intro falsehood keyword name use initializer later value hparse hfalse hvalue hlater huse
    obtain ⟨book, hinv⟩ := hundisturbed.inv
    have hguarded := evaluate_guarded hhonest hinv hfalse hparse
    have hsound := evaluate_ensures hhonest hinv.sound hinv.own hinv.cursor .nothing source
    unfold Act.Ensures at hguarded hsound
    rw [hevaluate, hvalue] at hguarded hsound
    obtain ⟨symbol, type, hresolve, hname, htype, hnone⟩ := hguarded
    obtain ⟨book', hproceeds, -⟩ := hsound
    rw [← huse] at hresolve
    obtain ⟨w, hw⟩ := evaluate_unbound (hinv.proceeds hproceeds) hlater hresolve htype hnone
    rw [hw, hname]
    exact ⟨use.span, rfl⟩

def sevensReady : Session Unit :=
  ((register "seven" [] (some "int") ()).on (.initial .standard)).2

theorem ready_sevensReady : Ready (fun _ => False) sevensReady :=
  .register (.initial .standard) readsAsName_seven
    (Prod.eta ((register "seven" [] (some "int") ()).on _)).symm

private theorem serves_sevensReady : sevensReady.Serves fun _ => some .integer := by
  rintro name handle result type ⟨symbol, hmem, -, hvariant, value, hvalue, hpayload⟩
  have hsymbols : ∀ symbol ∈ sevensReady.scoping.forest.global.symbols,
      symbol.id = ⟨6⟩ ∨ symbol.variant.isType = true := by
    have hglobal : sevensReady.scoping.forest.global.symbols =
        Primitive.Kind.all.map Primitive.Kind.typeSymbol ++
          [⟨⟨5⟩, "<:int>", .function [] (some ⟨1⟩)⟩, ⟨⟨6⟩, "seven", .native ⟨5⟩⟩] :=
      rfl
    rw [hglobal]
    decide
  have hseven : sevensReady.valueOf? ⟨6⟩ = some ⟨⟨1⟩, .native "seven" () (some .integer)⟩ :=
    rfl
  rcases hsymbols symbol hmem with hid | htype
  · rw [hid, hseven, Option.some.injEq] at hvalue
    rw [← hvalue, Payload.native.injEq] at hpayload
    exact hpayload.2.2.symm
  · rw [hvariant] at htype
    simp [Symbol.Variant.isType] at htype

private theorem sevens_obliging : sevens.Obliging fun _ => some .integer := by
  intro s name handle arguments _
  refine ⟨.datum (.integer 7), s, rfl, ?_⟩
  intro kind hkind
  rw [← Option.some.inj hkind]
  exact ⟨.integer 7, rfl, rfl⟩

theorem repl_sevensReady : sevensReady.scoping.forest.get? Forest.replId = some bareTop :=
  rfl

def skipped : Tree :=
  let file := Settings.standard.sourceName
  .conditional (.literal ⟨.truth, "false", 1, 4, "false", file⟩ .truth)
    (.declare ⟨.name, "y", 1, 14, "y", file⟩
      (.call (.reference ⟨.name, "seven", 1, 18, "seven", file⟩) []
        ⟨.leftParen, "(", 1, 23, "(", file⟩))
    ⟨.if_, "if", 1, 1, "if", file⟩

theorem parse_skipped :
    parseProgram "if false var y = seven()" sevensReady.settings.sourceName = .ok [skipped] := by
  change parseProgram "if false var y = seven()" Settings.standard.sourceName = .ok [skipped]
  decide +kernel

def sevensSkipped : Session Unit :=
  ((evaluate sevens .nothing "if false var y = seven()").on sevensReady).2

private theorem parse_used :
    parseProgram "y" sevensSkipped.settings.sourceName =
      .ok [.reference ⟨.name, "y", 1, 1, "y", Settings.standard.sourceName⟩] := by
  rw [sevensSkipped, on_evaluate parse_skipped repl_sevensReady]
  change parseProgram "y" Settings.standard.sourceName = _
  decide +kernel

theorem missing_only_where_guarded_sevens :
    Missing ((evaluate sevens .nothing "y").on sevensSkipped).1 "y" ∧
      ∃ text ∈ ["y", "if false var y = seven()"], GuardsIn text "y" := by
  have hskipped : (evaluate sevens .nothing "if false var y = seven()").on sevensReady =
      (.ok .nothing, sevensSkipped) := by
    refine Prod.ext ?_ rfl
    rw [on_evaluate parse_skipped repl_sevensReady]
    rfl
  have hshort : ∀ source ∈ ["y", "if false var y = seven()"],
      source.toList.length ≤ Numeral.digitLimit := by
    decide
  have hreadable : ∀ source ∈ ["y", "if false var y = seven()"], ReadableSource source :=
    fun source hsource _ _ hparse => isReadable_of_length (hshort source hsource) hparse
  have hmissing : Missing ((evaluate sevens .nothing "y").on sevensSkipped).1 "y" := by
    have h := missing_only_where_guarded ready_sevensReady serves_sevensReady (sevens_honest _)
      sevens_obliging .none (List.forall_mem_cons.1 hreadable).2 hskipped
    exact h.2 _ _ _ _ _ _ _ parse_skipped rfl rfl parse_used rfl
  have hrun : Evaluates sevens sevensReady ["if false var y = seven()"] sevensSkipped := by
    refine .next .none hskipped ?_
    rintro name ⟨span, hname⟩
    simp at hname
  have h := missing_only_where_guarded ready_sevensReady serves_sevensReady (sevens_honest _)
    sevens_obliging hrun hreadable (Prod.eta ((evaluate sevens .nothing "y").on sevensSkipped)).symm
  exact ⟨hmissing, h.1 "y" hmissing⟩

end Scriptlet.Session
