import Scriptlet.Proofs.Sessions.Preservation
import Scriptlet.Proofs.Sessions.Requests
import Scriptlet.Proofs.Sessions.TypeSoundness
import Scriptlet.Proofs.Typing.Exactness
/-!
# Acceptance of statements in sessions

An embedding program registers native functions and evaluates sources, and so may
the native functions themselves, on the very session that calls them.  Wherever
they leave the cursor, the scopes stay lawful.  So at the top level the analysis
accepts the well-typed statements and no others.
-/

namespace Scriptlet

open Act (Preserves)

/-! ## Lawful scopes -/

namespace Scoping

theorem lawful_enter (id : ScopeId) : Preserves Lawful (enter id) := by
  intro s hs
  cases hget : s.forest.get? id with
  | none =>
      unfold enter
      rw [Act.on_bind_of_ok (Act.on_get s)]
      simp only [hget]
      exact hs
  | some scope =>
      rw [on_enter hget]
      exact ⟨hs.forest, scope, hget⟩

private theorem lawful_leave : Preserves Lawful leave := by
  intro s hs
  obtain ⟨scope, hscope⟩ := hs.cursor
  cases hparent : scope.parent with
  | none =>
      unfold leave
      rw [Act.on_bind_of_ok (on_current hscope)]
      simp only [hparent]
      exact hs
  | some parent =>
      rw [on_leave hscope hparent]
      exact ⟨hs.forest, Forest.exists_parent hs.forest.numbered hscope hparent⟩

variable {s : Scoping}

theorem Lawful.functionType (hs : s.Lawful) {ids : List SymbolId} {names : List String}
    (hids : List.Forall₂ s.forest.Names ids names) (result : Option Primitive.Kind) :
    (functionType ids (result.map Primitive.Kind.typeId)).Ensures s
      (fun symbol t => t.Lawful ∧
        t.forest.IsFunction symbol.id ids (result.map Primitive.Kind.typeId))
      (fun _ _ => False) := by
  refine (functionType_lawful hs.forest hids result).mono ?_ (fun _ _ h => h)
  rintro symbol t ⟨hcursor, hfunction, hforest⟩
  refine ⟨?_, hfunction⟩
  rcases hforest with hforest | ⟨hfree, hforest⟩
  · refine hs.steady ⟨?_, ?_, hcursor⟩ ?_
    · rw [hforest]
      exact hs.forest.numbered
    · rw [hforest]
      exact .refl _
    · rw [hforest]
      exact hs.forest
  · have hlawful := hs.forest.withSymbol hs.forest.global_eq hfree
      (.function hids (hs.forest.typeNames hids))
    rw [← hforest] at hlawful
    refine hs.steady ⟨hlawful.numbered, ?_, hcursor⟩ hlawful
    rw [hforest]
    exact Forest.extends_withSymbol _ _

theorem Lawful.declare (hs : s.Lawful) {name : String} (hname : name.toList.head? ≠ some '<')
    {type : SymbolId} {arguments : List SymbolId} {result : Option SymbolId}
    (htype : s.forest.IsFunction type arguments result) (span : Span) :
    (declare name (.native type) span).Ensures s (fun _ t => t.Lawful) (fun _ t => t.Lawful) := by
  obtain ⟨scope, hscope⟩ := hs.cursor
  cases hfind : scope.find? name with
  | some existing =>
      obtain ⟨diagnostic, hon, -⟩ := on_declare_taken hscope hfind (.native type) span
      exact .of_on_error hon hs
  | none =>
      have hsuits : s.forest.Suits s.cursor (s.forest.newSymbol name (.native type)) :=
        .native htype fun _ => hname
      exact .of_on_ok (on_declare hscope hfind (.native type) span)
        (hs.inserted hscope hfind hsuits _)

end Scoping

namespace Session

variable {ν : Type}

def Lawful (s : Session ν) : Prop :=
  s.scoping.Lawful

variable {s : Session ν}

private theorem lawful_initial (settings : Settings) :
    (Session.initial settings : Session ν).Lawful :=
  ⟨Forest.sound_initial.lawful, _, rfl⟩

theorem Lawful.rescoped {scoping : Scoping} (h : scoping.Lawful) : (s.rescoped scoping).Lawful :=
  ⟨h.forest, h.cursor⟩

theorem lawful_onScopes {α : Type} {act : Act Scoping α} (h : Preserves Scoping.Lawful act) :
    Preserves (Lawful (ν := ν)) (onScopes act) :=
  fun s hs => .rescoped (h s.scoping hs)

private theorem tracks_lawful (forest : Forest) : Tracks forest (fun _ => Lawful (ν := ν)) where
  apart hs hscoping _ := by
    rw [Lawful, hscoping]
    exact hs
  drained hs := .rescoped hs
  entering _ _ hs := (lawful_onScopes (Scoping.lawful_enter _)).ensures hs
  leaving _ _ hs := (lawful_onScopes Scoping.lawful_leave).ensures hs

theorem Lawful.enlist (hs : s.Lawful) {name : String} (hname : name.toList.head? ≠ some '<')
    (handle : ν) (kind : Option Primitive.Kind) {type : Symbol} {arguments : List SymbolId}
    {result : Option SymbolId} (htype : s.scoping.forest.IsFunction type.id arguments result) :
    (enlist name handle kind type).Ensures s (fun _ t => t.Lawful) (fun _ t => t.Lawful) := by
  refine (onScopes_ensures (Scoping.Lawful.declare hs hname htype Span.unknown)).bind ?_ ?_
  · rintro _ _ ⟨scoping, rfl, hscoping⟩
    exact .rescoped hscoping
  rintro symbol _ ⟨scoping, rfl, hscoping⟩
  have hrest : Preserves Lawful (do
      bind symbol.id (← fresh (.native name handle kind))
      record (.registered name type.name)
      return symbol) := fun _ ht => ht
  exact hrest.ensures (.rescoped hscoping)

private theorem lawful_register {name : String} (hname : ReadsAsName name) (arguments : List String)
    (result : Option String) (handle : ν) :
    Preserves Lawful (register name arguments result handle) := by
  intro s hs
  rw [register_eq]
  apply Act.Ensures.state
  have h₁ : (s.rescoped s.scoping).Lawful := .rescoped hs
  refine (onScopes_ensures (Scoping.mapM_typeNamed_ensures arguments s.scoping)).bind ?_ ?_
  · rintro _ _ ⟨scoping, rfl, rfl⟩
    exact h₁
  rintro argumentTypes _ ⟨scoping, rfl, rfl, hnames⟩
  refine (resultKind_ensures name result).bind ?_ ?_
  · rintro _ _ rfl
    exact h₁
  rintro kind _ rfl
  unfold Act.Ensures
  rw [Act.on_bind_of_ok (on_onScopes (on_resultType h₁.forest kind)), Option.map_map]
  have h₂ := Lawful.rescoped (s := s.rescoped s.scoping) h₁
  refine (onScopes_ensures (Scoping.Lawful.functionType h₂ hnames kind)).bind ?_ ?_
  · rintro _ _ ⟨_, -, hfalse⟩
    exact hfalse.elim
  rintro type _ ⟨scoping, rfl, hscoping, hfunction⟩
  exact Lawful.enlist (.rescoped hscoping) hname.head_ne handle kind hfunction

/-! ## Evaluation -/

variable {host : Host ν}

private theorem lawful_runStatement
    (hhost : ∀ handle arguments, Preserves Lawful (host.invoke handle arguments)) (watch : Watch)
    {tree : Tree} (htree : Analysis.StatementExact tree) (hplain : tree.IsPlain) :
    Preserves Lawful (runStatement host watch tree) := by
  intro s hs
  -- A native function may have left the cursor on any scope, the global one included.
  obtain ⟨frames, hframes⟩ := Scoping.exists_shows hs.forest
  have hexact := htree s.scoping frames hs (fun _ => hplain) hframes
  have hstays := Analysis.stays_analyse tree s.scoping hs.placed
  apply Act.Ensures.state
  refine (onScopes_ensures (hexact.and hstays)).bind ?_ ?_
  · rintro failure _ ⟨scoping, rfl, ⟨hforest, -⟩, hstays⟩
    exact .rescoped (hs.steady hstays.steady hforest)
  rintro analysed _ ⟨scoping, rfl, ⟨hforest, -⟩, hstays, hnested⟩
  have htracks := tracks_lawful (ν := ν) scoping.forest
  have hrest : Preserves Lawful
      (observe watch tree analysed.node >>= fun _ => execute host analysed.node) :=
    (@Tracks.preserves_observe _ _ _ s.scoping.cursor htracks watch tree analysed.node).bind
      fun _ => htracks.preserves_execute (fun _ => hhost) hnested
  exact hrest.ensures (.rescoped (hs.steady hstays.steady hforest))

private theorem lawful_runStatements
    (hhost : ∀ handle arguments, Preserves Lawful (host.invoke handle arguments)) (watch : Watch)
    (last : Value ν) {trees : List Tree}
    (htrees : ∀ tree ∈ trees, Analysis.StatementExact tree ∧ tree.IsPlain) :
    Preserves Lawful (runStatements host watch last trees) :=
  preserves_statements (fun tree htree =>
    lawful_runStatement hhost watch (htrees tree htree).1 (htrees tree htree).2) last

/-- The analysis of a source's statements is exact, and they declare words. -/
theorem exact_of_parseProgram {source file : String} {trees : List Tree}
    (h : parseProgram source file = .ok trees) :
    ∀ tree ∈ trees, Analysis.StatementExact tree ∧ tree.IsPlain :=
  fun tree htree => ⟨Analysis.statement_exact (TokenStream.program_reads h) tree htree,
    parseProgram_isPlain h tree htree⟩

private theorem lawful_conclude (count : Nat) (value : Value ν) :
    Preserves Lawful (conclude count value) := by
  intro s hs
  rw [on_conclude]
  rcases on_collectIfDue (s.counted count) with hon | hon
  · rw [Act.on_bind_of_ok hon]
    exact hs
  · rw [Act.on_bind_of_ok hon]
    exact hs

private theorem lawful_evaluate
    (hhost : ∀ handle arguments, Preserves Lawful (host.invoke handle arguments)) (watch : Watch)
    (source : String) : Preserves Lawful (evaluate host watch source) := by
  intro s hs
  cases hparse : parseProgram source s.settings.sourceName with
  | error diagnostic =>
      rw [on_evaluate_refused hparse]
      exact hs
  | ok trees =>
      have hrun := lawful_runStatements hhost watch .nothing
        (exact_of_parseProgram hparse)
      have hsteps := (lawful_onScopes (Scoping.lawful_enter Forest.replId)).bind fun _ =>
        (hrun.closing (lawful_onScopes Scoping.lawful_leave)).bind
          (lawful_conclude trees.length)
      rw [on_evaluate_read hparse]
      exact hsteps _ hs

/-! ## Sessions -/

/-- What an embedding program can do to a session by registering functions and evaluating sources,
and what its native functions can do to the session that calls them. -/
inductive Reaches : Session ν → Session ν → Prop where
  /-- The scopes are left alone. -/
  | apart {s t : Session ν} : t.scoping = s.scoping → Reaches s t
  | register {s : Session ν} {name : String} {arguments : List String} {result : Option String}
      {handle : ν} : ReadsAsName name →
      Reaches s ((register name arguments result handle).on s).2
  | evaluate {s : Session ν} {host : Host ν} {watch : Watch} {source : String} :
      (∀ handle arguments s, Reaches s ((host.invoke handle arguments).on s).2) →
      Reaches s ((evaluate host watch source).on s).2
  /-- The first statements of a source were run, and the next one is to be analysed. -/
  | midway {s : Session ν} {host : Host ν} {watch : Watch} {source : String}
      {trees later : List Tree} :
      (∀ handle arguments s, Reaches s ((host.invoke handle arguments).on s).2) →
      parseProgram source s.settings.sourceName = .ok (trees ++ later) →
      Reaches s ((do
        onScopes (Scoping.enter Forest.replId)
        runStatements host watch .nothing trees).on s).2
  | trans {s t u : Session ν} : Reaches s t → Reaches t u → Reaches s u

theorem Reaches.lawful {t : Session ν} (h : s.Reaches t) (hs : s.Lawful) : t.Lawful := by
  induction h with
  | apart hscoping =>
      rw [Lawful, hscoping]
      exact hs
  | register hname => exact lawful_register hname _ _ _ _ hs
  | evaluate _ ih => exact lawful_evaluate ih _ _ _ hs
  | @midway _ _ watch _ _ _ _ hparse ih =>
      have htrees := exact_of_parseProgram hparse
      rw [List.forall_mem_append] at htrees
      have hsteps := (lawful_onScopes (Scoping.lawful_enter Forest.replId)).bind fun _ =>
        lawful_runStatements ih watch .nothing htrees.1
      exact hsteps _ hs
  | trans _ _ ihFirst ihSecond => exact ihSecond (ihFirst hs)

end Session

/-! ## Statements at the top level -/

/-- The analysis accepts the tree, finds the type and leads to the frames. -/
def Scoping.Accepts (s : Scoping) (tree : Tree) (type : Option Ty) (after : Frames) : Prop :=
  ∃ analysed t, (Analysis.analyse tree).on s = (.ok analysed, t) ∧
    Option.Rel t.forest.Denotes analysed.type type ∧ t.Shows after

theorem Analysis.StatementExact.accepts_iff {tree : Tree} (h : StatementExact tree) {s : Scoping}
    {frames : Frames} (hs : s.Lawful) (hcursor : s.cursor ≠ Forest.globalId)
    (hframes : s.Shows frames) (type : Option Ty) (after : Frames) :
    s.Accepts tree type after ↔ Derives frames tree type after := by
  have hexact := h s frames hs (fun hglobal => absurd hglobal hcursor) hframes
  unfold Act.Ensures at hexact
  constructor
  · rintro ⟨analysed, t, hon, htype, hafter⟩
    rw [hon] at hexact
    obtain ⟨hforest, type', after', htype', hafter', hderives⟩ := hexact
    rw [hderives]
    exact ⟨hforest.rel_denotes_unique htype htype', hforest.shows_unique hafter hafter'⟩
  · intro hderivation
    match hon : (analyse tree).on s with
    | (.ok analysed, t) =>
        rw [hon] at hexact
        obtain ⟨-, type', after', htype', hafter', hderives⟩ := hexact
        obtain ⟨rfl, rfl⟩ := (hderives type after).1 hderivation
        exact ⟨analysed, t, hon, htype', hafter'⟩
    | (.error failure, t) =>
        rw [hon] at hexact
        exact absurd hderivation (hexact.2 type after)

theorem Analysis.StatementExact.exists_accepts {tree : Tree} (h : StatementExact tree)
    {s t : Scoping} (hs : s.Lawful) (hcursor : s.cursor ≠ Forest.globalId) {analysed : Analysed}
    (hon : (analyse tree).on s = (.ok analysed, t)) : ∃ type after, s.Accepts tree type after := by
  obtain ⟨frames, hframes⟩ := Scoping.exists_shows hs.forest
  have hexact := h s frames hs (fun hglobal => absurd hglobal hcursor) hframes
  unfold Act.Ensures at hexact
  rw [hon] at hexact
  obtain ⟨-, type, after, htype, hafter, -⟩ := hexact
  exact ⟨type, after, analysed, t, hon, htype, hafter⟩

namespace Session

variable {ν : Type} {s : Session ν}

def top (s : Session ν) : Scoping :=
  { s.scoping with cursor := Forest.replId }

/-- At the top level of a session the analysis accepts the statements that are derivable from the
frames in view, with the types and the frames to which their derivations lead, and no others. -/
theorem accepts_iff_derives {settings : Settings} (h : (Session.initial settings).Reaches s) :
    ∃ frames, s.top.Shows frames ∧ (∀ other, s.top.Shows other → other = frames) ∧
      ∀ (stream : TokenStream) (file : String) (trees : List Tree),
        stream.program file = .ok trees → ∀ tree ∈ Tree.block trees none :: trees,
          (∀ type after, s.top.Accepts tree type after ↔ Derives frames tree type after) ∧
          ∀ analysed t, (Analysis.analyse tree).on s.top = (.ok analysed, t) →
            ∃ type after, s.top.Accepts tree type after := by
  have hlawful : s.Lawful := h.lawful (lawful_initial settings)
  obtain ⟨repl, hrepl, -⟩ := hlawful.forest.repl
  have htop : s.top.Lawful := ⟨hlawful.forest, repl, hrepl⟩
  have hcursor : s.top.cursor ≠ Forest.globalId := by
    change Forest.replId ≠ Forest.globalId
    decide
  obtain ⟨frames, hframes⟩ := Scoping.exists_shows htop.forest
  refine ⟨frames, hframes, fun other hother => htop.forest.shows_unique hother hframes, ?_⟩
  intro stream file trees hprogram
  have hexact := Analysis.statement_exact (TokenStream.program_reads hprogram)
  have hall : ∀ tree ∈ Tree.block trees none :: trees, Analysis.StatementExact tree :=
    List.forall_mem_cons.2 ⟨Analysis.block_exact (.of_all hexact), hexact⟩
  intro tree htree
  exact ⟨(hall tree htree).accepts_iff htop hcursor hframes,
    fun analysed t hon => (hall tree htree).exists_accepts htop hcursor hon⟩

def assigning : Tree :=
  .assign (.reference ⟨.name, "x", 1, 1, "x", "<input>"⟩)
    (.call (.reference ⟨.name, "seven", 1, 5, "seven", "<input>"⟩) []
      ⟨.leftParen, "(", 1, 10, "(", "<input>"⟩)
    ⟨.assign, "=", 1, 3, "=", "<input>"⟩

theorem accepts_iff_derives_sevens :
    (Session.initial .standard).Reaches sevensBound ∧
      ∃ frames, sevensBound.top.Shows frames ∧ Derives frames assigning none frames := by
  have hsevens : ∀ handle arguments s, Reaches s ((sevens.invoke handle arguments).on s).2 :=
    fun _ _ _ => .apart rfl
  have hreaches : (Session.initial .standard).Reaches sevensBound :=
    .trans (.register readsAsName_seven) (.evaluate hsevens)
  have hprogram : (TokenStream.scan "x = seven()" "<input>").program "<input>" =
      .ok [assigning] := by
    decide +kernel
  have htop : sevensBound.top =
      ⟨⟨[⟨⟨2⟩, "repl", some ⟨1⟩, [⟨⟨7⟩, "x", .var ⟨1⟩⟩]⟩,
        ⟨⟨1⟩, "global", none, Primitive.Kind.all.map Primitive.Kind.typeSymbol ++
          [⟨⟨5⟩, "<:int>", .function [] (some ⟨1⟩)⟩, ⟨⟨6⟩, "seven", .native ⟨5⟩⟩]⟩], 8⟩, ⟨2⟩, []⟩ := by
    decide +kernel
  have hon : ((Analysis.analyse assigning).on sevensBound.top) =
      (.ok ⟨.assign ⟨7⟩ (.call (.reference ⟨6⟩ ⟨.name, "seven", 1, 5, "seven", "<input>"⟩) []
        ⟨.leftParen, "(", 1, 10, "(", "<input>"⟩) ⟨.name, "x", 1, 1, "x", "<input>"⟩, none⟩,
        sevensBound.top) := by
    rw [htop]
    exact Prod.ext rfl rfl
  obtain ⟨frames, hframes, -, hexact⟩ := accepts_iff_derives hreaches
  obtain ⟨haccepts, -⟩ := hexact _ _ _ hprogram assigning (by simp)
  refine ⟨hreaches, frames, hframes, (haccepts none frames).1 ?_⟩
  exact ⟨_, _, hon, .none, hframes⟩

end Session

end Scriptlet
