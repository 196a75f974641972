import Scriptlet.Proofs.Sessions.Cursor
/-!
# Analysing and executing at the same scopes

The analysis of a tree ends with the cursor where it was.  So does the execution of the
annotated tree, and on its way it comes to every node with the cursor on the scope on which
it stood when that node was analysed.  Only native functions can disturb this: the cursor
goes up from where they leave it, not back to where it was.
-/

namespace Scriptlet.Session

open Annotated (Nested)

variable {ν : Type} {host : Host ν} {forest : Forest} {id : ScopeId}

/-- The native functions that are invoked on the way through a tree leave the cursor where they
find it. -/
def Settles (host : Host ν) (node : Annotated) (s : Session ν) : Prop :=
  ∀ handle arguments v, Invokes host node s handle arguments v →
    ((host.invoke handle arguments).on v).2.scoping.cursor = v.scoping.cursor

private theorem exists_of_executesAll {kept : ScopeId → Session ν → Prop} {nodes : List Annotated}
    (hnodes : ∀ node ∈ nodes, ∀ s, kept id s → Tracks.Harmless kept host node s →
      kept id ((execute host node).on s).2)
    {s v : Session ν} {index : Nat} {path : List Branch} {found : Annotated} (hs : kept id s)
    (hharmless : Tracks.HarmlessAll kept host nodes s)
    (h : ExecutesAll host nodes s index path found v) :
    ∃ node w, nodes[index]? = some node ∧ kept id w ∧ Tracks.Harmless kept host node w ∧
      Executes host node w path found v := by
  induction nodes generalizing s index with
  | nil => cases h
  | cons node nodes ih =>
      rw [List.forall_mem_cons] at hnodes
      have hhead := hharmless.head
      cases h with
      | here h => exact ⟨node, s, rfl, hs, hhead, h⟩
      | there hrun h =>
          have ht := hnodes.1 s hs hhead
          rw [hrun] at ht
          exact ih hnodes.2 ht (hharmless.tail hrun) h

theorem StandsOn.holds {s : Session ν} (hs : s.StandsOn forest id) {node : Annotated} :
    node.Holds id [] node s.scoping.cursor := by
  rw [hs.cursor]
  exact .here

private theorem holds_of_executes {node : Annotated} (hnode : Nested forest id node) :
    ∀ {s v : Session ν} {path : List Branch} {found : Annotated}, s.StandsOn forest id →
      Tracks.Harmless (StandsOn forest) host node s → Executes host node s path found v →
      node.Holds id path found v.scoping.cursor := by
  have htracks := tracks_standsOn (ν := ν) forest
  induction hnode with
  | @block outer inner scope nodes token hinner hparent hnodes ih =>
      intro s v path found hs hharmless hexecutes
      cases hexecutes with
      | here => exact hs.holds
      | @statement _ _ _ _ t _ index path _ henter hexecutes =>
          have ht : t.StandsOn forest inner := by
            have hentering := htracks.entering hinner hparent hs
            unfold Act.Ensures at hentering
            rwa [henter] at hentering
          obtain ⟨node, w, hindex, hw, hquiet, hexecutes⟩ := exists_of_executesAll
            (fun node hmem => htracks.keeps_execute (hnodes node hmem)) ht
            (hharmless.parts (.statement henter)) hexecutes
          exact .statement hindex (ih node (List.mem_of_getElem? hindex) hw hquiet hexecutes)
  | literal =>
      intro s v path found hs _ hexecutes
      cases hexecutes
      exact hs.holds
  | reference =>
      intro s v path found hs _ hexecutes
      cases hexecutes
      exact hs.holds
  | declare _ ih =>
      intro s v path found hs hharmless hexecutes
      cases hexecutes with
      | here => exact hs.holds
      | initializer hexecutes =>
          exact .initializer (ih hs (hharmless.part .initializer) hexecutes)
  | assign _ ih =>
      intro s v path found hs hharmless hexecutes
      cases hexecutes with
      | here => exact hs.holds
      | value hexecutes => exact .value (ih hs (hharmless.part .value) hexecutes)
  | @call scope callee nodes token hcallee hnodes ihCallee ihArguments =>
      intro s v path found hs hharmless hexecutes
      have hquiet : Tracks.Harmless (StandsOn forest) host callee s := hharmless.part .callee
      cases hexecutes with
      | here => exact hs.holds
      | callee hexecutes => exact .callee (ihCallee hs hquiet hexecutes)
      | argument hrun hexecutes =>
          have ht := htracks.keeps_execute hcallee s hs hquiet
          rw [hrun] at ht
          obtain ⟨node, w, hindex, hw, hquiet, hexecutes⟩ := exists_of_executesAll
            (fun node hmem => htracks.keeps_execute (hnodes node hmem)) ht
            (hharmless.parts (.argument hrun)) hexecutes
          exact .argument hindex
            (ihArguments node (List.mem_of_getElem? hindex) hw hquiet hexecutes)
  | @conditional scope condition body token hcondition _ ihCondition ihBody =>
      intro s v path found hs hharmless hexecutes
      have hquiet : Tracks.Harmless (StandsOn forest) host condition s :=
        hharmless.part .condition
      cases hexecutes with
      | here => exact hs.holds
      | condition hexecutes => exact .condition (ihCondition hs hquiet hexecutes)
      | body hrun htest hexecutes =>
          have ht := htracks.keeps_execute hcondition s hs hquiet
          rw [hrun] at ht
          exact .body (ihBody ht (hharmless.part (.body hrun htest)) hexecutes)
  | debugPrint _ ih =>
      intro s v path found hs hharmless hexecutes
      cases hexecutes with
      | here => exact hs.holds
      | operand hexecutes => exact .operand (ih hs (hharmless.part .operand) hexecutes)

/-- A call ends with the cursor where its native function leaves it. -/
theorem cursor_of_calls {node : Annotated} {s v : Session ν} {handle : ν}
    {arguments : List (Value ν)} (h : Calls host node s handle arguments v) :
    ((execute host node).on s).2.scoping.cursor =
      ((host.invoke handle arguments).on v).2.scoping.cursor := by
  cases h with
  | call hcallee harguments =>
      rw [execute, Act.on_bind_of_ok hcallee]
      dsimp only
      rw [Act.on_bind_of_ok harguments]
      have hcursor : ∀ id {s t : Session ν}, s.scoping.cursor = id → t.scoping = s.scoping →
          t.settings = s.settings → t.scoping.cursor = id :=
        fun id _ _ hs hscoping _ => hscoping ▸ hs
      exact keeps_call_native (hcursor _) rfl _

/-! ## Analysis and execution -/

/-- Where no native function moves the cursor, an annotated tree is executed as it was analysed: the
cursor ends where it began, and every node on the way is executed at the very scope at which the
subtree was analysed from which it comes.  A call ends where its native function leaves the cursor,
so one that moves it breaks the balance. -/
theorem execute_balanced {settings : Settings} {s : Session ν}
    (hreachable : (initial settings : Session ν).LeadsTo s) (tree : Tree) :
    let done := (onScopes (Analysis.analyse tree)).on s
    done.2.scoping.cursor = s.scoping.cursor ∧
    ∀ analysed, done.1 = .ok analysed → ∀ u, done.2.LeadsTo u →
      u.scoping.cursor = s.scoping.cursor → ∀ host : Host ν,
      (∀ handle arguments (s : Session ν), s.LeadsTo ((host.invoke handle arguments).on s).2) →
      (Settles host analysed.node u →
        ((execute host analysed.node).on u).2.scoping.cursor = s.scoping.cursor ∧
        ∀ path node v, Executes host analysed.node u path node v →
          ∃ subtree w, Analysis.Visits tree s.scoping path subtree w ∧
            Analysis.Becomes subtree w node v.scoping.cursor) ∧
      ∀ path node v, Executes host analysed.node u path node v →
        ∀ handle arguments w, Calls host node v handle arguments w →
          ((execute host node).on v).2.scoping.cursor =
            ((host.invoke handle arguments).on w).2.scoping.cursor := by
  intro done
  have hs := hreachable.ordered (ordered_initial settings)
  have hplaced : s.scoping.Placed := ⟨hs.numbered, hs.cursor⟩
  rcases hrun : (Analysis.analyse tree).on s.scoping with ⟨outcome, scoping⟩
  have hdone : done = (outcome, s.rescoped scoping) := on_onScopes hrun
  have hstays := Analysis.stays_analyse tree s.scoping hplaced
  unfold Act.Ensures at hstays
  rw [hrun] at hstays
  rw [hdone]
  refine ⟨?_, ?_⟩
  · cases outcome with
    | ok analysed => exact hstays.1.steady.cursor
    | error failure => exact hstays.steady.cursor
  rintro analysed rfl u hleads hcursor host hhost
  obtain ⟨hstays, hnested⟩ := hstays
  refine ⟨fun hsettles => ?_, fun path node v _ handle arguments w => cursor_of_calls⟩
  have hgrown : (s.rescoped scoping).Ordered scoping.forest := by
    have := ordered_onScopes ((Scoping.upholds_ordered s.scoping.forest).analyse tree) s hs.self
    rw [on_onScopes hrun] at this
    exact this.self
  have hstands : u.StandsOn scoping.forest s.scoping.cursor := ⟨hleads.ordered hgrown, hcursor⟩
  have hharmless : Tracks.Harmless (StandsOn scoping.forest) host analysed.node u :=
    fun id handle arguments v hinvokes hv =>
      ⟨(hhost handle arguments v).ordered hv.ordered,
        (hsettles handle arguments v hinvokes).trans hv.cursor⟩
  refine ⟨?_, fun path node v hexecutes => ?_⟩
  · exact ((tracks_standsOn scoping.forest).keeps_execute hnested u hstands hharmless).cursor
  · exact Analysis.exists_visits tree hplaced hrun
      (holds_of_executes hnested hstands hharmless hexecutes)

def braced : Tree :=
  .block [.literal ⟨.number, "1", 1, 3, "1", "<input>"⟩ .integer]
    (some ⟨.leftCurly, "\x7b", 1, 1, "\x7b", "<input>"⟩)

def sevenCall : Tree :=
  .call (.reference ⟨.name, "seven", 1, 1, "seven", "<input>"⟩) []
    ⟨.leftParen, "(", 1, 6, "(", "<input>"⟩

def sevensEntered : Session Unit :=
  ((onScopes (Scoping.enter Forest.replId)).on
    ((register "seven" [] (some "int") ()).on (initial .standard)).2).2

/-- Every native function evaluates a source. -/
def reentrant : Host Unit where
  invoke := fun _ _ => Reply.value <$> evaluate sevens .nothing "1"

private theorem state_reentrant (handle : Unit) (arguments : List (Value Unit)) (s : Session Unit) :
    ((reentrant.invoke handle arguments).on s).2 = ((evaluate sevens .nothing "1").on s).2 := by
  rw [reentrant, map_eq_pure_bind, Act.on_bind]
  rcases (evaluate sevens .nothing "1").on s with ⟨outcome, t⟩
  cases outcome <;> rfl

private theorem leadsTo_reentrant (handle : Unit) (arguments : List (Value Unit))
    (s : Session Unit) :
    s.LeadsTo ((reentrant.invoke handle arguments).on s).2 := by
  rw [state_reentrant]
  exact .evaluate leadsTo_sevens

private theorem cursor_reentrant {s : Session Unit} (hs : s.Ordered .initial)
    (hname : s.settings.sourceName = "<input>") (handle : Unit) (arguments : List (Value Unit)) :
    ((reentrant.invoke handle arguments).on s).2.scoping.cursor = Forest.globalId := by
  obtain ⟨repl, hrepl, -⟩ := Scoping.Ordered.exists_repl hs
  have hparse : parseProgram "1" s.settings.sourceName =
      .ok [.literal ⟨.number, "1", 1, 1, "1", "<input>"⟩ .integer] := by
    rw [hname]
    decide +kernel
  have hsettled : sevens.IsSettled := fun _ _ _ => rfl
  obtain ⟨u, hevaluate, hglobal⟩ := @on_evaluate_settled _ _ _ hsettled
    (fun base handle arguments s => (leadsTo_sevens handle arguments s).ordered) hs .nothing _ _ _
    hparse hrepl
  rw [state_reentrant, hevaluate]
  exact hglobal

def sevensAnalysed : Session Unit :=
  ((onScopes (Analysis.analyse sevenCall)).on sevensEntered).2

def sevensLooked : Session Unit :=
  ((readVariable ⟨6⟩ ⟨.name, "seven", 1, 1, "seven", "<input>"⟩).on sevensAnalysed).2

private theorem cursor_sevenCall :
    (∀ handle arguments (s : Session Unit),
      s.LeadsTo ((reentrant.invoke handle arguments).on s).2) ∧
    ∃ analysed, (onScopes (Analysis.analyse sevenCall)).on sevensEntered =
        (.ok analysed, sevensAnalysed) ∧
      sevensAnalysed.scoping.cursor = Forest.replId ∧
      ((execute reentrant analysed.node).on sevensAnalysed).2.scoping.cursor =
        Forest.globalId := by
  let callee : Annotated := .reference ⟨6⟩ ⟨.name, "seven", 1, 1, "seven", "<input>"⟩
  let node : Annotated := .call callee [] ⟨.leftParen, "(", 1, 6, "(", "<input>"⟩
  have hanalysed : (onScopes (Analysis.analyse sevenCall)).on sevensEntered =
      (.ok ⟨node, some Primitive.Kind.integer.typeId⟩, sevensAnalysed) :=
    Prod.ext rfl rfl
  have hlooked : (execute reentrant callee).on sevensAnalysed =
      (.ok ⟨⟨1⟩, .native "seven" () (some .integer)⟩, sevensLooked) := by
    rw [execute]
    exact Prod.ext rfl rfl
  have hordered : sevensLooked.Ordered .initial := by
    have hleads : (initial .standard : Session Unit).LeadsTo sevensAnalysed :=
      .trans (.trans (.register "seven" [] (some "int") ()) (.enter Forest.replId))
        (.analyse sevenCall)
    have hscoping : sevensLooked.scoping = sevensAnalysed.scoping := rfl
    exact (LeadsTo.trans hleads (.apart hscoping)).ordered (ordered_initial .standard)
  refine ⟨leadsTo_reentrant, _, hanalysed, rfl, ?_⟩
  rw [cursor_of_calls (.call hlooked rfl)]
  exact cursor_reentrant (s := sevensLooked.atCall "seven" () []) hordered rfl () []

/-- The statement of a block is executed in the scope of the block.  A function that evaluates a
source takes the cursor away from the top-level scope. -/
theorem execute_balanced_braced :
    (let done := (onScopes (Analysis.analyse braced)).on (initial .standard : Session Unit)
      ∃ analysed, done.1 = .ok analysed ∧
        ((execute sevens analysed.node).on done.2).2.scoping.cursor = Forest.globalId ∧
        ∃ subtree w node, Analysis.Visits braced (initial .standard : Session Unit).scoping
          [.statement 0] subtree w ∧ Analysis.Becomes subtree w node ⟨3⟩) ∧
    (∀ handle arguments (s : Session Unit),
      s.LeadsTo ((reentrant.invoke handle arguments).on s).2) ∧
    ∃ analysed, (onScopes (Analysis.analyse sevenCall)).on sevensEntered =
        (.ok analysed, sevensAnalysed) ∧
      sevensAnalysed.scoping.cursor = Forest.replId ∧
      ((execute reentrant analysed.node).on sevensAnalysed).2.scoping.cursor =
        Forest.globalId := by
  refine ⟨?_, cursor_sevenCall⟩
  intro done
  let node : Annotated := .literal ⟨.number, "1", 1, 3, "1", "<input>"⟩ .integer
  let block : Annotated := .block [node] ⟨3⟩ (some ⟨.leftCurly, "\x7b", 1, 1, "\x7b", "<input>"⟩)
  have hanalysed : done.1 = .ok ⟨block, none⟩ := rfl
  have hreachable : (initial .standard : Session Unit).LeadsTo (initial .standard) := .apart rfl
  have hbalanced := (execute_balanced hreachable braced).2 _ hanalysed
    done.2 (.apart rfl) rfl sevens leadsTo_sevens
  obtain ⟨hcursor, hvisits⟩ := hbalanced.1 fun _ _ _ _ => rfl
  refine ⟨_, hanalysed, hcursor, ?_⟩
  let inside : Session Unit := ((onScopes (Scoping.enter ⟨3⟩)).on done.2).2
  have henter : (onScopes (Scoping.enter ⟨3⟩)).on done.2 = (.ok (), inside) :=
    Prod.ext rfl rfl
  have hinside : inside.scoping.cursor = ⟨3⟩ := rfl
  obtain ⟨subtree, w, hvisits, hbecomes⟩ :=
    hvisits [.statement 0] node inside (.statement henter (.here .here))
  rw [hinside] at hbecomes
  exact ⟨subtree, w, node, hvisits, hbecomes⟩

end Scriptlet.Session
