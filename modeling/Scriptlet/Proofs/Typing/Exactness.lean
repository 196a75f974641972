import Scriptlet.Proofs.Analysis.Cursor
import Scriptlet.Proofs.Typing.Denotation
import Scriptlet.Proofs.Typing.Names
/-!
# The analysis accepts what is well typed

The analysis of a statement succeeds if and only if the statement is derivable
from the frames that are visible from the cursor.  It then finds the type of the
statement, and the frames that are visible afterwards are those to which the
derivation leads.
-/

namespace Scriptlet

/-- A lawful forest with the cursor on one of its scopes. -/
structure Scoping.Lawful (s : Scoping) : Prop where
  forest : s.forest.Lawful
  cursor : ∃ scope, s.forest.get? s.cursor = some scope

theorem Scoping.Lawful.placed {s : Scoping} (h : s.Lawful) : s.Placed :=
  ⟨h.forest.numbered, h.cursor⟩

variable {s t : Scoping} {frames : Frames}

theorem Scoping.Lawful.steady (h : s.Lawful) (hsteady : s.Steady t) (hforest : t.forest.Lawful) :
    t.Lawful :=
  ⟨hforest, (hsteady.placed h.placed).cursor⟩

theorem Scoping.Lawful.inserted (h : s.Lawful) {scope : Scope}
    (hscope : s.forest.get? s.cursor = some scope) {name : String} {variant : Symbol.Variant}
    (hfree : scope.find? name = none)
    (hsuits : s.forest.Suits s.cursor (s.forest.newSymbol name variant)) (sort : String) :
    (s.inserted scope name variant sort).Lawful := by
  refine h.steady (steady_inserted h.placed scope name variant sort) ?_
  rw [Scoping.inserted, Forest.id_of_get? hscope]
  exact h.forest.withSymbol hscope hfree hsuits

theorem Forest.Denotes.isType (h : s.forest.Lawful) {id : SymbolId} {type : Ty}
    (hid : s.forest.Denotes id type) : s.forest.IsType id := by
  cases hid with
  | primitive kind => exact h.isType_typeId kind
  | function hfunction => exact hfunction.isType

/-! ## Frames -/

theorem Scoping.Shows.kept (h : s.Shows frames) (hs : s.Lawful) (hsteady : s.Steady t)
    (hkept : s.Kept t) : t.Shows frames := by
  obtain ⟨scope, hscope⟩ := hs.cursor
  rw [Shows, view_of_kept hs.forest.numbered hsteady.numbered hscope hkept hsteady.cursor]
  exact h.mono hsteady.grown

theorem Scoping.Shows.opened (h : s.Shows frames) (hs : s.Lawful) :
    (Analysis.opened s).Shows ([] :: frames) := by
  rw [Shows, Analysis.view_opened hs.placed]
  exact .cons .nil (h.mono (hs.forest.numbered.extends_withScope _ _))

theorem Scoping.Shows.exists_frame (h : s.Shows frames) (hs : s.Lawful) {scope : Scope}
    (hscope : s.forest.get? s.cursor = some scope) :
    ∃ frame outer, frames = frame :: outer ∧
      List.Forall₂ s.forest.Lists scope.symbols frame := by
  rw [Shows, view, Forest.chainIn_of_get? hs.forest.numbered hscope, List.map_cons] at h
  cases h with
  | cons hframe _ => exact ⟨_, _, rfl, hframe⟩

theorem Scoping.Shows.inserted {frame : List (String × Entry)} (h : s.Shows (frame :: frames))
    (hs : s.Lawful) {scope : Scope} (hscope : s.forest.get? s.cursor = some scope) (name : String)
    {variant : Symbol.Variant} {entry : Entry} (hentry : s.forest.Presents variant entry)
    (sort : String) :
    (s.inserted scope name variant sort).Shows ((frame ++ [(name, entry)]) :: frames) := by
  have hext := (steady_inserted hs.placed scope name variant sort).grown
  obtain ⟨env, hview, hafter⟩ := view_inserted hs.forest.numbered hscope name variant sort
  rw [Shows, hview] at h
  rw [Shows, hafter]
  cases h with
  | cons hframe hrest =>
      refine .cons (List.rel_append (hframe.imp fun _ _ h => h.mono hext) ?_) ?_
      · exact .cons ⟨rfl, hentry.mono hext⟩ .nil
      · exact Forest.Shows.mono hext hrest

/-! ## Names -/

theorem Scoping.Shows.find?_of_lookup (h : s.Shows frames) (hs : s.Lawful) {name : String}
    {symbol : Symbol} (hlookup : s.forest.lookup s.cursor name = .ok (some symbol)) :
    ∃ entry, frames.find? name = some entry ∧ s.forest.Presents symbol.variant entry := by
  obtain ⟨scope, hscope⟩ := hs.cursor
  rw [lookup_eq_resolve hscope, Except.ok.injEq] at hlookup
  have hfinds := h.finds name
  rw [hlookup] at hfinds
  generalize frames.find? name = found at hfinds ⊢
  cases hfinds with
  | some hpresents => exact ⟨_, rfl, hpresents⟩

theorem Scoping.Shows.lookup_of_find? (h : s.Shows frames) (hs : s.Lawful) {name : String}
    {entry : Entry} (hfind : frames.find? name = some entry) :
    ∃ symbol, s.forest.lookup s.cursor name = .ok (some symbol) ∧
      s.forest.Presents symbol.variant entry := by
  obtain ⟨scope, hscope⟩ := hs.cursor
  have hfinds := h.finds name
  rw [hfind] at hfinds
  rw [lookup_eq_resolve hscope]
  generalize s.view.resolve name = found at hfinds ⊢
  cases hfinds with
  | some hpresents => exact ⟨_, rfl, hpresents⟩

namespace Analysis

/-! ## Expressions -/

/-- The analysis of the expression finds its type if it has one or is derivable without one. -/
def ExpressionExact (tree : Tree) : Prop :=
  ∀ (s : Scoping) (frames : Frames), s.Lawful → s.Shows frames →
    (analyse tree).Ensures s
      (fun analysed t => t = s ∧ ∃ type, Option.Rel s.forest.Denotes analysed.type type ∧
        ∀ other, HasType frames tree other ↔ other = type)
      (fun _ t => t = s ∧ ∀ type, ¬ HasType frames tree type)

theorem ExpressionExact.valued {α : Type} {tree : Tree} (h : ExpressionExact tree)
    (hs : s.Lawful) (hframes : s.Shows frames) (role : String)
    {next : Analysed → SymbolId → Act Scoping α} {post : α → Scoping → Prop}
    {fail : Failure → Scoping → Prop}
    (hnext : ∀ value id type, s.forest.Denotes id type →
      (∀ other, HasType frames tree other ↔ other = some type) →
      (next value id).Ensures s post fail)
    (hfail : ∀ failure, (∀ type, ¬ HasType frames tree (some type)) → fail failure s) :
    (analyse tree >>= fun value => requireValue value role tree >>= next value).Ensures s post
      fail := by
  refine (h s frames hs hframes).bind ?_ ?_
  · rintro failure _ ⟨rfl, hnone⟩
    exact hfail failure fun type => hnone _
  rintro value _ ⟨rfl, type, hdenotes, htype⟩
  refine (requireValue_same value role tree _).bind ?_ ?_
  · rintro failure _ ⟨rfl, hvalue⟩
    rw [hvalue] at hdenotes
    cases hdenotes with
    | none => exact hfail failure fun other hother => by simpa using (htype _).1 hother
  · rintro id _ ⟨rfl, hvalue⟩
    rw [hvalue] at hdenotes
    cases hdenotes with
    | some hid => exact hnext value id _ hid htype

private theorem literal_exact (token : Token) (kind : Primitive.Kind) :
    ExpressionExact (.literal token kind) := by
  intro s frames _ _
  rw [analyse]
  refine Act.ensures_pure ⟨rfl, _, .some (.primitive kind), fun other => ⟨?_, ?_⟩⟩
  · rintro ⟨⟩
    rfl
  · rintro rfl
    exact .literal

private theorem reference_exact (name : Token) : ExpressionExact (.reference name) := by
  intro s frames hs hframes
  rw [analyse]
  refine (reference_same name s).mono ?_ ?_
  · rintro analysed _ ⟨rfl, symbol, id, hlookup, htype, rfl⟩
    obtain ⟨entry, hfind, hpresents⟩ := hframes.find?_of_lookup hs hlookup
    have hknown := hpresents.type?
    rw [htype] at hknown
    generalize hentry : entry.type? = known at hknown
    cases hknown with
    | @some _ type hdenotes =>
        refine ⟨rfl, _, .some hdenotes, fun other => ⟨?_, ?_⟩⟩
        · rintro (_ | ⟨hfind', hentry'⟩)
          rw [hfind, Option.some.injEq] at hfind'
          rw [← hentry', ← hfind', hentry]
        · rintro rfl
          exact .reference hfind hentry
  · rintro failure _ ⟨rfl, hnone⟩
    refine ⟨rfl, ?_⟩
    rintro _ (_ | ⟨hfind, hentry⟩)
    obtain ⟨symbol, hlookup, hpresents⟩ := hframes.lookup_of_find? hs hfind
    have hknown := hpresents.type?
    rw [hnone symbol hlookup, hentry] at hknown
    cases hknown

private theorem assign_exact {left right : Tree} {token : Token} (hright : ExpressionExact right) :
    ExpressionExact (.assign left right token) := by
  intro s frames hs hframes
  rw [analyse]
  refine (target_same left s).bind ?_ ?_
  · rintro failure _ ⟨rfl, hnone⟩
    refine ⟨rfl, ?_⟩
    rintro _ (_ | _ | @⟨name, _, _, _, hfind, -⟩)
    obtain ⟨symbol, hlookup, hpresents⟩ := hframes.lookup_of_find? hs hfind
    generalize hvariant : symbol.variant = variant at hpresents
    cases hpresents with
    | var _ => exact hnone name rfl symbol hlookup _ hvariant
  rintro ⟨name, symbolId, id⟩ _ ⟨rfl, rfl, symbol, hlookup, rfl, hvariant⟩
  obtain ⟨entry, hfind, hpresents⟩ := hframes.find?_of_lookup hs hlookup
  dsimp only at hvariant
  rw [hvariant] at hpresents
  cases hpresents with
  | @var _ type hid =>
      have hassign : ∀ other, HasType frames (.assign (.reference name) right token) other ↔
          other = none ∧ HasType frames right (some type) := by
        intro other
        constructor
        · rintro (_ | _ | ⟨hfind', hvalue⟩)
          dsimp only at hfind
          rw [hfind, Option.some.injEq, Entry.var.injEq] at hfind'
          exact ⟨rfl, hfind' ▸ hvalue⟩
        · rintro ⟨rfl, hvalue⟩
          exact .assign hfind hvalue
      refine hright.valued hs hframes _ ?_ ?_
      -- The analysis compares identities, the rule compares types; each determines the other.
      · intro value actual type' hactual hvalue
        by_cases heq : actual = id
        · subst heq
          simp only [if_true]
          refine Act.ensures_pure ⟨rfl, none, .none, fun other => ?_⟩
          rw [hassign, hvalue, Option.some.injEq]
          exact and_iff_left (hs.forest.denotes_unique hid hactual)
        · simp only [if_neg heq]
          refine (mismatch_same _ _ _ _ _).mono (fun _ _ h => h.elim) ?_
          rintro _ _ rfl
          refine ⟨rfl, fun other hother => heq ?_⟩
          obtain ⟨-, htype⟩ := (hassign other).1 hother
          rw [hvalue, Option.some.injEq] at htype
          exact hs.forest.denotes_injective hactual (htype ▸ hid)
      · intro failure hnone
        exact ⟨rfl, fun other hother => hnone _ ((hassign other).1 hother).2⟩

/-- The signature of a callee is that of its type. -/
theorem signature_exact (hs : s.forest.Lawful) {id : SymbolId} {type : Ty}
    (hid : s.forest.Denotes id type) (callee : Tree) :
    (signature callee id).Ensures s
      (fun found t => t = s ∧ ∃ parameters result, type = .function parameters result ∧
        List.Forall₂ s.forest.Denotes found.1 parameters ∧
        found.2 = result.map Primitive.Kind.typeId)
      (fun _ t => t = s ∧ ∀ parameters result, type ≠ .function parameters result) := by
  refine (signature_same callee id s).mono ?_ ?_
  · rintro found _ ⟨rfl, hsymbol⟩
    have hfunction := hs.isFunction_iff_typeSymbol.2 hsymbol
    rcases hid.cases_id with ⟨kind, rfl, -⟩ | ⟨_, parameters, result, hfunction', hall, rfl⟩
    · exact absurd hfunction (hs.not_isFunction_typeId kind)
    · obtain ⟨hparameters, hresult⟩ := hs.isFunction_inj hfunction hfunction'
      exact ⟨rfl, parameters, result, rfl, hparameters ▸ hall, hresult⟩
  · rintro failure _ ⟨rfl, hnone⟩
    refine ⟨rfl, fun parameters result heq => ?_⟩
    rcases hid.cases_id with ⟨kind, -, rfl⟩ | ⟨_, _, _, hfunction, -⟩
    · simp at heq
    · obtain ⟨symbol, hsymbol, hvariant⟩ := hs.isFunction_iff_typeSymbol.1 hfunction
      exact hnone symbol hsymbol _ _ hvariant

/-- The arguments are accepted if each of them has its parameter's type. -/
theorem analyseArguments_exact (hs : s.Lawful) (hframes : s.Shows frames) (callee : String)
    (position : Nat) {trees : List Tree} {ids : List SymbolId} {parameters : List Ty}
    (htrees : ∀ tree ∈ trees, ExpressionExact tree)
    (hids : List.Forall₂ s.forest.Denotes ids parameters) :
    (analyseArguments callee position trees ids).Ensures s
      (fun _ t => t = s ∧ ∀ pair ∈ trees.zip parameters, HasType frames pair.1 (some pair.2))
      (fun _ t => t = s ∧
        ¬ ∀ pair ∈ trees.zip parameters, HasType frames pair.1 (some pair.2)) := by
  induction hids generalizing position trees with
  | nil =>
      rw [analyseArguments.eq_def]
      cases trees with
      | nil => exact Act.ensures_pure ⟨rfl, by simp⟩
      | cons tree trees => exact Act.ensures_pure ⟨rfl, by simp⟩
  | @cons id type ids parameters hid _ ih =>
      cases trees with
      | nil =>
          rw [analyseArguments.eq_def]
          exact Act.ensures_pure ⟨rfl, by simp⟩
      | cons tree trees =>
          rw [List.forall_mem_cons] at htrees
          simp only [List.zip_cons_cons, List.forall_mem_cons]
          rw [analyseArguments]
          refine htrees.1.valued hs hframes _ ?_ ?_
          · intro value actual type' hactual hvalue
            by_cases heq : actual = id
            · subst heq
              simp only [if_true]
              have htype : HasType frames tree (some type) := by
                rw [hvalue, hs.forest.denotes_unique hid hactual]
              refine (ih (position + 1) htrees.2).bind ?_ ?_
              · rintro failure _ ⟨rfl, hnone⟩
                exact ⟨rfl, fun hall => hnone hall.2⟩
              · rintro nodes _ ⟨rfl, hall⟩
                exact Act.ensures_pure ⟨rfl, htype, hall⟩
            · simp only [if_neg heq]
              refine (mismatch_same _ _ _ _ _).mono (fun _ _ h => h.elim) ?_
              rintro _ _ rfl
              refine ⟨rfl, fun hall => heq ?_⟩
              have htype := hall.1
              rw [hvalue, Option.some.injEq] at htype
              exact hs.forest.denotes_injective hactual (htype ▸ hid)
          · intro failure hnone
            exact ⟨rfl, fun hall => hnone _ hall.1⟩

private theorem call_exact {callee : Tree} {arguments : List Tree} {token : Token}
    (hcallee : ExpressionExact callee) (harguments : ∀ tree ∈ arguments, ExpressionExact tree) :
    ExpressionExact (.call callee arguments token) := by
  intro s frames hs hframes
  rw [analyse]
  refine hcallee.valued hs hframes _ ?_ ?_
  · intro function id type hid htype
    refine (signature_exact hs.forest hid callee).bind ?_ ?_
    · rintro failure _ ⟨rfl, hnone⟩
      refine ⟨rfl, ?_⟩
      rintro _ (_ | _ | _ | ⟨hfunction, -⟩)
      rw [htype, Option.some.injEq] at hfunction
      exact hnone _ _ hfunction.symm
    rintro ⟨ids, found⟩ _ ⟨rfl, parameters, result, rfl, hids, rfl⟩
    have hcall : ∀ other, HasType frames (.call callee arguments token) other ↔
        other = result.map Ty.primitive ∧ arguments.length = parameters.length ∧
          ∀ pair ∈ arguments.zip parameters, HasType frames pair.1 (some pair.2) := by
      intro other
      constructor
      · rintro (_ | _ | _ | ⟨hfunction, hlength, hall⟩)
        rw [htype, Option.some.injEq, Ty.function.injEq] at hfunction
        obtain ⟨rfl, rfl⟩ := hfunction
        exact ⟨rfl, hlength, hall⟩
      · rintro ⟨rfl, hlength, hall⟩
        exact .call ((htype _).2 rfl) hlength hall
    by_cases hlength : arguments.length = ids.length
    · simp only [if_pos hlength]
      have hargs := analyseArguments_exact hs hframes callee.describe 1 harguments hids
      refine hargs.bind ?_ ?_
      · rintro failure _ ⟨rfl, hnone⟩
        exact ⟨rfl, fun other hother => hnone ((hcall other).1 hother).2.2⟩
      · rintro nodes _ ⟨rfl, hall⟩
        refine Act.ensures_pure ⟨rfl, result.map Ty.primitive, ?_, fun other => ?_⟩
        · cases result with
          | none => exact .none
          | some kind => exact .some (.primitive kind)
        · rw [hcall]
          exact and_iff_left ⟨hlength.trans hids.length_eq, hall⟩
    · simp only [if_neg hlength]
      refine Act.ensures_fail ⟨rfl, fun other hother => hlength ?_⟩
      exact ((hcall other).1 hother).2.1.trans hids.length_eq.symm
  · intro failure hnone
    refine ⟨rfl, ?_⟩
    rintro _ (_ | _ | _ | ⟨hfunction, -⟩)
    exact hnone _ hfunction

private theorem factor_exact {token : Token} {leaf : Tree} (h : Grammar.Factor token leaf) :
    ExpressionExact leaf := by
  cases h with
  | number | truth | text => exact literal_exact _ _
  | name => exact reference_exact _

theorem expression_exact {tokens : List Token} {tree : Tree} (h : Grammar.Expression tokens tree) :
    ExpressionExact tree := by
  refine @Grammar.Expression.rec
    (fun _ tree _ => ExpressionExact tree)
    (fun leaf _ tree _ => ExpressionExact leaf → ExpressionExact tree)
    (fun _ values _ => ∀ value ∈ values, ExpressionExact value)
    (fun _ values _ => ∀ value ∈ values, ExpressionExact value)
    ?intro ?nil ?assign ?call ?none ?some ?last ?trailing ?next tokens tree h
  case intro =>
    intro gap suffix token leaf tree _ hfactor _ ih
    exact ih (factor_exact hfactor)
  case nil =>
    intro tree hleaf
    exact hleaf
  case assign =>
    intro target value equals right _ _ ih _
    exact assign_exact ih
  case call =>
    intro callee tree values opening closing inside others _ _ _ _ ihInside ihOthers hcallee
    exact ihOthers (call_exact hcallee ihInside)
  case none => simp
  case some =>
    intro gap first after others value values _ _ _ _ ihFirst ihOthers
    exact List.forall_mem_cons.2 ⟨ihFirst, ihOthers⟩
  case last => simp
  case trailing => simp
  case next =>
    intro comma gap next after others value values _ _ _ _ _ ihNext ihOthers
    exact List.forall_mem_cons.2 ⟨ihNext, ihOthers⟩

/-! ## Statements -/

/-- The analysis accepts the statement if it is derivable and finds its type and the frames to which
its derivation leads.  In the global scope, where the function types are, a name must not look like
one of them. -/
def StatementExact (tree : Tree) : Prop :=
  ∀ (s : Scoping) (frames : Frames), s.Lawful → (s.cursor = Forest.globalId → tree.IsPlain) →
    s.Shows frames →
    (analyse tree).Ensures s
      (fun analysed t => t.forest.Lawful ∧ ∃ type after,
        Option.Rel t.forest.Denotes analysed.type type ∧ t.Shows after ∧
        ∀ type' after', Derives frames tree type' after' ↔ type' = type ∧ after' = after)
      (fun _ t => t.forest.Lawful ∧ ∀ type after, ¬ Derives frames tree type after)

def StatementsExact (trees : List Tree) : Prop :=
  ∀ (s : Scoping) (frames : Frames), s.Lawful → s.cursor ≠ Forest.globalId → s.Shows frames →
    (analyseAll trees).Ensures s
      (fun _ t => t.forest.Lawful ∧ ∃ after, t.Shows after ∧
        ∀ after', DerivesAll frames trees after' ↔ after' = after)
      (fun _ t => t.forest.Lawful ∧ ∀ after, ¬ DerivesAll frames trees after)

private theorem derives_expression {tree : Tree} (h : tree.IsOperand) {type : Option Ty}
    {after : Frames} :
    Derives frames tree type after ↔ HasType frames tree type ∧ after = frames := by
  constructor
  · rintro (htype | _ | _ | _ | _)
    · exact ⟨htype, rfl⟩
    all_goals exact h.elim
  · rintro ⟨htype, rfl⟩
    exact .expression htype

theorem ExpressionExact.statement {tree : Tree} (hexact : ExpressionExact tree)
    (h : tree.IsOperand) : StatementExact tree := by
  intro s frames hs _ hframes
  refine (hexact s frames hs hframes).mono ?_ ?_
  · rintro analysed _ ⟨rfl, type, hdenotes, htype⟩
    refine ⟨hs.forest, type, frames, hdenotes, hframes, fun type' after' => ?_⟩
    rw [derives_expression h, htype]
  · rintro failure _ ⟨rfl, hnone⟩
    refine ⟨hs.forest, fun type after hderives => ?_⟩
    exact hnone type ((derives_expression h).1 hderives).1

private theorem declare_exact {name : Token} {initializer : Tree}
    (h : ExpressionExact initializer) :
    StatementExact (.declare name initializer) := by
  intro s frames hs hplain hframes
  obtain ⟨scope, hscope⟩ := hs.cursor
  obtain ⟨frame, frames, rfl, hframe⟩ := hframes.exists_frame hs hscope
  rw [analyse]
  refine h.valued hs hframes _ ?_ ?_
  · intro value id type hid htype
    have hdeclare : ∀ type' after',
        Derives (frame :: frames) (.declare name initializer) type' after' ↔
          frame.lookup name.text = none ∧ type' = none ∧
            after' = (frame ++ [(name.text, .var type)]) :: frames := by
      intro type' after'
      constructor
      · rintro (⟨⟨⟩⟩ | ⟨hvalue, hfree⟩)
        rw [htype, Option.some.injEq] at hvalue
        exact ⟨hfree, rfl, by rw [hvalue]⟩
      · rintro ⟨hfree, rfl, rfl⟩
        exact .declare ((htype _).2 rfl) hfree
    have hfinds := Forest.finds_frame hframe name.text
    rw [← Scope.find?] at hfinds
    cases hfind : scope.find? name.text with
    | some existing =>
        obtain ⟨diagnostic, hon, -⟩ := Scoping.on_declare_taken hscope hfind (.var id) name.span
        refine .of_on_error (Act.on_bind_of_error hon _) ⟨hs.forest, ?_⟩
        intro type' after' hderives
        rw [((hdeclare type' after').1 hderives).1, hfind] at hfinds
        cases hfinds
    | none =>
        have hfree : frame.lookup name.text = none := by
          rw [hfind] at hfinds
          generalize frame.lookup name.text = found at hfinds ⊢
          cases hfinds
          rfl
        have hon := Scoping.on_declare hscope hfind (.var id) name.span
        -- Only next to the function types does it matter what the name looks like.
        have hsuits : s.forest.Suits s.cursor (s.forest.newSymbol name.text (.var id)) :=
          .var (hid.isType hs.forest) fun hglobal => hplain hglobal name.text rfl
        have hlawful := hs.inserted hscope hfind hsuits (Symbol.Variant.var id).sort
        refine .of_on_ok (Act.on_bind_of_ok hon _) ⟨hlawful.forest, none, _, .none,
          hframes.inserted hs hscope name.text (.var hid) _, fun type' after' => ?_⟩
        rw [hdeclare]
        exact and_iff_right hfree
  · intro failure hnone
    refine ⟨hs.forest, ?_⟩
    rintro _ _ (⟨⟨⟩⟩ | ⟨hvalue, -⟩)
    exact hnone _ hvalue

private theorem conditional_exact {condition body : Tree} {token : Token}
    (h : ExpressionExact condition)
    (hbody : StatementExact body) : StatementExact (.conditional condition body token) := by
  intro s frames hs hplain hframes
  rw [analyse]
  refine h.valued hs hframes _ ?_ ?_
  · intro test id type hid htype
    have hconditional : ∀ type' after',
        Derives frames (.conditional condition body token) type' after' ↔
          type = .primitive .truth ∧ type' = none ∧ ∃ type, Derives frames body type after' := by
      intro type' after'
      constructor
      · rintro (⟨⟨⟩⟩ | _ | _ | ⟨htruth, hderives⟩)
        rw [htype, Option.some.injEq] at htruth
        exact ⟨htruth.symm, rfl, _, hderives⟩
      · rintro ⟨rfl, rfl, _, hderives⟩
        exact .conditional ((htype _).2 rfl) hderives
    by_cases htruth : id = Primitive.Kind.truth.typeId
    · have htype' : type = .primitive .truth :=
        hs.forest.denotes_unique hid (htruth ▸ .primitive .truth)
      simp only [if_pos htruth]
      refine (hbody s frames hs hplain hframes).bind ?_ ?_
      · rintro failure t ⟨hforest, hnone⟩
        refine ⟨hforest, fun type' after' hderives => ?_⟩
        obtain ⟨-, -, _, hderives⟩ := (hconditional type' after').1 hderives
        exact hnone _ _ hderives
      · rintro branch t ⟨hforest, type', after, -, hafter, hderives⟩
        refine Act.ensures_pure ⟨hforest, none, after, .none, hafter, fun other after' => ?_⟩
        rw [hconditional]
        simp [htype', hderives]
    · simp only [if_neg htruth]
      have hnone : ∀ type' after',
          ¬ Derives frames (.conditional condition body token) type' after' := by
        intro type' after' hderives
        obtain ⟨rfl, -⟩ := (hconditional type' after').1 hderives
        exact htruth (hs.forest.denotes_injective hid (.primitive .truth))
      refine (typeName_same id s).bind ?_ ?_
      · rintro failure _ rfl
        exact ⟨hs.forest, hnone⟩
      · rintro actual _ rfl
        refine (spanOf_fail_same _ condition _).mono (fun _ _ h => h.elim) ?_
        rintro failure _ rfl
        exact ⟨hs.forest, hnone⟩
  · intro failure hnone
    refine ⟨hs.forest, ?_⟩
    rintro _ _ (⟨⟨⟩⟩ | _ | _ | ⟨htruth, -⟩)
    exact hnone _ htruth

private theorem debugPrint_exact {operand : Tree} {token : Token} (h : ExpressionExact operand) :
    StatementExact (.debugPrint operand token) := by
  intro s frames hs _ hframes
  rw [analyse]
  refine h.valued hs hframes _ ?_ ?_
  · intro value id type hid htype
    refine Act.ensures_pure ⟨hs.forest, none, frames, .none, hframes, fun type' after' => ⟨?_, ?_⟩⟩
    · rintro (⟨⟨⟩⟩ | _ | _ | _ | _)
      exact ⟨rfl, rfl⟩
    · rintro ⟨rfl, rfl⟩
      exact .debugPrint ((htype _).2 rfl)
  · intro failure hnone
    refine ⟨hs.forest, ?_⟩
    rintro _ _ (⟨⟨⟩⟩ | _ | _ | _ | ⟨hvalue⟩)
    exact hnone _ hvalue

/-- Statements are analysed one after the other, each in the frames to which the one before it
led. -/
theorem StatementsExact.of_all {trees : List Tree} (h : ∀ tree ∈ trees, StatementExact tree) :
    StatementsExact trees := by
  induction trees with
  | nil =>
      intro s frames hs _ hframes
      rw [analyseAll]
      refine Act.ensures_pure ⟨hs.forest, frames, hframes, fun after' => ⟨?_, ?_⟩⟩
      · rintro ⟨⟩
        rfl
      · rintro rfl
        exact .nil
  | cons tree trees ih =>
      rw [List.forall_mem_cons] at h
      intro s frames hs hinner hframes
      have hplain : s.cursor = Forest.globalId → tree.IsPlain :=
        fun hglobal => absurd hglobal hinner
      rw [analyseAll]
      refine ((h.1 s frames hs hplain hframes).and (stays_analyse tree s hs.placed)).bind ?_ ?_
      · rintro failure t ⟨⟨hforest, hnone⟩, -⟩
        refine ⟨hforest, ?_⟩
        rintro after (_ | ⟨hfirst, -⟩)
        exact hnone _ _ hfirst
      rintro first t ⟨⟨hforest, type, between, -, hbetween, hderives⟩, hstays, -⟩
      have hinner' : t.cursor ≠ Forest.globalId := by rwa [hstays.steady.cursor]
      refine (ih h.2 t between (hs.steady hstays.steady hforest) hinner' hbetween).bind ?_ ?_
      · rintro failure u ⟨hforest', hnone⟩
        refine ⟨hforest', ?_⟩
        rintro after (_ | ⟨hfirst, hrest⟩)
        obtain ⟨-, rfl⟩ := (hderives _ _).1 hfirst
        exact hnone _ hrest
      · rintro nodes u ⟨hforest', after, hafter, hall⟩
        refine Act.ensures_pure ⟨hforest', after, hafter, fun after' => ⟨?_, ?_⟩⟩
        · rintro (_ | ⟨hfirst, hrest⟩)
          obtain ⟨-, rfl⟩ := (hderives _ _).1 hfirst
          exact (hall _).1 hrest
        · rintro rfl
          exact .cons ((hderives _ _).2 ⟨rfl, rfl⟩) ((hall _).2 rfl)

theorem block_exact {statements : List Tree} {token : Option Token}
    (h : StatementsExact statements) : StatementExact (.block statements token) := by
  intro s frames hs _ hframes
  obtain ⟨scope, hscope⟩ := hs.cursor
  have hopened : (opened s).Lawful :=
    ⟨hs.forest.withScope hscope, (placed_opened hs.placed).cursor⟩
  have hinner : (opened s).cursor ≠ Forest.globalId :=
    (hs.forest.numbered.ne_nextScope hs.forest.global_eq).symm
  unfold Act.Ensures
  rw [on_analyse_block hs.placed]
  -- What the statements declare is gone from view once the block is left, so their frames do not
  -- appear in what holds after it.
  have hbody : (Act.closing Scoping.leave (analyseAll statements)).Ensures (opened s)
      (fun _ u => u.forest.Lawful ∧ u.Shows frames ∧
        ∃ after, DerivesAll ([] :: frames) statements after)
      (fun _ u => u.forest.Lawful ∧ ∀ after, ¬ DerivesAll ([] :: frames) statements after) := by
    apply ((h (opened s) _ hopened hinner (hframes.opened hs)).and
      (stays_analyseAll statements (opened s) (placed_opened hs.placed))).closing
    · rintro nodes t ⟨⟨hforest, after, -, hall⟩, hstays, -⟩
      obtain ⟨u, scope, hleave, hsame, hsteady, hkept, -⟩ :=
        leave_opened hs.placed hstays.steady hstays.elsewhere
      exact .of_on_ok hleave ⟨hsame ▸ hforest, hframes.kept hs hsteady hkept, after,
        (hall after).2 rfl⟩
    · rintro failure t ⟨⟨hforest, hnone⟩, hstays⟩
      obtain ⟨u, scope, hleave, hsame, -⟩ :=
        leave_opened hs.placed hstays.steady hstays.elsewhere
      exact .of_on_ok hleave ⟨hsame ▸ hforest, hnone⟩
  refine hbody.bind ?_ ?_
  · rintro failure u ⟨hforest, hnone⟩
    refine ⟨hforest, ?_⟩
    rintro _ _ (⟨⟨⟩⟩ | _ | ⟨hall⟩)
    exact hnone _ hall
  · rintro nodes u ⟨hforest, hshows, after, hall⟩
    refine Act.ensures_pure ⟨hforest, none, frames, .none, hshows, fun type' after' => ⟨?_, ?_⟩⟩
    · rintro (⟨⟨⟩⟩ | _ | _)
      exact ⟨rfl, rfl⟩
    · rintro ⟨rfl, rfl⟩
      exact .block hall

/-- The analysis accepts the statements that are derivable. -/
theorem statement_exact {tokens : List Token} {trees : List Tree}
    (h : Grammar.Statements tokens trees) : ∀ tree ∈ trees, StatementExact tree := by
  refine @Grammar.Statements.rec
    (fun _ tree _ => StatementExact tree)
    (fun _ trees _ => ∀ tree ∈ trees, StatementExact tree)
    (fun _ trees _ => ∀ tree ∈ trees, StatementExact tree)
    ?declaration ?block ?conditional ?debugPrint ?expression ?none ?some ?last ?trailing ?next
    tokens trees h
  case declaration =>
    intro keyword name equals gap right value _ _ _ _ hright
    exact declare_exact (expression_exact hright)
  case block =>
    intro opening closing inside trees _ _ _ ih
    exact block_exact (.of_all ih)
  case conditional =>
    intro keyword test gap inner condition body _ htest _ _ ih
    exact conditional_exact (expression_exact htest) ih
  case debugPrint =>
    intro marker inner operand _ hinner
    exact debugPrint_exact (expression_exact hinner)
  case expression =>
    intro tokens tree hexpression
    exact (expression_exact hexpression).statement hexpression.isOperand
  case none => simp
  case some =>
    intro gap first others tree trees _ _ _ ihFirst ihOthers
    exact List.forall_mem_cons.2 ⟨ihFirst, ihOthers⟩
  case last => simp
  case trailing => simp
  case next =>
    intro separator next others tree trees _ _ _ ihNext ihOthers
    exact List.forall_mem_cons.2 ⟨ihNext, ihOthers⟩

end Analysis

end Scriptlet
