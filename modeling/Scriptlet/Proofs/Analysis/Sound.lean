import Scriptlet.Proofs.Analysis.Blocks
import Scriptlet.Proofs.Analysis.Typing
/-!
# Soundness of the analysis

Analysing a statement of a source gives a typed tree or a fault of the semantic
kinds, never an internal one.  The symbols of the tree are those that its names
stand for in what is visible from the cursor.  Expressions leave the scopes as
they are.  A statement changes no other scope than the one at the cursor, and a
refused one changes no scope that was there before.
-/

namespace Scriptlet

/-- The faults that the analysis may find: the semantic kind and those below it. -/
def Fault.IsSemantic (fault : Fault) : Prop :=
  fault.kind = .semantic ∨ fault.kind.parent? = some .semantic ∨
    fault.kind.parent?.bind Fault.Kind.parent? = some .semantic

def Failure.IsSemantic (failure : Failure) : Prop :=
  ∃ diagnostic, failure = .fault diagnostic ∧ diagnostic.fault.IsSemantic

theorem Failure.isSemantic_located {fault : Fault} (h : fault.IsSemantic) (span : Span) :
    (Failure.located fault span).IsSemantic :=
  ⟨_, rfl, h⟩

namespace Scoping

/-- A sound forest with the cursor on one of its scopes of variables. -/
structure Sound (s : Scoping) : Prop where
  forest : s.forest.Sound
  cursor : ∃ scope, s.forest.get? s.cursor = some scope
  inner : s.cursor ≠ Forest.globalId

variable {s t u : Scoping}

theorem Grows.refl (h : s.forest.Sound) : s.Grows s :=
  ⟨h, Forest.Extends.refl _, rfl⟩

theorem Grows.trans (h : s.Grows t) (h' : t.Grows u) : s.Grows u :=
  ⟨h'.sound, h.grown.trans h'.grown, h'.cursor.trans h.cursor⟩

theorem Grows.soundScoping (h : s.Grows t) (hs : s.Sound) : t.Sound := by
  obtain ⟨scope, hscope⟩ := hs.cursor
  obtain ⟨scope', hscope', -⟩ := h.grown _ scope hscope
  exact ⟨h.sound, ⟨scope', h.cursor ▸ hscope'⟩, h.cursor ▸ hs.inner⟩

theorem Sound.placed (h : s.Sound) : s.Placed :=
  ⟨h.forest.numbered, h.cursor⟩

theorem Grows.steady (h : s.Grows t) : s.Steady t :=
  ⟨h.sound.numbered, h.grown, h.cursor⟩

theorem Grows.of_steady {r : Scoping} (h : r.Grows t) (hforest : u.forest = t.forest)
    (hsteady : s.Steady u) : s.Grows u :=
  ⟨hforest ▸ h.sound, hsteady.grown, hsteady.cursor⟩

end Scoping

namespace Analysis

open Annotated (Typed)

variable {s : Scoping}

/-- What analysing an expression gives: the scopes stay as they are. -/
def ExpressionSound (tree : Tree) : Prop :=
  ∀ s : Scoping, s.Sound →
    (analyse tree).Ensures s
      (fun analysed t => t = s ∧ Typed s.forest s.cursor analysed.node analysed.type ∧
        Resolves s.view tree analysed.node)
      (fun failure t => t = s ∧ failure.IsSemantic)

def StatementSound (tree : Tree) : Prop :=
  ∀ s : Scoping, s.Sound →
    (analyse tree).Ensures s
      (fun analysed t => s.Grows t ∧ s.Local t ∧
        Typed t.forest t.cursor analysed.node analysed.type ∧
        Scopes s.view tree analysed.node t.view)
      (fun failure t => s.Grows t ∧ s.Kept t ∧ failure.IsSemantic)

/-! ## Steps of the analysis -/

private theorem exists_span {tree : Tree} (h : tree.IsExpression) :
    ∃ span, tree.span = .ok span := by
  induction h with
  | literal => exact ⟨_, rfl⟩
  | reference => exact ⟨_, rfl⟩
  | assign _ _ ih => exact ih
  | call _ _ ih => exact ih

theorem fail_ensures {α : Type} {fault : Fault} (hfault : fault.IsSemantic) {tree : Tree}
    (htree : tree.IsExpression) (post : α → Scoping → Prop) :
    (spanOf tree >>= Act.fail fault : Act Scoping α).Ensures s post
      (fun failure t => t = s ∧ failure.IsSemantic) := by
  obtain ⟨span, hspan⟩ := exists_span htree
  have hon : (spanOf tree).on s = (.ok span, s) := by
    rw [spanOf, Act.ofHost, hspan]
    rfl
  unfold Act.Ensures
  rw [Act.on_bind_of_ok hon, Act.on_fail]
  exact ⟨rfl, Failure.isSemantic_located hfault span⟩

theorem requireValue_ensures (analysed : Analysed) (role : String) {tree : Tree}
    (htree : tree.IsExpression) :
    (requireValue analysed role tree).Ensures s (fun type t => t = s ∧ analysed.type = some type)
      (fun failure t => t = s ∧ failure.IsSemantic) := by
  unfold requireValue
  cases analysed.type with
  | some type => exact Act.ensures_pure ⟨rfl, rfl⟩
  | none => exact fail_ensures (.inr (.inr rfl)) htree _

private theorem mismatch_ensures {α : Type} (hs : s.forest.Sound) {expected actual : SymbolId}
    (hexpected : s.forest.IsType expected) (hactual : s.forest.IsType actual) {tree : Tree}
    (htree : tree.IsExpression) (context : String) (post : α → Scoping → Prop) :
    (mismatch expected actual tree context : Act Scoping α).Ensures s post
      (fun failure t => t = s ∧ failure.IsSemantic) := by
  obtain ⟨expectedName, hexpected⟩ := hexpected
  obtain ⟨actualName, hactual⟩ := hactual
  unfold mismatch Act.Ensures
  rw [Act.on_bind_of_ok (Scoping.on_typeName hs.lawful hexpected),
    Act.on_bind_of_ok (Scoping.on_typeName hs.lawful hactual)]
  exact fail_ensures (.inr (.inr rfl)) htree post

private theorem reference_ensures (hs : s.Sound) (name : Token) :
    (reference name).Ensures s
      (fun analysed t => t = s ∧ Typed s.forest s.cursor analysed.node analysed.type ∧
        Resolves s.view (.reference name) analysed.node)
      (fun failure t => t = s ∧ failure.IsSemantic) := by
  obtain ⟨scope, hscope⟩ := hs.cursor
  have hlookup := Scoping.lookup_eq_resolve hscope name.text
  unfold reference Act.Ensures
  rw [Act.on_bind_of_ok (by rw [Scoping.on_resolve, hlookup])]
  cases hfind : s.view.resolve name.text with
  | none => exact ⟨rfl, Failure.isSemantic_located (.inr (.inr rfl)) _⟩
  | some symbol =>
      rw [hfind] at hlookup
      dsimp only
      cases htype : symbol.variant.type? with
      | none => exact ⟨rfl, Failure.isSemantic_located (.inl rfl) _⟩
      | some type =>
          obtain ⟨hvisible, hname⟩ := Forest.visible_of_lookup hscope hlookup
          exact ⟨rfl, .reference hvisible hname htype, .reference hfind rfl htype⟩

private theorem target_ensures (hs : s.Sound) {tree : Tree} (htree : tree.IsExpression) :
    (target tree).Ensures s
      (fun found t => t = s ∧ tree = .reference found.1 ∧ ∃ symbol,
        s.view.resolve found.1.text = some symbol ∧ s.forest.Visible s.cursor symbol ∧
        symbol.id = found.2.1 ∧ symbol.variant = .var found.2.2)
      (fun failure t => t = s ∧ failure.IsSemantic) := by
  cases htree with
  | @reference name =>
      obtain ⟨scope, hscope⟩ := hs.cursor
      have hlookup := Scoping.lookup_eq_resolve hscope name.text
      unfold target Act.Ensures
      simp only
      rw [Act.on_bind_of_ok (by rw [Scoping.on_resolve, hlookup])]
      cases hfind : s.view.resolve name.text with
      | none => exact ⟨rfl, Failure.isSemantic_located (.inr (.inr rfl)) _⟩
      | some symbol =>
          rw [hfind] at hlookup
          dsimp only
          have hvisible := (Forest.visible_of_lookup hscope hlookup).1
          cases hvariant : symbol.variant with
          | var type => exact ⟨rfl, rfl, symbol, hfind, hvisible, rfl, hvariant⟩
          | primitive => exact ⟨rfl, Failure.isSemantic_located (.inr (.inr rfl)) _⟩
          | function => exact ⟨rfl, Failure.isSemantic_located (.inr (.inr rfl)) _⟩
          | native => exact ⟨rfl, Failure.isSemantic_located (.inr (.inr rfl)) _⟩
  | literal hspells => exact fail_ensures (.inr (.inr rfl)) (.literal hspells) _
  | assign htarget hvalue => exact fail_ensures (.inr (.inr rfl)) (.assign htarget hvalue) _
  | call hcallee harguments => exact fail_ensures (.inr (.inr rfl)) (.call hcallee harguments) _

private theorem signature_ensures (hs : s.forest.Sound) {callee : Tree}
    (hcallee : callee.IsExpression) {type : SymbolId} (htype : s.forest.IsType type) :
    (signature callee type).Ensures s
      (fun found t => t = s ∧ s.forest.IsFunction type found.1 found.2)
      (fun failure t => t = s ∧ failure.IsSemantic) := by
  obtain ⟨name, hname⟩ := htype
  obtain ⟨symbol, hmem, hsymbol, hid, -⟩ := hs.lawful.typeSymbol_of_names hname
  unfold signature Act.Ensures
  rw [Act.on_bind_of_ok (by rw [Scoping.on_typeSymbol, hsymbol])]
  cases hvariant : symbol.variant with
  | function arguments result => exact ⟨rfl, symbol, hmem, hid, hvariant⟩
  | primitive => exact fail_ensures (.inr (.inr rfl)) hcallee _
  | var => exact fail_ensures (.inr (.inr rfl)) hcallee _
  | native => exact fail_ensures (.inr (.inr rfl)) hcallee _

/-! ## Expressions -/

private theorem analyseArguments_ensures (hs : s.Sound) (callee : String) (position : Nat)
    {trees : List Tree} {parameters : List SymbolId} (hlength : trees.length = parameters.length)
    (htrees : ∀ tree ∈ trees, tree.IsExpression ∧ ExpressionSound tree)
    (hparameters : ∀ parameter ∈ parameters, s.forest.IsType parameter) :
    (analyseArguments callee position trees parameters).Ensures s
      (fun nodes t => t = s ∧ nodes.length = parameters.length ∧
        (∀ pair ∈ nodes.zip parameters, Typed s.forest s.cursor pair.1 (some pair.2)) ∧
        ∀ pair ∈ trees.zip nodes, Resolves s.view pair.1 pair.2)
      (fun failure t => t = s ∧ failure.IsSemantic) := by
  induction trees generalizing position parameters with
  | nil =>
      cases parameters with
      | nil =>
          rw [analyseArguments]
          · exact Act.ensures_pure ⟨rfl, rfl, by simp, by simp⟩
          · simp
      | cons => simp at hlength
  | cons tree trees ih =>
      cases parameters with
      | nil => simp at hlength
      | cons parameter parameters =>
          rw [List.forall_mem_cons] at htrees hparameters
          rw [analyseArguments]
          refine (htrees.1.2 s hs).bind (fun _ _ h => h) ?_
          rintro value _ ⟨rfl, hvalue, hresolves⟩
          refine (requireValue_ensures value _ htrees.1.1).bind (fun _ _ h => h) ?_
          rintro actual t ⟨rfl, hactual⟩
          rw [hactual] at hvalue
          by_cases heq : actual = parameter
          · subst heq
            rw [if_pos rfl]
            have hrest := ih (position + 1) (by simpa using hlength) htrees.2 hparameters.2
            refine hrest.bind (fun _ _ h => h) ?_
            rintro nodes u ⟨rfl, hnodes, hpairs, hnames⟩
            refine Act.ensures_pure ⟨rfl, by simp [hnodes], ?_⟩
            rw [List.zip_cons_cons, List.forall_mem_cons, List.zip_cons_cons, List.forall_mem_cons]
            exact ⟨⟨hvalue, hpairs⟩, hresolves, hnames⟩
          · rw [if_neg heq]
            exact mismatch_ensures hs.forest hparameters.1 (hvalue.isType hs.forest) htrees.1.1 _ _

theorem expressionSound {tree : Tree} (h : tree.IsExpression) : ExpressionSound tree := by
  induction h with
  | literal hspells =>
      intro s _
      rw [analyse]
      exact Act.ensures_pure ⟨rfl, .literal hspells, .literal⟩
  | reference =>
      intro s hs
      rw [analyse]
      exact reference_ensures hs _
  | @assign left right token hleft hright _ ih =>
      intro s hs
      rw [analyse]
      refine (target_ensures hs hleft).bind (fun _ _ h => h) ?_
      rintro ⟨name, id, type⟩ _ ⟨rfl, rfl, symbol, hresolve, hvisible, rfl, hvariant⟩
      refine (ih _ hs).bind (fun _ _ h => h) ?_
      rintro value _ ⟨rfl, hvalue, hresolves⟩
      refine (requireValue_ensures value _ hright).bind (fun _ _ h => h) ?_
      rintro actual _ ⟨rfl, hactual⟩
      rw [hactual] at hvalue
      by_cases heq : actual = type
      · subst heq
        rw [if_pos rfl]
        exact Act.ensures_pure
          ⟨rfl, .assign hvisible hvariant hvalue, .assign hresolve rfl hvariant hresolves⟩
      · rw [if_neg heq]
        obtain ⟨scope, hscope, hsymbol⟩ := hvisible
        have htype := hs.forest.lawful.isType_of_type?
          (Forest.mem_scopes_of_mem_chainIn hscope) hsymbol (by rw [hvariant]; rfl)
        exact mismatch_ensures hs.forest htype (hvalue.isType hs.forest) hright _ _
  | @call callee arguments token hcallee harguments ihCallee ihArguments =>
      intro s hs
      rw [analyse]
      refine (ihCallee s hs).bind (fun _ _ h => h) ?_
      rintro function _ ⟨rfl, hfunction, hcalleeNames⟩
      refine (requireValue_ensures function _ hcallee).bind (fun _ _ h => h) ?_
      rintro type _ ⟨rfl, htype⟩
      rw [htype] at hfunction
      have hknown := hfunction.isType hs.forest
      refine (signature_ensures hs.forest hcallee hknown).bind (fun _ _ h => h) ?_
      rintro ⟨parameters, result⟩ _ ⟨rfl, hsignature⟩
      dsimp only at hsignature ⊢
      by_cases hlength : arguments.length = parameters.length
      · rw [if_pos hlength]
        have harguments := analyseArguments_ensures hs callee.describe 1 hlength
          (fun tree htree => ⟨harguments tree htree, ihArguments tree htree⟩)
          (hs.forest.lawful.isType_parameters hsignature)
        refine harguments.bind (fun _ _ h => h) ?_
        rintro nodes _ ⟨rfl, hnodes, hpairs, hnames⟩
        exact Act.ensures_pure ⟨rfl, .call hfunction hsignature hnodes hpairs,
          .call hcalleeNames (hlength.trans hnodes.symm) hnames⟩
      · rw [if_neg hlength]
        exact Act.ensures_fail ⟨rfl, Failure.isSemantic_located (.inr (.inr rfl)) _⟩

/-! ## Statements -/

theorem unchanged (hs : s.Sound) (failure : Failure) (t : Scoping)
    (h : t = s ∧ failure.IsSemantic) : s.Grows t ∧ s.Kept t ∧ failure.IsSemantic := by
  rw [h.1]
  exact ⟨.refl hs.forest, .refl s, h.2⟩

theorem StatementSound.of_expression {tree : Tree} (h : ExpressionSound tree) :
    StatementSound tree := by
  intro s hs
  refine (h s hs).mono ?_ (unchanged hs)
  rintro analysed _ ⟨rfl, htyped, hresolves⟩
  exact ⟨.refl hs.forest, (Scoping.Kept.refl _).local, htyped, .expression hresolves⟩

private theorem analyseAll_ensures {trees : List Tree}
    (htrees : ∀ tree ∈ trees, StatementSound tree) (hs : s.Sound) :
    (analyseAll trees).Ensures s
      (fun nodes t => s.Grows t ∧ s.Local t ∧ ScopesAll s.view trees nodes t.view ∧
        ∃ types : List (Option SymbolId), nodes.length = types.length ∧
          ∀ pair ∈ nodes.zip types, Typed t.forest t.cursor pair.1 pair.2)
      (fun failure t => s.Grows t ∧ s.Local t ∧ failure.IsSemantic) := by
  induction trees generalizing s with
  | nil =>
      rw [analyseAll]
      exact Act.ensures_pure
        ⟨.refl hs.forest, (Scoping.Kept.refl s).local, .nil, [], rfl, by simp⟩
  | cons tree trees ih =>
      rw [List.forall_mem_cons] at htrees
      rw [analyseAll]
      refine (htrees.1 s hs).bind ?_ ?_
      · rintro failure t ⟨hgrows, hkept, hfailure⟩
        exact ⟨hgrows, hkept.local, hfailure⟩
      · rintro first t ⟨hgrows, hlocal, hfirst, hscopes⟩
        have ht := hgrows.soundScoping hs
        refine (ih htrees.2 ht).bind ?_ ?_
        · rintro failure u ⟨hgrows', hlocal', hfailure⟩
          exact ⟨hgrows.trans hgrows', hlocal.trans hlocal' hgrows.cursor, hfailure⟩
        · rintro nodes u ⟨hgrows', hlocal', hrest, types, hlength, hpairs⟩
          refine Act.ensures_pure ⟨hgrows.trans hgrows', hlocal.trans hlocal' hgrows.cursor,
            .cons hscopes hrest, first.type :: types, by simp [hlength], ?_⟩
          rw [List.zip_cons_cons, List.forall_mem_cons]
          obtain ⟨scope, hscope⟩ := ht.cursor
          refine ⟨?_, hpairs⟩
          rw [hgrows'.cursor]
          exact hfirst.mono hgrows'.grown ht.forest.numbered hgrows'.sound.numbered hscope

private theorem sound_opened (hs : s.Sound) : (opened s).Sound := by
  obtain ⟨scope, hscope⟩ := hs.cursor
  exact ⟨hs.forest.withScope hscope, ⟨_, Forest.get?_withScope_self _ _⟩,
    (hs.forest.numbered.ne_nextScope hs.forest.lawful.global_eq).symm⟩

theorem block_sound {statements : List Tree} {token : Option Token}
    (hstatements : ∀ statement ∈ statements, StatementSound statement) :
    StatementSound (.block statements token) := by
  intro s hs
  obtain ⟨scope, hscope⟩ := hs.cursor
  unfold Act.Ensures
  rw [on_analyse_block hs.placed]
  have hbody : (Act.closing Scoping.leave (analyseAll statements)).Ensures (opened s)
      (fun nodes u => s.Grows u ∧ s.Kept u ∧
        ∃ (inner : Scope) (types : List (Option SymbolId)),
          ScopesAll ([] :: s.view) statements nodes (inner.symbols :: s.view) ∧
          u.forest.get? s.forest.nextScope = some inner ∧ inner.parent = some s.cursor ∧
          nodes.length = types.length ∧
          ∀ pair ∈ nodes.zip types, Typed u.forest s.forest.nextScope pair.1 pair.2)
      (fun failure u => s.Grows u ∧ s.Kept u ∧ failure.IsSemantic) := by
    apply (analyseAll_ensures hstatements (sound_opened hs)).closing
    · rintro nodes t ⟨hgrows, hlocal, hscopes, types, hlength, hpairs⟩
      obtain ⟨u, inner, hleave, hforest, hsteady, hkept, hget, hparent, hview⟩ :=
        leave_opened hs.placed hgrows.steady hlocal
      rw [view_opened hs.placed, hview] at hscopes
      refine .of_on_ok hleave
        ⟨hgrows.of_steady hforest hsteady, hkept, inner, types, hscopes, hget, hparent, hlength, ?_⟩
      rw [hforest]
      rw [hgrows.cursor] at hpairs
      exact hpairs
    · rintro failure t ⟨hgrows, hlocal, hfailure⟩
      obtain ⟨u, inner, hleave, hforest, hsteady, hkept, -⟩ :=
        leave_opened hs.placed hgrows.steady hlocal
      exact .of_on_ok hleave ⟨hgrows.of_steady hforest hsteady, hkept, hfailure⟩
  refine hbody.bind (fun _ _ h => h) ?_
  rintro nodes u ⟨hgrows, hkept, inner, types, hscopes, hget, hparent, hlength, hpairs⟩
  have hview : u.view = s.view :=
    Scoping.view_of_kept hs.forest.numbered hgrows.sound.numbered hscope hkept hgrows.cursor
  refine Act.ensures_pure ⟨hgrows, hkept.local, ?_, ?_⟩
  · rw [hgrows.cursor]
    exact .block hget hparent hlength hpairs
  · rw [hview]
    exact .block hscopes

/-- A declaration that is accepted adds a symbol that is not in view yet. -/
theorem scopes_inserted (hs : s.Sound) {scope : Scope}
    (hscope : s.forest.get? s.cursor = some scope) {name : Token}
    (hfree : scope.find? name.text = none) {initializer : Tree} {node : Annotated}
    (hresolves : Resolves s.view initializer node) (type : SymbolId) :
    Scopes s.view (.declare name initializer)
      (.declare (s.forest.newSymbol name.text (.var type)).id node name)
      (s.inserted scope name.text (.var type) (Symbol.Variant.var type).sort).view := by
  obtain ⟨env, hview, hafter⟩ := Scoping.view_inserted hs.forest.numbered hscope name.text
    (.var type) (Symbol.Variant.var type).sort
  rw [hafter]
  have hfresh : ∀ frame ∈ s.view, ∀ other ∈ frame,
      other.id ≠ (s.forest.newSymbol name.text (.var type)).id := by
    intro frame hframe other hother heq
    obtain ⟨owner, howner, rfl⟩ := Scoping.mem_view hframe
    have hlt := hs.forest.minted owner howner other hother
    rw [heq] at hlt
    exact absurd hlt (Nat.lt_irrefl _)
  rw [hview] at hresolves hfresh ⊢
  refine .declare hresolves rfl rfl rfl ?_ hfresh
  intro other hother heq
  have hne := List.find?_eq_none.1 hfree other hother
  exact hne (decide_eq_true heq)

private theorem declare_sound {name : Token} {initializer : Tree} (h : initializer.IsExpression) :
    StatementSound (.declare name initializer) := by
  intro s hs
  obtain ⟨scope, hscope⟩ := hs.cursor
  rw [analyse]
  refine (expressionSound h s hs).bind (unchanged hs) ?_
  rintro value _ ⟨rfl, hvalue, hresolves⟩
  refine (requireValue_ensures value _ h).bind (unchanged hs) ?_
  rintro type s ⟨rfl, htype⟩
  rw [htype] at hvalue
  cases hfind : scope.find? name.text with
  | some existing =>
      obtain ⟨diagnostic, hon, hfault⟩ :=
        Scoping.on_declare_taken hscope hfind (.var type) name.span
      unfold Act.Ensures
      rw [Act.on_bind_of_error hon]
      refine ⟨.refl hs.forest, .refl _, diagnostic, rfl, ?_⟩
      rw [hfault]
      exact .inr (.inr rfl)
  | none =>
      have hid : scope.id = s.cursor := Forest.id_of_get? hscope
      have hfits : s.forest.Fits s.cursor (s.forest.newSymbol name.text (.var type)) :=
        .var hs.inner (hvalue.isType hs.forest)
      have hsound := hs.forest.withSymbol hscope hfind hfits
      have hext : s.forest.Extends (s.forest.withSymbol s.cursor
          (s.forest.newSymbol name.text (.var type))) := Forest.extends_withSymbol _ _
      have hscopes := scopes_inserted hs hscope hfind hresolves type
      unfold Act.Ensures
      rw [Act.on_bind_of_ok (Scoping.on_declare hscope hfind _ _), Act.on_pure]
      refine ⟨?_, ?_, ?_, hscopes⟩
      · rw [Scoping.inserted, hid]
        exact ⟨hsound, hext, rfl⟩
      · exact Scoping.local_inserted hscope _ _ _
      · rw [Scoping.inserted, hid]
        refine .declare (Forest.get?_withSymbol_self hscope _)
          (List.mem_append_right _ (List.mem_singleton_self _)) rfl ?_
        exact hvalue.mono hext hs.forest.numbered hsound.numbered hscope

theorem statementSound {tree : Tree} (h : tree.IsStatement) : StatementSound tree := by
  induction h with
  | expression h => exact .of_expression (expressionSound h)
  | declare h => exact declare_sound h
  | block _ ih => exact block_sound ih
  | @conditional condition body token hcondition _ ih =>
      intro s hs
      rw [analyse]
      refine (expressionSound hcondition s hs).bind (unchanged hs) ?_
      rintro test _ ⟨rfl, htest, hresolves⟩
      refine (requireValue_ensures test _ hcondition).bind (unchanged hs) ?_
      rintro type s ⟨rfl, htype⟩
      rw [htype] at htest
      obtain ⟨scope, hscope⟩ := hs.cursor
      by_cases htruth : type = Primitive.Kind.truth.typeId
      · subst htruth
        rw [if_pos rfl]
        refine (ih s hs).bind (fun _ _ h => h) ?_
        rintro branch t ⟨hgrows, hlocal, hbranch, hscopes⟩
        refine Act.ensures_pure
          ⟨hgrows, hlocal, .conditional ?_ hbranch, .conditional hresolves hscopes⟩
        rw [hgrows.cursor]
        exact htest.mono hgrows.grown hs.forest.numbered hgrows.sound.numbered hscope
      · rw [if_neg htruth]
        obtain ⟨name, hname⟩ := htest.isType hs.forest
        unfold Act.Ensures
        rw [Act.on_bind_of_ok (Scoping.on_typeName hs.forest.lawful hname)]
        exact (fail_ensures (.inr (.inr rfl)) hcondition _).mono (fun _ _ h => h) (unchanged hs)
  | @debugPrint operand token hoperand =>
      intro s hs
      rw [analyse]
      refine (expressionSound hoperand s hs).bind (unchanged hs) ?_
      rintro value _ ⟨rfl, hvalue, hresolves⟩
      refine (requireValue_ensures value _ hoperand).bind (unchanged hs) ?_
      rintro type s ⟨rfl, htype⟩
      rw [htype] at hvalue
      exact Act.ensures_pure ⟨.refl hs.forest, (Scoping.Kept.refl s).local, .debugPrint hvalue,
        .debugPrint hresolves⟩

end Analysis

end Scriptlet
