import Scriptlet.Proofs.Analysis.Cursor
import Scriptlet.Proofs.Syntax.Shape
/-!
# Derivations of analyses

What an accepted analysis did, as a relation between a tree, its annotated tree, and the
scopes before and after it.  Terms read the scopes only.  Of the statements, a declaration
adds a symbol to the scope at the cursor, and a block opens a scope and closes it again.
A statement that is refused leaves the scopes as they are that were there before it, since
its own declaration comes last.
-/

namespace Scriptlet

theorem Scoping.resolve_of_lookup {s : Scoping} {name : String} {found : Option Symbol}
    (h : s.forest.lookup s.cursor name = .ok found) : s.view.resolve name = found := by
  cases hget : s.forest.get? s.cursor with
  | some scope =>
      rw [lookup_eq_resolve hget, Except.ok.injEq] at h
      exact h
  | none =>
      have hfails : ∃ failure, s.forest.lookup s.cursor name = .error failure :=
        ⟨_, by rw [Forest.lookup, Forest.chain, Forest.get, hget]; rfl⟩
      obtain ⟨failure, hfails⟩ := hfails
      rw [h] at hfails
      cases hfails

theorem Resolves.isExpression {env : Env} {tree : Tree} {node : Annotated}
    (h : Resolves env tree node) : node.IsExpression := by
  cases h <;> trivial

theorem exists_mem_zip {trees : List Tree} {nodes : List Annotated} {node : Annotated}
    (hlength : trees.length = nodes.length) (h : node ∈ nodes) :
    ∃ tree, (tree, node) ∈ trees.zip nodes := by
  have hzip : (trees.zip nodes).map Prod.snd = nodes := List.map_snd_zip (Nat.le_of_eq hlength.symm)
  rw [← hzip] at h
  obtain ⟨⟨tree, _⟩, hmem, rfl⟩ := List.mem_map.1 h
  exact ⟨tree, hmem⟩

namespace Analysis

variable {s t u : Scoping}

/-! ## Terms -/

/-- The analysis resolves the names of the tree and leaves the scopes as they are, also if it
refuses the tree. -/
def Resolving (tree : Tree) : Prop :=
  ∀ s, (analyse tree).Ensures s
    (fun analysed t => t = s ∧ Resolves s.view tree analysed.node) (fun _ t => t = s)

private theorem arguments_resolving {trees : List Tree} (htrees : ∀ tree ∈ trees, Resolving tree)
    (callee : String) (position : Nat) (parameters : List SymbolId)
    (hlength : trees.length = parameters.length) (s : Scoping) :
    (analyseArguments callee position trees parameters).Ensures s
      (fun nodes t => t = s ∧ trees.length = nodes.length ∧
        ∀ pair ∈ trees.zip nodes, Resolves s.view pair.1 pair.2)
      (fun _ t => t = s) := by
  induction trees generalizing position parameters with
  | nil =>
      rw [analyseArguments.eq_def]
      exact Act.ensures_pure ⟨rfl, rfl, by simp⟩
  | cons tree trees ih =>
      rw [List.forall_mem_cons] at htrees
      cases parameters with
      | nil => cases hlength
      | cons parameter parameters =>
          rw [analyseArguments]
          refine (htrees.1 s).bind (fun _ _ h => h) ?_
          rintro value _ ⟨rfl, hvalue⟩
          refine (requireValue_same value _ tree _).bind (fun _ _ h => h.1) ?_
          rintro actual _ ⟨rfl, -⟩
          by_cases heq : actual = parameter
          · rw [if_pos heq]
            have hrest := ih htrees.2 (position + 1) parameters (Nat.succ.inj hlength)
            refine hrest.bind (fun _ _ h => h) ?_
            rintro nodes _ ⟨rfl, hnodes, hpairs⟩
            refine Act.ensures_pure ⟨rfl, congrArg (· + 1) hnodes, ?_⟩
            rw [List.zip_cons_cons, List.forall_mem_cons]
            exact ⟨hvalue, hpairs⟩
          · rw [if_neg heq]
            exact (mismatch_same _ _ _ _ _).mono (fun _ _ h => h.elim) (fun _ _ h => h)

theorem term_resolving {tree : Tree} (h : tree.IsTerm) : Resolving tree := by
  induction h with
  | literal =>
      intro s
      rw [analyse]
      exact Act.ensures_pure ⟨rfl, .literal⟩
  | reference =>
      intro s
      rw [analyse]
      refine (reference_same _ s).mono ?_ (fun _ _ h => h.1)
      rintro analysed _ ⟨rfl, symbol, type, hlookup, htype, rfl⟩
      exact ⟨rfl, .reference (Scoping.resolve_of_lookup hlookup) rfl htype⟩
  | @assign left right token _ _ _ ih =>
      intro s
      rw [analyse]
      refine (target_same left s).bind (fun _ _ h => h.1) ?_
      rintro ⟨name, id, type⟩ _ ⟨rfl, rfl, symbol, hlookup, hid, hvariant⟩
      refine (ih _).bind (fun _ _ h => h) ?_
      rintro value _ ⟨rfl, hvalue⟩
      refine (requireValue_same value _ right _).bind (fun _ _ h => h.1) ?_
      rintro actual _ ⟨rfl, -⟩
      by_cases heq : actual = type
      · simp only [if_pos heq]
        exact Act.ensures_pure
          ⟨rfl, .assign (Scoping.resolve_of_lookup hlookup) hid hvariant hvalue⟩
      · simp only [if_neg heq]
        exact (mismatch_same _ _ _ _ _).mono (fun _ _ h => h.elim) (fun _ _ h => h)
  | @call callee arguments token _ _ ihCallee ihArguments =>
      intro s
      rw [analyse]
      refine (ihCallee s).bind (fun _ _ h => h) ?_
      rintro function _ ⟨rfl, hfunction⟩
      refine (requireValue_same function _ callee _).bind (fun _ _ h => h.1) ?_
      rintro type _ ⟨rfl, -⟩
      refine (signature_same callee type _).bind (fun _ _ h => h.1) ?_
      rintro ⟨parameters, result⟩ _ ⟨rfl, -⟩
      by_cases hlength : arguments.length = parameters.length
      · simp only [if_pos hlength]
        refine (arguments_resolving ihArguments callee.describe 1 parameters hlength _).bind
          (fun _ _ h => h) ?_
        rintro nodes _ ⟨rfl, hnodes, hpairs⟩
        exact Act.ensures_pure ⟨rfl, .call hfunction hnodes hpairs⟩
      · simp only [if_neg hlength]
        exact Act.ensures_fail rfl

/-! ## Statements -/

mutual

/-- An accepted tree, its annotated tree, and the scopes before and after it. -/
inductive Elaborates : Scoping → Tree → Annotated → Scoping → Prop where
  | term {s : Scoping} {tree : Tree} {node : Annotated} :
      Resolves s.view tree node → Elaborates s tree node s
  | declare {s : Scoping} {scope : Scope} {name : Token} {type : SymbolId} {initializer : Tree}
      {node : Annotated} :
      Resolves s.view initializer node → s.forest.get? s.cursor = some scope →
      scope.find? name.text = none →
      Elaborates s (.declare name initializer)
        (.declare (s.forest.newSymbol name.text (.var type)).id node name)
        (s.inserted scope name.text (.var type) (Symbol.Variant.var type).sort)
  | block {s t u : Scoping} {statements : List Tree} {nodes : List Annotated}
      {token : Option Token} :
      ElaboratesAll (opened s) statements nodes t → Scoping.leave.on t = (.ok (), u) →
      Elaborates s (.block statements token) (.block nodes s.forest.nextScope token) u
  | conditional {s t : Scoping} {condition body : Tree} {test branch : Annotated}
      {token : Token} :
      Resolves s.view condition test → Elaborates s body branch t →
      Elaborates s (.conditional condition body token) (.conditional test branch token) t
  | debugPrint {s : Scoping} {operand : Tree} {node : Annotated} {token : Token} :
      Resolves s.view operand node →
      Elaborates s (.debugPrint operand token) (.debugPrint node token) s

inductive ElaboratesAll : Scoping → List Tree → List Annotated → Scoping → Prop where
  | nil {s : Scoping} : ElaboratesAll s [] [] s
  | cons {s t u : Scoping} {tree : Tree} {trees : List Tree} {node : Annotated}
      {nodes : List Annotated} :
      Elaborates s tree node t → ElaboratesAll t trees nodes u →
      ElaboratesAll s (tree :: trees) (node :: nodes) u

end

/-- What is known of a block when its statements were accepted: the cursor is back, the scopes
around the block are what they were, and the scope of the block is right below the cursor. -/
structure Closes (s t u : Scoping) : Prop where
  forest : u.forest = t.forest
  steady : s.Steady u
  kept : s.Kept u
  scope : ∃ scope, u.forest.get? s.forest.nextScope = some scope ∧
    scope.parent = some s.cursor ∧ t.view = scope.symbols :: s.view

theorem closes_of_leave (hs : s.Placed) (h : (opened s).Stays t)
    (hleave : Scoping.leave.on t = (.ok (), u)) : Closes s t u := by
  obtain ⟨left, scope, hon, hforest, hsteady, hkept, hget, hparent, hview⟩ :=
    leave_opened hs h.steady h.elsewhere
  rw [hleave, Prod.mk.injEq] at hon
  obtain ⟨-, rfl⟩ := hon
  exact ⟨hforest, hsteady, hkept, scope, hget, hparent, hview⟩

mutual

theorem Elaborates.stays {s t : Scoping} {tree : Tree} {node : Annotated}
    (h : Elaborates s tree node t) (hs : s.Placed) : s.Stays t := by
  match h with
  | .term _ | .debugPrint _ => exact .refl hs
  | .declare _ hscope _ =>
      exact ⟨Scoping.steady_inserted hs _ _ _ _, Scoping.local_inserted hscope _ _ _⟩
  | .block hall hleave =>
      have hcloses := closes_of_leave hs (hall.stays (placed_opened hs)) hleave
      exact ⟨hcloses.steady, hcloses.kept.local⟩
  | .conditional _ hbody => exact hbody.stays hs

theorem ElaboratesAll.stays {s t : Scoping} {trees : List Tree} {nodes : List Annotated}
    (h : ElaboratesAll s trees nodes t) (hs : s.Placed) : s.Stays t := by
  match h with
  | .nil => exact .refl hs
  | .cons hfirst hrest =>
      have hstays := hfirst.stays hs
      exact hstays.trans (hrest.stays (hstays.steady.placed hs))

end

def Elaborating (tree : Tree) : Prop :=
  ∀ s : Scoping, s.Placed → (analyse tree).Ensures s
    (fun analysed t => Elaborates s tree analysed.node t) (fun _ t => s.Kept t)

theorem all_elaborating {trees : List Tree} (htrees : ∀ tree ∈ trees, Elaborating tree)
    (hs : s.Placed) :
    (analyseAll trees).Ensures s (fun nodes t => ElaboratesAll s trees nodes t)
      (fun _ _ => True) := by
  induction trees generalizing s with
  | nil =>
      rw [analyseAll]
      exact Act.ensures_pure .nil
  | cons tree trees ih =>
      rw [List.forall_mem_cons] at htrees
      rw [analyseAll]
      refine (htrees.1 s hs).bind (fun _ _ _ => trivial) ?_
      intro first t hfirst
      refine (ih htrees.2 ((hfirst.stays hs).steady.placed hs)).bind (fun _ _ _ => trivial) ?_
      intro nodes u hrest
      exact Act.ensures_pure (.cons hfirst hrest)

private theorem block_elaborating {statements : List Tree} {token : Option Token}
    (hstatements : ∀ statement ∈ statements, Elaborating statement) :
    Elaborating (.block statements token) := by
  intro s hs
  have hopened := placed_opened hs
  have hbody := (all_elaborating hstatements hopened).and
    (stays_analyseAll statements (opened s) hopened)
  have hclosed : (Act.closing Scoping.leave (analyseAll statements)).Ensures (opened s)
      (fun nodes u => ∃ t, ElaboratesAll (opened s) statements nodes t ∧
        Scoping.leave.on t = (.ok (), u))
      (fun _ u => s.Kept u) := by
    refine hbody.closing ?_ ?_
    · rintro nodes t ⟨hall, hstays, -⟩
      obtain ⟨u, _, hleave, -⟩ := leave_opened hs hstays.steady hstays.elsewhere
      exact .of_on_ok hleave ⟨t, hall, hleave⟩
    · rintro failure t ⟨-, hstays⟩
      obtain ⟨u, _, hleave, -, -, hkept, -⟩ := leave_opened hs hstays.steady hstays.elsewhere
      exact .of_on_ok hleave hkept
  unfold Act.Ensures
  rw [on_analyse_block hs]
  refine hclosed.bind (fun _ _ h => h) ?_
  rintro nodes u ⟨t, hall, hleave⟩
  exact Act.ensures_pure (.block hall hleave)

private theorem declare_elaborating {name : Token} {initializer : Tree} (h : initializer.IsTerm) :
    Elaborating (.declare name initializer) := by
  intro s hs
  rw [analyse]
  refine (term_resolving h s).bind (fun _ _ ht => ht ▸ .refl s) ?_
  rintro value _ ⟨rfl, hvalue⟩
  refine (requireValue_same value _ initializer _).bind (fun _ _ ht => ht.1 ▸ .refl _) ?_
  rintro type s ⟨rfl, -⟩
  obtain ⟨scope, hscope⟩ := hs.cursor
  cases hfind : scope.find? name.text with
  | some existing =>
      obtain ⟨diagnostic, hon, -⟩ :=
        Scoping.on_declare_taken hscope hfind (.var type) name.span
      exact .of_on_error (Act.on_bind_of_error hon _) (.refl s)
  | none =>
      have hon := Scoping.on_declare hscope hfind (.var type) name.span
      unfold Act.Ensures
      rw [Act.on_bind_of_ok hon, Act.on_pure]
      exact .declare hvalue hscope hfind

theorem clause_elaborating {tree : Tree} (h : tree.IsClause) : Elaborating tree := by
  induction h with
  | term hterm =>
      intro s hs
      refine (term_resolving hterm s).mono ?_ (fun _ _ ht => ht ▸ .refl s)
      rintro analysed _ ⟨rfl, hresolves⟩
      exact .term hresolves
  | declare hterm => exact declare_elaborating hterm
  | block _ ih => exact block_elaborating ih
  | @conditional condition body token hterm _ ih =>
      intro s hs
      rw [analyse]
      refine (term_resolving hterm s).bind (fun _ _ ht => ht ▸ .refl s) ?_
      rintro test _ ⟨rfl, htest⟩
      refine (requireValue_same test _ condition _).bind (fun _ _ ht => ht.1 ▸ .refl _) ?_
      rintro type s ⟨rfl, -⟩
      by_cases htruth : type = Primitive.Kind.truth.typeId
      · rw [if_pos htruth]
        exact (ih s hs).bind (fun _ _ h => h)
          fun _ _ hbody => Act.ensures_pure (.conditional htest hbody)
      · rw [if_neg htruth]
        refine (typeName_same type s).bind (fun _ _ ht => ht ▸ .refl s) ?_
        rintro actual _ rfl
        exact (spanOf_fail_same _ condition _).mono (fun _ _ h => h.elim)
          (fun _ _ ht => ht ▸ .refl _)
  | @debugPrint operand token hterm =>
      intro s hs
      rw [analyse]
      refine (term_resolving hterm s).bind (fun _ _ ht => ht ▸ .refl s) ?_
      rintro value _ ⟨rfl, hvalue⟩
      refine (requireValue_same value _ operand _).bind (fun _ _ ht => ht.1 ▸ .refl _) ?_
      rintro type s ⟨rfl, -⟩
      exact Act.ensures_pure (.debugPrint hvalue)

end Analysis

end Scriptlet
