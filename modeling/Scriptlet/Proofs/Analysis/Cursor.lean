import Scriptlet.Proofs.Analysis.Blocks
/-!
# The cursor of the analysis

The analysis of a tree, accepted or refused, ends with the cursor where it was.
In the annotated tree every block bears a scope right below the one in which it
stands, so that executing it can come back in the same way.
-/

namespace Scriptlet

/-- Every block bears a scope right below the scope in which it stands. -/
inductive Annotated.Nested (forest : Forest) : ScopeId → Annotated → Prop where
  | block {outer inner : ScopeId} {scope : Scope} {nodes : List Annotated}
      {token : Option Token} :
      forest.get? inner = some scope → scope.parent = some outer →
      (∀ node ∈ nodes, Nested forest inner node) → Nested forest outer (.block nodes inner token)
  | literal {scope : ScopeId} {token : Token} {kind : Primitive.Kind} :
      Nested forest scope (.literal token kind)
  | reference {scope : ScopeId} {symbol : SymbolId} {token : Token} :
      Nested forest scope (.reference symbol token)
  | declare {scope : ScopeId} {symbol : SymbolId} {initializer : Annotated} {token : Token} :
      Nested forest scope initializer → Nested forest scope (.declare symbol initializer token)
  | assign {scope : ScopeId} {symbol : SymbolId} {value : Annotated} {token : Token} :
      Nested forest scope value → Nested forest scope (.assign symbol value token)
  | call {scope : ScopeId} {callee : Annotated} {arguments : List Annotated} {token : Token} :
      Nested forest scope callee → (∀ argument ∈ arguments, Nested forest scope argument) →
      Nested forest scope (.call callee arguments token)
  | conditional {scope : ScopeId} {condition body : Annotated} {token : Token} :
      Nested forest scope condition → Nested forest scope body →
      Nested forest scope (.conditional condition body token)
  | debugPrint {scope : ScopeId} {operand : Annotated} {token : Token} :
      Nested forest scope operand → Nested forest scope (.debugPrint operand token)

theorem Annotated.Nested.mono {forest grown : Forest} {scope : ScopeId} {node : Annotated}
    (h : Nested forest scope node) (hext : forest.Extends grown) : Nested grown scope node := by
  induction h with
  | block hinner hparent _ ih =>
      obtain ⟨scope', hget', hparent', -⟩ := hext _ _ hinner
      exact .block hget' (hparent'.trans hparent) ih
  | literal => exact .literal
  | reference => exact .reference
  | declare _ ih => exact .declare ih
  | assign _ ih => exact .assign ih
  | call _ _ ihCallee ihArguments => exact .call ihCallee ihArguments
  | conditional _ _ ihCondition ihBody => exact .conditional ihCondition ihBody
  | debugPrint _ ih => exact .debugPrint ih

/-- The cursor did not move, and no scope changed but the one that it stands on. -/
structure Scoping.Stays (s t : Scoping) : Prop where
  steady : s.Steady t
  elsewhere : s.Local t

theorem Scoping.Stays.refl {s : Scoping} (hs : s.Placed) : s.Stays s :=
  ⟨hs.steady, (Scoping.Kept.refl s).local⟩

theorem Scoping.Stays.trans {s t u : Scoping} (h : s.Stays t) (h' : t.Stays u) : s.Stays u :=
  ⟨h.steady.trans h'.steady, h.elsewhere.trans h'.elsewhere h.steady.cursor⟩

/-- A declaration leaves the other scopes alone, also one that is refused. -/
theorem Scoping.stays_declare {s : Scoping} (hs : s.Placed) (name : String)
    (variant : Symbol.Variant) (span : Span) :
    (declare name variant span).Ensures s (fun _ t => s.Stays t) (fun _ t => s.Stays t) := by
  obtain ⟨scope, hscope⟩ := hs.cursor
  cases hfind : scope.find? name with
  | some existing =>
      obtain ⟨diagnostic, hon, -⟩ := on_declare_taken hscope hfind variant span
      exact .of_on_error hon (.refl hs)
  | none =>
      exact .of_on_ok (on_declare hscope hfind variant span)
        ⟨steady_inserted hs scope name variant _, local_inserted hscope name variant _⟩

namespace Analysis

open Annotated (Nested)

variable {s t u : Scoping}

/-! ## Steps that leave the scopes alone -/

theorem spanOf_fail_same {α : Type} (fault : Fault) (tree : Tree) (s : Scoping) :
    (spanOf tree >>= Act.fail fault : Act Scoping α).Ensures s (fun _ _ => False)
      (fun _ t => t = s) := by
  unfold spanOf Act.ofHost
  cases tree.span with
  | ok span => exact Act.ensures_fail rfl
  | error error => exact .of_on_error (Act.on_bind_of_error (Act.on_ofExcept _ s) _) rfl

theorem requireValue_same (analysed : Analysed) (role : String) (tree : Tree) (s : Scoping) :
    (requireValue analysed role tree).Ensures s (fun type t => t = s ∧ analysed.type = some type)
      (fun _ t => t = s ∧ analysed.type = none) := by
  unfold requireValue
  cases analysed.type with
  | some type => exact Act.ensures_pure ⟨rfl, rfl⟩
  | none => exact (spanOf_fail_same _ tree s).mono (fun _ _ h => h.elim) (fun _ _ h => ⟨h, rfl⟩)

theorem typeName_same (id : SymbolId) (s : Scoping) :
    (Scoping.typeName id).Ensures s (fun _ t => t = s) (fun _ t => t = s) := by
  unfold Scoping.typeName Act.Ensures
  cases hsymbol : s.forest.typeSymbol id with
  | ok symbol => rw [Act.on_bind_of_ok (by rw [Scoping.on_typeSymbol, hsymbol]), Act.on_pure]
  | error failure => rw [Act.on_bind_of_error (by rw [Scoping.on_typeSymbol, hsymbol])]

theorem mismatch_same {α : Type} (expected actual : SymbolId) (tree : Tree) (context : String)
    (s : Scoping) :
    (mismatch expected actual tree context : Act Scoping α).Ensures s (fun _ _ => False)
      (fun _ t => t = s) := by
  unfold mismatch
  refine (typeName_same expected s).bind (fun _ _ h => h) ?_
  rintro expectedName _ rfl
  refine (typeName_same actual _).bind (fun _ _ h => h) ?_
  rintro actualName _ rfl
  exact spanOf_fail_same _ tree _

theorem reference_same (name : Token) (s : Scoping) :
    (reference name).Ensures s
      (fun analysed t => t = s ∧ ∃ symbol type,
        s.forest.lookup s.cursor name.text = .ok (some symbol) ∧
        symbol.variant.type? = some type ∧ analysed = ⟨.reference symbol.id name, some type⟩)
      (fun _ t => t = s ∧ ∀ symbol, s.forest.lookup s.cursor name.text = .ok (some symbol) →
        symbol.variant.type? = none) := by
  unfold reference Act.Ensures
  cases hlookup : s.forest.lookup s.cursor name.text with
  | error failure =>
      rw [Act.on_bind_of_error (by rw [Scoping.on_resolve, hlookup])]
      exact ⟨rfl, by simp⟩
  | ok found =>
      rw [Act.on_bind_of_ok (by rw [Scoping.on_resolve, hlookup])]
      cases found with
      | none => exact ⟨rfl, by simp⟩
      | some symbol =>
          dsimp only
          cases htype : symbol.variant.type? with
          | none => exact ⟨rfl, by simpa using htype⟩
          | some type => exact ⟨rfl, symbol, type, rfl, htype, rfl⟩

theorem target_same (tree : Tree) (s : Scoping) :
    (target tree).Ensures s
      (fun found t => t = s ∧ tree = .reference found.1 ∧ ∃ symbol,
        s.forest.lookup s.cursor found.1.text = .ok (some symbol) ∧ symbol.id = found.2.1 ∧
        symbol.variant = .var found.2.2)
      (fun _ t => t = s ∧ ∀ name, tree = .reference name → ∀ symbol,
        s.forest.lookup s.cursor name.text = .ok (some symbol) →
        ∀ type, symbol.variant ≠ .var type) := by
  cases tree with
  | reference name =>
      unfold target Act.Ensures
      simp only
      cases hlookup : s.forest.lookup s.cursor name.text with
      | error failure =>
          rw [Act.on_bind_of_error (by rw [Scoping.on_resolve, hlookup])]
          exact ⟨rfl, by simp [hlookup]⟩
      | ok found =>
          rw [Act.on_bind_of_ok (by rw [Scoping.on_resolve, hlookup])]
          cases found with
          | none => exact ⟨rfl, by simp [hlookup]⟩
          | some symbol =>
              dsimp only
              cases hvariant : symbol.variant with
              | var type => exact ⟨rfl, rfl, symbol, hlookup, rfl, hvariant⟩
              | primitive => exact ⟨rfl, by simp [hlookup, hvariant]⟩
              | function => exact ⟨rfl, by simp [hlookup, hvariant]⟩
              | native => exact ⟨rfl, by simp [hlookup, hvariant]⟩
  | _ =>
      exact (spanOf_fail_same _ _ s).mono (fun _ _ h => h.elim) (fun _ _ h => ⟨h, by simp⟩)

theorem signature_same (callee : Tree) (type : SymbolId) (s : Scoping) :
    (signature callee type).Ensures s
      (fun found t => t = s ∧ ∃ symbol, s.forest.typeSymbol type = .ok symbol ∧
        symbol.variant = .function found.1 found.2)
      (fun _ t => t = s ∧ ∀ symbol, s.forest.typeSymbol type = .ok symbol →
        ∀ parameters result, symbol.variant ≠ .function parameters result) := by
  unfold signature Act.Ensures
  cases hsymbol : s.forest.typeSymbol type with
  | error failure =>
      rw [Act.on_bind_of_error (by rw [Scoping.on_typeSymbol, hsymbol])]
      exact ⟨rfl, by simp⟩
  | ok symbol =>
      rw [Act.on_bind_of_ok (by rw [Scoping.on_typeSymbol, hsymbol])]
      have hfail := spanOf_fail_same (α := List SymbolId × Option SymbolId)
        (.notCallable callee.describe symbol.name) callee s
      cases hvariant : symbol.variant with
      | function parameters result => exact ⟨rfl, symbol, rfl, hvariant⟩
      | _ => exact hfail.mono (fun _ _ h => h.elim) (fun _ _ h => ⟨h, by simp [hvariant]⟩)

/-! ## Trees -/

mutual

/-- The analysis leaves the cursor where it was and nests the blocks of a tree. -/
theorem stays_analyse : (tree : Tree) → (s : Scoping) → s.Placed →
    (analyse tree).Ensures s
      (fun analysed t => s.Stays t ∧ Nested t.forest s.cursor analysed.node) (fun _ t => s.Stays t)
  | .block statements token, s, hs => by
      unfold Act.Ensures
      rw [on_analyse_block hs]
      have hbody : (Act.closing Scoping.leave (analyseAll statements)).Ensures (opened s)
          (fun nodes u => s.Stays u ∧ ∃ scope, u.forest.get? s.forest.nextScope = some scope ∧
            scope.parent = some s.cursor ∧
            ∀ node ∈ nodes, Nested u.forest s.forest.nextScope node)
          (fun _ u => s.Stays u) := by
        apply (stays_analyseAll statements (opened s) (placed_opened hs)).closing
        · rintro nodes t ⟨hstays, hnodes⟩
          obtain ⟨u, scope, hleave, hforest, hsteady, hkept, hget, hparent, -⟩ :=
            leave_opened hs hstays.steady hstays.elsewhere
          refine .of_on_ok hleave ⟨⟨hsteady, hkept.local⟩, scope, hget, hparent, ?_⟩
          rw [hforest]
          exact hnodes
        · intro failure t hstays
          obtain ⟨u, scope, hleave, -, hsteady, hkept, -⟩ :=
            leave_opened hs hstays.steady hstays.elsewhere
          exact .of_on_ok hleave ⟨hsteady, hkept.local⟩
      refine hbody.bind (fun _ _ h => h) ?_
      rintro nodes u ⟨hstays, scope, hget, hparent, hnodes⟩
      exact Act.ensures_pure ⟨hstays, .block hget hparent hnodes⟩
  | .literal token kind, s, hs => by
      rw [analyse]
      exact Act.ensures_pure ⟨.refl hs, .literal⟩
  | .reference name, s, hs => by
      rw [analyse]
      refine (reference_same name s).mono ?_ ?_
      · rintro analysed _ ⟨rfl, symbol, type, -, -, rfl⟩
        exact ⟨.refl hs, .reference⟩
      · rintro _ _ ⟨rfl, -⟩
        exact .refl hs
  | .declare name initializer, s, hs => by
      rw [analyse]
      refine (stays_analyse initializer s hs).bind (fun _ _ h => h) ?_
      rintro value t ⟨hstays, hvalue⟩
      have ht := hstays.steady.placed hs
      refine (requireValue_same value _ initializer t).bind (fun _ _ h => h.1 ▸ hstays) ?_
      rintro type _ ⟨rfl, -⟩
      refine (Scoping.stays_declare ht name.text (.var type) name.span).bind
        (fun _ _ h => hstays.trans h) ?_
      intro symbol u hstays'
      exact Act.ensures_pure
        ⟨hstays.trans hstays', .declare (hvalue.mono hstays'.steady.grown)⟩
  | .assign left right token, s, hs => by
      rw [analyse]
      have hrefl : s.Stays s := .refl hs
      refine (target_same left s).bind (fun _ _ h => h.1 ▸ hrefl) ?_
      rintro ⟨name, symbol, type⟩ _ ⟨rfl, -⟩
      refine (stays_analyse right _ hs).bind (fun _ _ h => h) ?_
      rintro value t ⟨hstays, hvalue⟩
      refine (requireValue_same value _ right t).bind (fun _ _ h => h.1 ▸ hstays) ?_
      rintro actual _ ⟨rfl, -⟩
      by_cases heq : actual = type
      · simp only [if_pos heq]
        exact Act.ensures_pure ⟨hstays, .assign hvalue⟩
      · simp only [if_neg heq]
        exact (mismatch_same _ _ _ _ _).mono (fun _ _ h => h.elim) (fun _ _ h => h ▸ hstays)
  | .call callee arguments token, s, hs => by
      rw [analyse]
      refine (stays_analyse callee s hs).bind (fun _ _ h => h) ?_
      rintro function t ⟨hstays, hfunction⟩
      refine (requireValue_same function _ callee t).bind (fun _ _ h => h.1 ▸ hstays) ?_
      rintro type _ ⟨rfl, -⟩
      refine (signature_same callee type _).bind (fun _ _ h => h.1 ▸ hstays) ?_
      rintro ⟨parameters, result⟩ _ ⟨rfl, -⟩
      by_cases hlength : arguments.length = parameters.length
      · simp only [if_pos hlength]
        refine (stays_analyseArguments callee.describe 1 arguments parameters _
          (hstays.steady.placed hs)).bind (fun _ _ h => hstays.trans h) ?_
        rintro nodes u ⟨hstays', hnodes⟩
        rw [hstays.steady.cursor] at hnodes
        exact Act.ensures_pure
          ⟨hstays.trans hstays', .call (hfunction.mono hstays'.steady.grown) hnodes⟩
      · simp only [if_neg hlength]
        exact Act.ensures_fail hstays
  | .conditional condition body token, s, hs => by
      rw [analyse]
      refine (stays_analyse condition s hs).bind (fun _ _ h => h) ?_
      rintro test t ⟨hstays, htest⟩
      refine (requireValue_same test _ condition t).bind (fun _ _ h => h.1 ▸ hstays) ?_
      rintro type _ ⟨rfl, -⟩
      by_cases htruth : type = Primitive.Kind.truth.typeId
      · rw [if_pos htruth]
        refine (stays_analyse body _ (hstays.steady.placed hs)).bind
          (fun _ _ h => hstays.trans h) ?_
        rintro branch u ⟨hstays', hbranch⟩
        rw [hstays.steady.cursor] at hbranch
        exact Act.ensures_pure
          ⟨hstays.trans hstays', .conditional (htest.mono hstays'.steady.grown) hbranch⟩
      · rw [if_neg htruth]
        refine (typeName_same type _).bind (fun _ _ h => h ▸ hstays) ?_
        rintro actual _ rfl
        exact (spanOf_fail_same _ condition _).mono (fun _ _ h => h.elim) (fun _ _ h => h ▸ hstays)
  | .debugPrint operand token, s, hs => by
      rw [analyse]
      refine (stays_analyse operand s hs).bind (fun _ _ h => h) ?_
      rintro value t ⟨hstays, hvalue⟩
      refine (requireValue_same value _ operand t).bind (fun _ _ h => h.1 ▸ hstays) ?_
      rintro type _ ⟨rfl, -⟩
      exact Act.ensures_pure ⟨hstays, .debugPrint hvalue⟩
  | .foreign sort, s, hs => by
      rw [analyse]
      exact Act.ensures_throw (.refl hs)

theorem stays_analyseAll : (trees : List Tree) → (s : Scoping) → s.Placed →
    (analyseAll trees).Ensures s
      (fun nodes t => s.Stays t ∧ ∀ node ∈ nodes, Nested t.forest s.cursor node)
      (fun _ t => s.Stays t)
  | [], s, hs => by
      rw [analyseAll]
      exact Act.ensures_pure ⟨.refl hs, by simp⟩
  | tree :: trees, s, hs => by
      rw [analyseAll]
      refine (stays_analyse tree s hs).bind (fun _ _ h => h) ?_
      rintro first t ⟨hstays, hfirst⟩
      refine (stays_analyseAll trees t (hstays.steady.placed hs)).bind
        (fun _ _ h => hstays.trans h) ?_
      rintro nodes u ⟨hstays', hnodes⟩
      rw [hstays.steady.cursor] at hnodes
      exact Act.ensures_pure ⟨hstays.trans hstays',
        List.forall_mem_cons.2 ⟨hfirst.mono hstays'.steady.grown, hnodes⟩⟩

private theorem stays_analyseArguments (callee : String) (position : Nat) :
    (trees : List Tree) → (parameters : List SymbolId) → (s : Scoping) → s.Placed →
    (analyseArguments callee position trees parameters).Ensures s
      (fun nodes t => s.Stays t ∧ ∀ node ∈ nodes, Nested t.forest s.cursor node)
      (fun _ t => s.Stays t)
  | [], _, s, hs => by
      rw [analyseArguments.eq_def]
      exact Act.ensures_pure ⟨.refl hs, by simp⟩
  | tree :: trees, [], s, hs => by
      rw [analyseArguments.eq_def]
      exact Act.ensures_pure ⟨.refl hs, by simp⟩
  | tree :: trees, parameter :: parameters, s, hs => by
      rw [analyseArguments]
      refine (stays_analyse tree s hs).bind (fun _ _ h => h) ?_
      rintro value t ⟨hstays, hvalue⟩
      refine (requireValue_same value _ tree t).bind (fun _ _ h => h.1 ▸ hstays) ?_
      rintro actual _ ⟨rfl, -⟩
      by_cases heq : actual = parameter
      · rw [if_pos heq]
        refine (stays_analyseArguments callee (position + 1) trees parameters _
          (hstays.steady.placed hs)).bind (fun _ _ h => hstays.trans h) ?_
        rintro nodes u ⟨hstays', hnodes⟩
        rw [hstays.steady.cursor] at hnodes
        exact Act.ensures_pure ⟨hstays.trans hstays',
          List.forall_mem_cons.2 ⟨hvalue.mono hstays'.steady.grown, hnodes⟩⟩
      · rw [if_neg heq]
        exact (mismatch_same _ _ _ _ _).mono (fun _ _ h => h.elim) (fun _ _ h => h ▸ hstays)

end

end Analysis

end Scriptlet
