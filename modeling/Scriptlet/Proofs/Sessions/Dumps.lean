import Scriptlet.Proofs.Analysis.Typing
import Scriptlet.Proofs.Sessions.Invariant
/-!
# Dumps

Dumping the tree of a source fails for one reason only: an integer literal of
too many digits.
-/

namespace Scriptlet

/-- The error is about an integer of too many digits or a text that is none. -/
def HostError.IsNumeral (error : HostError) : Prop :=
  ∃ inner, error = .numeral inner

/-- Work whose only errors are about numerals. -/
def FailsOnNumerals {α : Type} (work : Except HostError α) : Prop :=
  ∀ error, work = .error error → error.IsNumeral

theorem FailsOnNumerals.bind {α β : Type} {work : Except HostError α}
    {next : α → Except HostError β} (h : FailsOnNumerals work)
    (hnext : ∀ value, FailsOnNumerals (next value)) : FailsOnNumerals (work >>= next) := by
  intro error herror
  cases hwork : work with
  | error first =>
      rw [hwork] at herror
      obtain rfl : first = error := by simpa [Bind.bind, Except.bind] using herror
      exact h first hwork
  | ok value =>
      rw [hwork] at herror
      exact hnext value error herror

theorem failsOnNumerals_pure {α : Type} (value : α) : FailsOnNumerals (pure value) := by
  intro error herror
  simp [pure, Except.pure] at herror

theorem Sexp.ofLiteral_failsOnNumerals (kind : Primitive.Kind) (text : String) :
    FailsOnNumerals (Sexp.ofLiteral kind text) := by
  intro error herror
  cases kind with
  | integer =>
      rw [ofLiteral] at herror
      split at herror
      · split at herror
        · simp at herror
        · next inner _ => exact ⟨inner, (Except.error.inj herror).symm⟩
      · simp at herror
  | decimal => simp [ofLiteral] at herror
  | text => simp [ofLiteral] at herror
  | truth => simp [ofLiteral] at herror

namespace Tree

private theorem toSexpAll_failsOnNumerals {trees : List Tree}
    (h : ∀ tree ∈ trees, FailsOnNumerals tree.toSexp) : FailsOnNumerals (toSexpAll trees) := by
  induction trees with
  | nil =>
      rw [toSexpAll]
      exact failsOnNumerals_pure []
  | cons tree trees ih =>
      rw [List.forall_mem_cons] at h
      rw [toSexpAll]
      refine h.1.bind fun first => ?_
      exact (ih h.2).bind fun rest => failsOnNumerals_pure _

theorem IsExpression.failsOnNumerals {tree : Tree} (h : tree.IsExpression) :
    FailsOnNumerals tree.toSexp := by
  induction h with
  | @literal token kind =>
      rw [toSexp]
      exact Sexp.ofLiteral_failsOnNumerals kind token.text
  | reference =>
      rw [toSexp]
      exact failsOnNumerals_pure _
  | assign _ _ ihTarget ihValue =>
      rw [toSexp]
      refine ihTarget.bind fun target => ?_
      exact ihValue.bind fun value => failsOnNumerals_pure _
  | call _ _ ihCallee ihArguments =>
      rw [toSexp]
      refine ihCallee.bind fun head => ?_
      exact (toSexpAll_failsOnNumerals ihArguments).bind fun rest => failsOnNumerals_pure _

theorem IsStatement.failsOnNumerals {tree : Tree} (h : tree.IsStatement) :
    FailsOnNumerals tree.toSexp := by
  induction h with
  | expression h => exact h.failsOnNumerals
  | declare h =>
      rw [toSexp]
      exact h.failsOnNumerals.bind fun value => failsOnNumerals_pure _
  | block _ ih =>
      rw [toSexp]
      exact (toSexpAll_failsOnNumerals ih).bind fun rest => failsOnNumerals_pure _
  | conditional hcondition _ ih =>
      rw [toSexp]
      refine hcondition.failsOnNumerals.bind fun test => ?_
      exact ih.bind fun body => failsOnNumerals_pure _
  | debugPrint h =>
      rw [toSexp]
      exact h.failsOnNumerals.bind fun value => failsOnNumerals_pure _

theorem IsStatement.dump_failsOnNumerals {tree : Tree} (h : tree.IsStatement) (page : Sexp.Page) :
    FailsOnNumerals (tree.dump page) := by
  rw [dump]
  exact h.failsOnNumerals.bind fun sexp => failsOnNumerals_pure _

end Tree

namespace Annotated

def Labelling.StopsOnNumerals {α : Type} (work : Labelling α) : Prop :=
  ∀ labels, FailsOnNumerals (work.run labels).1

namespace Labelling

theorem run_bind {α β : Type} (work : Labelling α) (next : α → Labelling β) (labels : Labels) :
    (work >>= next).run labels =
      match work.run labels with
      | (.ok value, after) => (next value).run after
      | (.error error, after) => (.error error, after) := by
  simp only [ExceptT.run, Bind.bind, ExceptT.bind, ExceptT.mk, StateT.bind, ExceptT.bindCont]
  cases work labels with
  | mk outcome after => cases outcome <;> rfl

theorem StopsOnNumerals.bind {α β : Type} {work : Labelling α} {next : α → Labelling β}
    (h : StopsOnNumerals work) (hnext : ∀ value, StopsOnNumerals (next value)) :
    StopsOnNumerals (work >>= next) := by
  intro labels error herror
  rw [run_bind] at herror
  have hwork := h labels
  match hcase : work.run labels with
  | (.ok value, after) =>
      rw [hcase] at herror
      exact hnext value after error herror
  | (.error first, after) =>
      rw [hcase] at herror hwork
      obtain rfl := Except.error.inj herror
      exact hwork first rfl

theorem stopsOnNumerals_pure {α : Type} (value : α) :
    StopsOnNumerals (pure value : Labelling α) :=
  fun _ => failsOnNumerals_pure value

private theorem stopsOnNumerals_labelOf (identity : Identity) :
    StopsOnNumerals (labelOf identity) :=
  fun labels => failsOnNumerals_pure (Labels.label identity labels).1

theorem stopsOnNumerals_labelled (token : Token) (symbol : SymbolId) :
    StopsOnNumerals (labelled token symbol) :=
  (stopsOnNumerals_labelOf _).bind fun _ => stopsOnNumerals_pure _

private theorem stopsOnNumerals_lift {α : Type} {work : Except HostError α}
    (h : FailsOnNumerals work) : StopsOnNumerals (liftM work : Labelling α) := by
  intro labels
  cases work with
  | ok value => exact failsOnNumerals_pure value
  | error error => exact h

end Labelling

open Labelling

private theorem toSexpAll_stopsOnNumerals {β : Type} {nodes : List Annotated} {types : List β}
    (hlength : nodes.length = types.length)
    (h : ∀ pair ∈ nodes.zip types, (pair.1.toSexp).StopsOnNumerals) :
    (toSexpAll nodes).StopsOnNumerals := by
  induction nodes generalizing types with
  | nil =>
      rw [toSexpAll]
      exact stopsOnNumerals_pure []
  | cons node nodes ih =>
      cases types with
      | nil => simp at hlength
      | cons type types =>
          rw [List.zip_cons_cons, List.forall_mem_cons] at h
          rw [toSexpAll]
          refine StopsOnNumerals.bind h.1 fun first => ?_
          exact StopsOnNumerals.bind (ih (by simpa using hlength) h.2)
            fun rest => stopsOnNumerals_pure _

theorem Typed.stopsOnNumerals {forest : Forest} {scope : ScopeId} {node : Annotated}
    {type : Option SymbolId} (h : Typed forest scope node type) :
    node.toSexp.StopsOnNumerals := by
  induction h with
  | block _ _ hlength _ ih =>
      rw [toSexp]
      refine StopsOnNumerals.bind (stopsOnNumerals_labelOf _) fun label => ?_
      exact StopsOnNumerals.bind (toSexpAll_stopsOnNumerals hlength ih)
        fun rest => stopsOnNumerals_pure _
  | literal =>
      rw [toSexp]
      exact stopsOnNumerals_lift (Sexp.ofLiteral_failsOnNumerals _ _)
  | reference =>
      rw [toSexp]
      exact StopsOnNumerals.bind (stopsOnNumerals_labelled _ _) fun name => stopsOnNumerals_pure _
  | declare _ _ _ _ ih =>
      rw [toSexp]
      refine StopsOnNumerals.bind (stopsOnNumerals_labelled _ _) fun name => ?_
      exact StopsOnNumerals.bind ih fun value => stopsOnNumerals_pure _
  | assign _ _ _ ih =>
      rw [toSexp]
      refine StopsOnNumerals.bind (stopsOnNumerals_labelled _ _) fun name => ?_
      exact StopsOnNumerals.bind ih fun value => stopsOnNumerals_pure _
  | call _ _ hlength _ ihCallee ihArguments =>
      rw [toSexp]
      refine StopsOnNumerals.bind ihCallee fun head => ?_
      exact StopsOnNumerals.bind (toSexpAll_stopsOnNumerals hlength ihArguments)
        fun rest => stopsOnNumerals_pure _
  | conditional _ _ ihCondition ihBody =>
      rw [toSexp]
      refine StopsOnNumerals.bind ihCondition fun test => ?_
      exact StopsOnNumerals.bind ihBody fun body => stopsOnNumerals_pure _
  | debugPrint _ ih =>
      rw [toSexp]
      exact StopsOnNumerals.bind ih fun value => stopsOnNumerals_pure _

theorem Typed.dump_stopsOnNumerals {forest : Forest} {scope : ScopeId} {node : Annotated}
    {type : Option SymbolId} (h : Typed forest scope node type) (page : Sexp.Page) :
    (node.dump page).StopsOnNumerals := by
  rw [dump]
  exact StopsOnNumerals.bind h.stopsOnNumerals fun sexp => stopsOnNumerals_pure _

end Annotated

end Scriptlet
