import Scriptlet.Annotated.Analysis
import Scriptlet.Proofs.Scopes.Following
/-!
# Analyses in mirroring scopes

A tree is analysed in the same way in scopes that mirror each other, if the excepted name does not
occur in it: the annotated trees have the same shape and bear paired identities.
-/

namespace Scriptlet

variable {hidden : Option String} {pairs pairs' : Pairing}

/-! ## Trees -/

mutual

def Tree.NamesOnly (p : String → Prop) : Tree → Prop
  | .block statements _ => NamesOnlyAll p statements
  | .literal .. | .foreign _ => True
  | .reference name => p name.text
  | .assign target value _ => target.NamesOnly p ∧ value.NamesOnly p
  | .declare name initializer => p name.text ∧ initializer.NamesOnly p
  | .call callee arguments _ => callee.NamesOnly p ∧ NamesOnlyAll p arguments
  | .conditional condition body _ => condition.NamesOnly p ∧ body.NamesOnly p
  | .debugPrint operand _ => operand.NamesOnly p

def Tree.NamesOnlyAll (p : String → Prop) : List Tree → Prop
  | [] => True
  | tree :: trees => tree.NamesOnly p ∧ NamesOnlyAll p trees

end

/-- Annotated trees that differ in paired identities only. -/
inductive Annotated.Mirrors (pairs : Pairing) : Annotated → Annotated → Prop where
  | block {statements statements' : List Annotated} (scope : ScopeId) (token : Option Token) :
      List.Forall₂ (Mirrors pairs) statements statements' →
      Mirrors pairs (.block statements scope token) (.block statements' scope token)
  | literal (token : Token) (kind : Primitive.Kind) :
      Mirrors pairs (.literal token kind) (.literal token kind)
  | reference {symbol symbol' : SymbolId} (token : Token) : pairs symbol symbol' →
      Mirrors pairs (.reference symbol token) (.reference symbol' token)
  | declare {symbol symbol' : SymbolId} {initializer initializer' : Annotated} (token : Token) :
      pairs symbol symbol' → Mirrors pairs initializer initializer' →
      Mirrors pairs (.declare symbol initializer token) (.declare symbol' initializer' token)
  | assign {symbol symbol' : SymbolId} {value value' : Annotated} (token : Token) :
      pairs symbol symbol' → Mirrors pairs value value' →
      Mirrors pairs (.assign symbol value token) (.assign symbol' value' token)
  | call {callee callee' : Annotated} {arguments arguments' : List Annotated} (token : Token) :
      Mirrors pairs callee callee' → List.Forall₂ (Mirrors pairs) arguments arguments' →
      Mirrors pairs (.call callee arguments token) (.call callee' arguments' token)
  | conditional {condition condition' body body' : Annotated} (token : Token) :
      Mirrors pairs condition condition' → Mirrors pairs body body' →
      Mirrors pairs (.conditional condition body token) (.conditional condition' body' token)
  | debugPrint {operand operand' : Annotated} (token : Token) :
      Mirrors pairs operand operand' →
      Mirrors pairs (.debugPrint operand token) (.debugPrint operand' token)
  | foreign (sort : String) : Mirrors pairs (.foreign sort) (.foreign sort)

namespace Annotated

mutual

theorem Mirrors.mono (hle : pairs ≤ pairs') : (node : Annotated) → (node' : Annotated) →
    node.Mirrors pairs node' → node.Mirrors pairs' node'
  | .block statements _ _, _, .block scope token h =>
      .block scope token (mirrorsAll_mono hle statements _ h)
  | .literal .., _, .literal token kind => .literal token kind
  | .reference .., _, .reference token h => .reference token (hle _ _ h)
  | .declare _ initializer _, _, .declare token hsymbol h =>
      .declare token (hle _ _ hsymbol) (h.mono hle initializer _)
  | .assign _ value _, _, .assign token hsymbol h =>
      .assign token (hle _ _ hsymbol) (h.mono hle value _)
  | .call callee arguments _, _, .call token hcallee harguments =>
      .call token (hcallee.mono hle callee _) (mirrorsAll_mono hle arguments _ harguments)
  | .conditional condition body _, _, .conditional token hcondition hbody =>
      .conditional token (hcondition.mono hle condition _) (hbody.mono hle body _)
  | .debugPrint operand _, _, .debugPrint token h => .debugPrint token (h.mono hle operand _)
  | .foreign _, _, .foreign sort => .foreign sort

theorem mirrorsAll_mono (hle : pairs ≤ pairs') : (nodes : List Annotated) →
    (nodes' : List Annotated) → List.Forall₂ (Mirrors pairs) nodes nodes' →
    List.Forall₂ (Mirrors pairs') nodes nodes'
  | [], _, .nil => .nil
  | node :: nodes, _, .cons h hrest =>
      .cons (h.mono hle node _) (mirrorsAll_mono hle nodes _ hrest)

end

end Annotated

structure Analysed.Mirrors (pairs : Pairing) (analysed analysed' : Analysed) : Prop where
  node : analysed.node.Mirrors pairs analysed'.node
  type : Option.Rel pairs analysed.type analysed'.type

/-! ## Parts of the analysis -/

namespace Analysis

open Scoping (Tracks)

private theorem tracks_spanOf (tree : Tree) :
    Tracks hidden (fun _ => Eq) pairs (spanOf tree) (spanOf tree) :=
  .same _

theorem tracks_failAt {α β : Type} (values : Pairing → α → β → Prop) (fault : Fault) (tree : Tree) :
    Tracks hidden values pairs (spanOf tree >>= Act.fail fault) (spanOf tree >>= Act.fail fault) :=
  (tracks_spanOf tree).bind fun _ _ _ _ h => h ▸ .fail fault _

theorem tracks_requireValue {analysed analysed' : Analysed} (h : analysed.Mirrors pairs analysed')
    (role : String) (tree : Tree) :
    Tracks hidden (fun u => u) pairs (requireValue analysed role tree)
      (requireValue analysed' role tree) := by
  have htype := h.type
  unfold requireValue
  generalize analysed.type = type at htype ⊢
  generalize analysed'.type = type' at htype ⊢
  cases htype with
  | none => exact tracks_failAt _ _ tree
  | some hpair => exact .pure fun _ hu => hu _ _ hpair

private theorem tracks_mismatch {α β : Type} (values : Pairing → α → β → Prop)
    {expected expected' actual actual' : SymbolId} (hexpected : pairs expected expected')
    (hactual : pairs actual actual') (tree : Tree) (context : String) :
    Tracks hidden values pairs (mismatch expected actual tree context)
      (mismatch expected' actual' tree context) := by
  refine (Scoping.tracks_typeName hexpected).bind fun u hu expectedName _ h => ?_
  subst h
  refine (Scoping.tracks_typeName (hu _ _ hactual)).bind fun v hv actualName _ h => ?_
  subst h
  exact tracks_failAt values _ tree

private theorem tracks_reference {name : Token} (hname : hidden ≠ some name.text) :
    Tracks hidden Analysed.Mirrors pairs (reference name) (reference name) := by
  refine (Scoping.tracks_resolve hname).bind fun u _ found found' h => ?_
  cases h with
  | none => exact .fail _ _
  | @some symbol symbol' hsymbol =>
      have htype := hsymbol.variant.type?
      dsimp only
      generalize symbol.variant.type? = type at htype ⊢
      generalize symbol'.variant.type? = type' at htype ⊢
      cases htype with
      | none => exact .fail _ _
      | some hpair =>
          exact .pure fun v hv => ⟨.reference name (hv _ _ hsymbol.id), .some (hv _ _ hpair)⟩

private theorem tracks_target {tree : Tree} (hnames : tree.NamesOnly (hidden ≠ some ·)) :
    Tracks hidden (fun u found found' => found'.1 = found.1 ∧ u found.2.1 found'.2.1 ∧
      u found.2.2 found'.2.2) pairs (target tree) (target tree) := by
  cases tree with
  | reference name =>
      refine (Scoping.tracks_resolve hnames).bind fun u _ found found' h => ?_
      cases h with
      | none => exact .fail _ _
      | @some symbol symbol' hsymbol =>
          have hvariant := hsymbol.variant
          have hid := hsymbol.id
          dsimp only
          generalize symbol.variant = variant at hvariant ⊢
          generalize symbol'.variant = variant' at hvariant ⊢
          cases hvariant with
          | var htype => exact .pure fun v hv => ⟨rfl, hv _ _ hid, hv _ _ htype⟩
          | primitive | function | native => exact .fail _ _
  | _ => exact tracks_failAt _ _ _

private theorem tracks_signature (callee : Tree) {type type' : SymbolId}
    (hpair : pairs type type') :
    Tracks hidden (fun u found found' => List.Forall₂ u found.1 found'.1 ∧
      Option.Rel u found.2 found'.2) pairs (signature callee type) (signature callee type') := by
  refine (Scoping.tracks_typeSymbol hpair).bind fun u _ symbol symbol' h => ?_
  have hvariant := h.variant
  rw [h.name]
  generalize symbol.variant = variant at hvariant ⊢
  generalize symbol'.variant = variant' at hvariant ⊢
  cases hvariant with
  | function harguments hresult =>
      exact .pure fun v hv => ⟨harguments.imp fun _ _ => hv _ _, Pairing.rel_mono hv hresult⟩
  | primitive | var | native => exact tracks_failAt _ _ callee

theorem tracks_ite {α β : Type} {values : Pairing → α → β → Prop}
    {actual actual' type type' : SymbolId} (hactual : pairs actual actual')
    (htype : pairs type type') {act other : Act Scoping α} {act' other' : Act Scoping β}
    (h : Tracks hidden values pairs act act') (hother : Tracks hidden values pairs other other') :
    Tracks hidden values pairs (if actual = type then act else other)
      (if actual' = type' then act' else other') := by
  refine .given fun u hu s t hmirrors => ?_
  have hiff := hmirrors.forest.pairing.eq_iff (hu _ _ hactual) (hu _ _ htype)
  by_cases heq : actual = type
  · rw [if_pos heq, if_pos (hiff.2 heq)]
    exact h.later hu
  · rw [if_neg heq, if_neg fun heq' => heq (hiff.1 heq')]
    exact hother.later hu

/-! ## Trees -/

mutual

theorem tracks_analyse : (tree : Tree) → tree.NamesOnly (hidden ≠ some ·) → (pairs : Pairing) →
    Tracks hidden Analysed.Mirrors pairs (analyse tree) (analyse tree)
  | .block statements token, hnames, pairs => by
      rw [analyse]
      refine .get fun u _ s t h => ?_
      rw [h.cursor]
      refine (Scoping.tracks_plant "block" s.cursor).bind fun v _ scope _ h => ?_
      subst h
      refine (Scoping.tracks_enter scope).bind fun w _ _ _ _ => ?_
      refine ((tracks_analyseAll statements hnames w).closing
        (fun _ _ hle nodes nodes' h => Annotated.mirrorsAll_mono hle nodes nodes' h)
        Scoping.tracks_leave).bind fun x _ nodes nodes' h => ?_
      exact .pure fun _ hle => ⟨.block scope token (Annotated.mirrorsAll_mono hle _ _ h), .none⟩
  | .literal token kind, _, pairs => by
      rw [analyse]
      refine .given fun u _ s t h => .pure fun v hv => ⟨.literal token kind, .some ?_⟩
      exact hv _ _ (h.forest.pairing.primitives kind)
  | .reference name, hnames, pairs => by
      rw [analyse]
      exact tracks_reference hnames
  | .declare name initializer, hnames, pairs => by
      rw [analyse]
      refine (tracks_analyse initializer hnames.2 pairs).bind fun u _ value value' hvalue => ?_
      refine (tracks_requireValue hvalue _ initializer).bind fun v hv type type' htype => ?_
      refine (Scoping.tracks_declare hnames.1 (.var htype) rfl name.span).bind
        fun w hw symbol symbol' hsymbol => .pure fun x hx => ⟨?_, .none⟩
      exact .declare name (hx _ _ hsymbol.id) (hvalue.node.mono ((hv.trans hw).trans hx) _ _)
  | .assign left right token, hnames, pairs => by
      rw [analyse]
      refine (tracks_target hnames.1).bind ?_
      rintro u _ ⟨name, symbol, type⟩ ⟨_, symbol', type'⟩ ⟨rfl, hsymbol, htype⟩
      refine (tracks_analyse right hnames.2 u).bind fun v hv value value' hvalue => ?_
      refine (tracks_requireValue hvalue _ right).bind fun w hw actual actual' hactual => ?_
      have hle := hv.trans hw
      refine tracks_ite hactual (hle _ _ htype) (.pure fun x hx => ⟨?_, .none⟩)
        (tracks_mismatch _ (hle _ _ htype) hactual right _)
      exact .assign _ (hx _ _ (hle _ _ hsymbol)) (hvalue.node.mono (hw.trans hx) _ _)
  | .call callee arguments token, hnames, pairs => by
      rw [analyse]
      refine (tracks_analyse callee hnames.1 pairs).bind fun u _ function function' hfunction => ?_
      refine (tracks_requireValue hfunction _ callee).bind fun v hv type type' htype => ?_
      refine (tracks_signature callee htype).bind ?_
      rintro w hw ⟨parameters, result⟩ ⟨parameters', result'⟩ ⟨hparameters, hresult⟩
      dsimp only at hparameters hresult ⊢
      rw [← hparameters.length_eq]
      by_cases hlength : arguments.length = parameters.length
      · rw [if_pos hlength, if_pos hlength]
        refine (tracks_analyseArguments callee.describe 1 arguments hnames.2 w hparameters).bind
          fun x hx nodes nodes' h => .pure fun y hy => ⟨?_, Pairing.rel_mono (hx.trans hy) hresult⟩
        exact .call token (hfunction.node.mono (((hv.trans hw).trans hx).trans hy) _ _)
          (Annotated.mirrorsAll_mono hy _ _ h)
      · rw [if_neg hlength, if_neg hlength]
        exact .fail _ _
  | .conditional condition body token, hnames, pairs => by
      rw [analyse]
      refine (tracks_analyse condition hnames.1 pairs).bind fun u _ test test' htest => ?_
      refine (tracks_requireValue htest _ condition).bind fun v hv type type' htype => ?_
      refine .given fun w hw s t hmirrors => ?_
      refine tracks_ite (hw _ _ htype) (hmirrors.forest.pairing.primitives .truth) ?_ ?_
      · refine (tracks_analyse body hnames.2 w).bind fun x hx branch branch' hbranch =>
          .pure fun y hy => ⟨?_, .none⟩
        exact .conditional token (htest.node.mono (((hv.trans hw).trans hx).trans hy) _ _)
          (hbranch.node.mono hy _ _)
      · refine (Scoping.tracks_typeName (hw _ _ htype)).bind fun x _ actual _ h => ?_
        subst h
        exact tracks_failAt _ _ condition
  | .debugPrint operand token, hnames, pairs => by
      rw [analyse]
      refine (tracks_analyse operand hnames pairs).bind fun u _ value value' hvalue => ?_
      refine (tracks_requireValue hvalue _ operand).bind fun v hv _ _ _ => .pure fun w hw => ?_
      exact ⟨.debugPrint token (hvalue.node.mono (hv.trans hw) _ _), .none⟩
  | .foreign sort, _, pairs => by
      rw [analyse]
      exact .throw _

private theorem tracks_analyseAll :
    (trees : List Tree) → Tree.NamesOnlyAll (hidden ≠ some ·) trees →
    (pairs : Pairing) → Tracks hidden (fun u => List.Forall₂ (Annotated.Mirrors u)) pairs
      (analyseAll trees) (analyseAll trees)
  | [], _, pairs => by
      rw [analyseAll]
      exact .pure fun _ _ => .nil
  | tree :: trees, hnames, pairs => by
      rw [analyseAll]
      refine (tracks_analyse tree hnames.1 pairs).bind fun u _ first first' hfirst => ?_
      refine (tracks_analyseAll trees hnames.2 u).bind fun v hv rest rest' hrest =>
        .pure fun w hw => ?_
      exact .cons (hfirst.node.mono (hv.trans hw) _ _) (Annotated.mirrorsAll_mono hw _ _ hrest)

private theorem tracks_analyseArguments (callee : String) (position : Nat) : (trees : List Tree) →
    Tree.NamesOnlyAll (hidden ≠ some ·) trees → (pairs : Pairing) →
    {parameters parameters' : List SymbolId} → List.Forall₂ pairs parameters parameters' →
    Tracks hidden (fun u => List.Forall₂ (Annotated.Mirrors u)) pairs
      (analyseArguments callee position trees parameters)
      (analyseArguments callee position trees parameters')
  | [], _, pairs, _, _, _ => by
      rw [analyseArguments.eq_def, analyseArguments.eq_def]
      exact .pure fun _ _ => .nil
  | tree :: trees, _, pairs, _, _, .nil => by
      rw [analyseArguments.eq_def]
      exact .pure fun _ _ => .nil
  | tree :: trees, hnames, pairs, _, _, .cons hparameter hparameters => by
      rw [analyseArguments, analyseArguments]
      refine (tracks_analyse tree hnames.1 pairs).bind fun u hu value value' hvalue => ?_
      refine (tracks_requireValue hvalue _ tree).bind fun v hv actual actual' hactual => ?_
      have hle := hu.trans hv
      refine tracks_ite hactual (hle _ _ hparameter) ?_
        (tracks_mismatch _ (hle _ _ hparameter) hactual tree _)
      refine (tracks_analyseArguments callee (position + 1) trees hnames.2 v
        (hparameters.imp fun _ _ => hle _ _)).bind fun w hw rest rest' hrest => .pure fun x hx => ?_
      exact .cons (hvalue.node.mono ((hv.trans hw).trans hx) _ _)
        (Annotated.mirrorsAll_mono hx _ _ hrest)

end

end Analysis

end Scriptlet
