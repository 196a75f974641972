import Scriptlet.Proofs.Analysis.Following
import Scriptlet.Proofs.Sessions.Dumps
/-!
# Labels of paired identities

A label tells when an identity was mentioned for the first time, and nothing else about it.  So
annotated trees that differ in paired identities only are dumped to the same texts, if the
identities that dumps mentioned before are paired as well.
-/

namespace Scriptlet

variable {pairs pairs' : Pairing} {next next' : Nat}

inductive Identity.Mirrors (pairs : Pairing) : Identity → Identity → Prop where
  | absent : Mirrors pairs .absent .absent
  | scope (id : ScopeId) : Mirrors pairs (.scope id) (.scope id)
  | symbol {id id' : SymbolId} : pairs id id' → Mirrors pairs (.symbol id) (.symbol id')

namespace Identity

theorem Mirrors.mono {identity identity' : Identity} (h : identity.Mirrors pairs identity')
    (hle : pairs ≤ pairs') : identity.Mirrors pairs' identity' := by
  cases h with
  | absent => exact .absent
  | scope id => exact .scope id
  | symbol hpair => exact .symbol (hle _ _ hpair)

private theorem mirrors_ofScope (id : ScopeId) : (ofScope id).Mirrors pairs (ofScope id) := by
  unfold ofScope
  split
  · exact .absent
  · exact .scope id

private theorem mirrors_ofSymbol (hmatches : pairs.Matches next next') {id id' : SymbolId}
    (hpair : pairs id id') : (ofSymbol id).Mirrors pairs (ofSymbol id') := by
  obtain ⟨⟨hpos, -⟩, hpos', -⟩ := hmatches.minted id id' hpair
  have hne : ∀ {id : SymbolId}, 0 < id.number → id ≠ SymbolId.absent := by
    rintro _ hpos rfl
    exact Nat.lt_irrefl 0 hpos
  rw [ofSymbol, ofSymbol, if_neg (hne hpos), if_neg (hne hpos')]
  exact .symbol hpair

theorem Mirrors.eq_iff (hmatches : pairs.Matches next next')
    {identity identity' other other' : Identity} (h : identity.Mirrors pairs identity')
    (hother : other.Mirrors pairs other') : identity' = other' ↔ identity = other := by
  cases h with
  | absent => cases hother <;> simp
  | scope => cases hother <;> simp
  | symbol hpair =>
      cases hother with
      | absent | scope => simp
      | symbol hother => simpa using hmatches.eq_iff hpair hother

end Identity

def Labels.Mirrors (pairs : Pairing) (labels labels' : Labels) : Prop :=
  List.Forall₂ (Identity.Mirrors pairs) labels.mentioned labels'.mentioned

namespace Labels

variable {labels labels' : Labels}

theorem Mirrors.mono (h : labels.Mirrors pairs labels') (hle : pairs ≤ pairs') :
    labels.Mirrors pairs' labels' :=
  h.imp fun _ _ hidentity => hidentity.mono hle

private theorem idxOf?_eq (hmatches : pairs.Matches next next') {identity identity' : Identity}
    (hidentity : identity.Mirrors pairs identity') {mentioned mentioned' : List Identity}
    (h : List.Forall₂ (Identity.Mirrors pairs) mentioned mentioned') :
    mentioned'.idxOf? identity' = mentioned.idxOf? identity := by
  induction h with
  | nil => rfl
  | cons hfirst _ ih =>
      rw [List.idxOf?_cons, List.idxOf?_cons, ih]
      simp only [beq_iff_eq, hfirst.eq_iff hmatches hidentity]

/-- Identities that stand for each other get the same label. -/
theorem Mirrors.label (hmatches : pairs.Matches next next') (h : labels.Mirrors pairs labels')
    {identity identity' : Identity} (hidentity : identity.Mirrors pairs identity') :
    (Labels.label identity' labels').1 = (Labels.label identity labels).1 ∧
      (Labels.label identity labels).2.Mirrors pairs (Labels.label identity' labels').2 := by
  unfold Labels.label
  rw [idxOf?_eq hmatches hidentity h]
  cases labels.mentioned.idxOf? identity with
  | some index => exact ⟨rfl, h⟩
  | none =>
      dsimp only
      rw [h.length_eq]
      exact ⟨rfl, List.rel_append h (.cons hidentity .nil)⟩

end Labels

namespace Annotated

namespace Labelling

def Mirrors {α : Type} (pairs : Pairing) (work work' : Labelling α) : Prop :=
  ∀ labels labels' : Labels, labels.Mirrors pairs labels' →
    (work'.run labels').1 = (work.run labels).1 ∧
      (work.run labels).2.Mirrors pairs (work'.run labels').2

theorem mirrors_pure {α : Type} (value : α) : Mirrors pairs (pure value) (pure value) :=
  fun _ _ h => ⟨rfl, h⟩

private theorem mirrors_lift {α : Type} (work : Except HostError α) :
    Mirrors pairs (liftM work) (liftM work) :=
  fun _ _ h => ⟨rfl, h⟩

theorem Mirrors.bind {α β : Type} {work work' : Labelling α} {rest rest' : α → Labelling β}
    (h : Mirrors pairs work work') (hrest : ∀ value, Mirrors pairs (rest value) (rest' value)) :
    Mirrors pairs (work >>= rest) (work' >>= rest') := by
  intro labels labels' hlabels
  obtain ⟨houtcome, hleft⟩ := h labels labels' hlabels
  rw [run_bind, run_bind]
  match hwork : work.run labels, hwork' : work'.run labels' with
  | (outcome, after), (outcome', after') =>
      rw [hwork, hwork'] at houtcome hleft
      dsimp only at houtcome hleft
      subst houtcome
      cases outcome' with
      | ok value => exact hrest value after after' hleft
      | error error => exact ⟨rfl, hleft⟩

private theorem mirrors_labelOf (hmatches : pairs.Matches next next')
    {identity identity' : Identity} (h : identity.Mirrors pairs identity') :
    Mirrors pairs (labelOf identity) (labelOf identity') := by
  intro labels labels' hlabels
  obtain ⟨hlabel, hleft⟩ := hlabels.label hmatches h
  exact ⟨congrArg Except.ok hlabel, hleft⟩

theorem mirrors_labelled (hmatches : pairs.Matches next next') (token : Token)
    {symbol symbol' : SymbolId} (hpair : pairs symbol symbol') :
    Mirrors pairs (labelled token symbol) (labelled token symbol') :=
  (mirrors_labelOf hmatches (Identity.mirrors_ofSymbol hmatches hpair)).bind
    fun _ => mirrors_pure _

end Labelling

open Labelling

mutual

theorem mirrors_toSexp (hmatches : pairs.Matches next next') : (node : Annotated) →
    (node' : Annotated) → node.Mirrors pairs node' →
    Labelling.Mirrors pairs node.toSexp node'.toSexp
  | .block nodes _ _, _, .block scope _ h => by
      rw [toSexp, toSexp]
      refine (mirrors_labelOf hmatches (Identity.mirrors_ofScope scope)).bind fun _ => ?_
      exact (mirrors_toSexpAll hmatches nodes _ h).bind fun _ => mirrors_pure _
  | .literal .., _, .literal token kind => by
      rw [toSexp]
      exact mirrors_lift _
  | .reference .., _, .reference token hpair => by
      rw [toSexp, toSexp]
      exact (mirrors_labelled hmatches token hpair).bind fun _ => mirrors_pure _
  | .declare _ node _, _, .declare token hpair h => by
      rw [toSexp, toSexp]
      refine (mirrors_labelled hmatches token hpair).bind fun _ => ?_
      exact (mirrors_toSexp hmatches node _ h).bind fun _ => mirrors_pure _
  | .assign _ node _, _, .assign token hpair h => by
      rw [toSexp, toSexp]
      refine (mirrors_labelled hmatches token hpair).bind fun _ => ?_
      exact (mirrors_toSexp hmatches node _ h).bind fun _ => mirrors_pure _
  | .call callee nodes _, _, .call token hcallee h => by
      rw [toSexp, toSexp]
      refine (mirrors_toSexp hmatches callee _ hcallee).bind fun _ => ?_
      exact (mirrors_toSexpAll hmatches nodes _ h).bind fun _ => mirrors_pure _
  | .conditional condition body _, _, .conditional token hcondition hbody => by
      rw [toSexp, toSexp]
      refine (mirrors_toSexp hmatches condition _ hcondition).bind fun _ => ?_
      exact (mirrors_toSexp hmatches body _ hbody).bind fun _ => mirrors_pure _
  | .debugPrint operand _, _, .debugPrint token h => by
      rw [toSexp, toSexp]
      exact (mirrors_toSexp hmatches operand _ h).bind fun _ => mirrors_pure _
  | .foreign _, _, .foreign sort => by
      rw [toSexp]
      exact fun _ _ hlabels => ⟨rfl, hlabels⟩

theorem mirrors_toSexpAll (hmatches : pairs.Matches next next') : (nodes : List Annotated) →
    (nodes' : List Annotated) → List.Forall₂ (Annotated.Mirrors pairs) nodes nodes' →
    Labelling.Mirrors pairs (toSexpAll nodes) (toSexpAll nodes')
  | [], _, .nil => by
      rw [toSexpAll]
      exact mirrors_pure _
  | node :: nodes, _, .cons h hrest => by
      rw [toSexpAll, toSexpAll]
      refine (mirrors_toSexp hmatches node _ h).bind fun _ => ?_
      exact (mirrors_toSexpAll hmatches nodes _ hrest).bind fun _ => mirrors_pure _

end

/-- Trees that differ in paired identities only have the same dump. -/
theorem mirrors_dump (hmatches : pairs.Matches next next') (page : Sexp.Page)
    {node node' : Annotated} (h : node.Mirrors pairs node') :
    Labelling.Mirrors pairs (node.dump page) (node'.dump page) :=
  (mirrors_toSexp hmatches node node' h).bind fun _ => mirrors_pure _

end Annotated

end Scriptlet
