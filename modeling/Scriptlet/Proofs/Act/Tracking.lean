import Mathlib.Data.List.Forall2
import Mathlib.Data.Option.Basic
import Mathlib.Order.Basic
import Scriptlet.Proofs.Act.Correspondence
/-!
# Acts that keep track of each other

Two acts may make new things on their way, each under an identity of its own.  Which of them stand
for each other is known only once they are made: it is the stage that the two runs have come to.
Stages only grow, and what is related at one stage stays so at all later ones.
-/

namespace Scriptlet.Act

variable {W σ τ α β γ δ : Type} [Preorder W]

/-- In the given states, the acts have related outcomes and leave related states, at a stage that
may be later than the given one. -/
def TracksOn (related : W → σ → τ → Prop) (values : W → α → β → Prop) (w : W) (act : Act σ α)
    (s : σ) (act' : Act τ β) (t : τ) : Prop :=
  ∃ v, w ≤ v ∧ Alike (values v) Eq (act.on s).1 (act'.on t).1 ∧
    related v (act.on s).2 (act'.on t).2

def Tracks (related : W → σ → τ → Prop) (values : W → α → β → Prop) (w : W) (act : Act σ α)
    (act' : Act τ β) : Prop :=
  ∀ u, w ≤ u → ∀ s t, related u s t → TracksOn related values u act s act' t

variable {related : W → σ → τ → Prop} {values : W → α → β → Prop} {results : W → γ → δ → Prop}
  {w : W} {act : Act σ α} {act' : Act τ β}

theorem Tracks.later (h : Tracks related values w act act') {u : W} (hu : w ≤ u) :
    Tracks related values u act act' :=
  fun v hv => h v (hu.trans hv)

theorem Tracks.pure {value : α} {value' : β} (h : ∀ u, w ≤ u → values u value value') :
    Tracks related values w (pure value) (pure value') :=
  fun u hu _ _ hrelated => ⟨u, le_rfl, .ok (h u hu), hrelated⟩

theorem Tracks.throw (failure : Failure) :
    Tracks related values w (throw failure) (throw failure) :=
  fun u _ _ _ hrelated => ⟨u, le_rfl, .error rfl, hrelated⟩

theorem Tracks.fail (fault : Fault) (span : Span) :
    Tracks related values w (Act.fail fault span) (Act.fail fault span) :=
  .throw _

theorem Tracks.ofExcept {outcome : Except Failure α} {outcome' : Except Failure β}
    (h : ∀ u, w ≤ u → Alike (values u) Eq outcome outcome') :
    Tracks related values w (ofExcept outcome) (ofExcept outcome') :=
  fun u hu _ _ hrelated => ⟨u, le_rfl, h u hu, hrelated⟩

theorem Tracks.same (outcome : Except Failure α) :
    Tracks related (fun _ => Eq) w (Act.ofExcept outcome) (Act.ofExcept outcome) := by
  refine .ofExcept fun _ _ => ?_
  cases outcome with
  | ok value => exact .ok rfl
  | error failure => exact .error rfl

theorem Tracks.modify {f : σ → σ} {g : τ → τ}
    (h : ∀ u s t, related u s t → related u (f s) (g t)) :
    Tracks related (fun _ _ _ => True) w (modify f : Act σ PUnit) (modify g : Act τ PUnit) :=
  fun u _ s t hrelated => ⟨u, le_rfl, .ok trivial, h u s t hrelated⟩

/-- The acts may be compared with related states at hand. -/
theorem Tracks.given (h : ∀ u, w ≤ u → ∀ s t, related u s t →
    Tracks related values u act act') : Tracks related values w act act' :=
  fun u hu s t hrelated => h u hu s t hrelated u le_rfl s t hrelated

theorem Tracks.get {next : σ → Act σ γ} {next' : τ → Act τ δ}
    (h : ∀ u, w ≤ u → ∀ s t, related u s t → Tracks related results u (next s) (next' t)) :
    Tracks related results w (get >>= next) (get >>= next') := by
  intro u hu s t hrelated
  unfold TracksOn
  rw [on_bind_of_ok (on_get s), on_bind_of_ok (on_get t)]
  exact h u hu s t hrelated u le_rfl s t hrelated

theorem TracksOn.bind {next : α → Act σ γ} {next' : β → Act τ δ} {s : σ} {t : τ}
    (h : TracksOn related values w act s act' t)
    (hnext : ∀ v, w ≤ v → ∀ value value' s' t', act.on s = (.ok value, s') →
      act'.on t = (.ok value', t') → values v value value' → related v s' t' →
      TracksOn related results v (next value) s' (next' value') t') :
    TracksOn related results w (act >>= next) s (act' >>= next') t := by
  obtain ⟨v, hv, houtcome, hleft⟩ := h
  unfold TracksOn
  match hs : act.on s, ht : act'.on t with
  | (.ok value, s'), (.ok value', t') =>
      rw [hs, ht] at houtcome hleft
      cases houtcome with
      | ok hvalue =>
          obtain ⟨x, hx, hrest⟩ := hnext v hv value value' s' t' hs ht hvalue hleft
          rw [on_bind_of_ok hs, on_bind_of_ok ht]
          exact ⟨x, hv.trans hx, hrest⟩
  | (.error failure, s'), (.error failure', t') =>
      rw [hs, ht] at houtcome hleft
      cases houtcome with
      | error hfailure =>
          rw [on_bind_of_error hs, on_bind_of_error ht]
          exact ⟨v, hv, .error hfailure, hleft⟩
  | (.ok _, _), (.error _, _) =>
      rw [hs, ht] at houtcome
      cases houtcome
  | (.error _, _), (.ok _, _) =>
      rw [hs, ht] at houtcome
      cases houtcome

theorem Tracks.bind {next : α → Act σ γ} {next' : β → Act τ δ}
    (h : Tracks related values w act act')
    (hnext : ∀ u, w ≤ u → ∀ value value', values u value value' →
      Tracks related results u (next value) (next' value')) :
    Tracks related results w (act >>= next) (act' >>= next') := by
  intro u hu s t hrelated
  refine (h u hu s t hrelated).bind fun v hv value value' s' t' _ _ hvalue hleft => ?_
  exact hnext v (hu.trans hv) value value' hvalue v le_rfl s' t' hleft

theorem Tracks.attempt (h : Tracks related values w act act') :
    Tracks related (fun u => Alike (values u) Eq) w (attempt act) (attempt act') := by
  intro u hu s t hrelated
  obtain ⟨v, hv, houtcome, hleft⟩ := h u hu s t hrelated
  exact ⟨v, hv, .ok houtcome, hleft⟩

theorem Tracks.closing {close : Act σ Unit} {close' : Act τ Unit}
    (hvalues : ∀ u v, u ≤ v → ∀ value value', values u value value' → values v value value')
    (hbody : Tracks related values w act act')
    (hclose : Tracks related (fun _ _ _ => True) w close close') :
    Tracks related values w (closing close act) (closing close' act') := by
  refine hbody.attempt.bind fun u hu outcome outcome' houtcome => ?_
  refine (hclose.later hu).bind fun v hv _ _ _ => .ofExcept fun x hx => ?_
  exact houtcome.mono (hvalues u x (hv.trans hx)) fun _ _ h => h

theorem Tracks.mono {values' : W → α → β → Prop} (h : Tracks related values w act act')
    (hvalues : ∀ u, w ≤ u → ∀ value value', values u value value' → values' u value value') :
    Tracks related values' w act act' := by
  intro u hu s t hrelated
  obtain ⟨v, hv, houtcome, hleft⟩ := h u hu s t hrelated
  exact ⟨v, hv, houtcome.mono (hvalues v (hu.trans hv)) fun _ _ h => h, hleft⟩

theorem Tracks.mapM {items : α → β → Prop} {act : α → Act σ γ} {act' : β → Act τ δ}
    (hresults : ∀ u v, u ≤ v → ∀ value value', results u value value' → results v value value')
    (h : ∀ item item', items item item' → Tracks related results w (act item) (act' item'))
    {list : List α} {list' : List β} (hlist : List.Forall₂ items list list') :
    Tracks related (fun u => List.Forall₂ (results u)) w (list.mapM act) (list'.mapM act') := by
  induction hlist with
  | nil => exact .pure fun _ _ => .nil
  | cons hitem _ ih =>
      rw [List.mapM_cons, List.mapM_cons]
      refine (h _ _ hitem).bind fun u hu first first' hfirst => ?_
      refine (ih.later hu).bind fun v hv rest rest' hrest => .pure fun x hx => ?_
      exact .cons (hresults u x (hv.trans hx) _ _ hfirst)
        (hrest.imp fun _ _ => hresults v x hx _ _)

theorem Tracks.mapM_option {items : α → β → Prop} {act : α → Act σ γ} {act' : β → Act τ δ}
    (hresults : ∀ u v, u ≤ v → ∀ value value', results u value value' → results v value value')
    (h : ∀ item item', items item item' → Tracks related results w (act item) (act' item'))
    {item : Option α} {item' : Option β} (hitem : Option.Rel items item item') :
    Tracks related (fun u => Option.Rel (results u)) w (item.mapM act) (item'.mapM act') := by
  cases hitem with
  | none => exact .pure fun _ _ => .none
  | @some item item' hitem =>
      have hleft : (some item).mapM act = (act item >>= fun value => Pure.pure (some value)) :=
        map_eq_pure_bind ..
      have hright : (some item').mapM act' = (act' item' >>= fun value => Pure.pure (some value)) :=
        map_eq_pure_bind ..
      rw [hleft, hright]
      exact (h _ _ hitem).bind fun u _ value value' hvalue => .pure fun v hv =>
        .some (hresults u v hv value value' hvalue)

end Scriptlet.Act
