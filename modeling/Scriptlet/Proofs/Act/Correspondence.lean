import Scriptlet.Proofs.Act
/-!
# Corresponding acts

Two acts correspond if from related states they have related outcomes and leave
related states, also when they fail.  The rules follow the structure of an act,
as those of `Act.Ensures` do for a single act.
-/

namespace Scriptlet.Act

variable {σ τ α β γ δ : Type}

inductive Alike (values : α → β → Prop) (failures : Failure → Failure → Prop) :
    Except Failure α → Except Failure β → Prop where
  | ok {value : α} {value' : β} :
      values value value' → Alike values failures (.ok value) (.ok value')
  | error {failure failure' : Failure} :
      failures failure failure' → Alike values failures (.error failure) (.error failure')

/-- From related states the acts have related outcomes and leave related states. -/
def Corresponds (related : σ → τ → Prop) (values : α → β → Prop)
    (failures : Failure → Failure → Prop) (act : Act σ α) (act' : Act τ β) : Prop :=
  ∀ s t, related s t →
    Alike values failures (act.on s).1 (act'.on t).1 ∧ related (act.on s).2 (act'.on t).2

variable {related : σ → τ → Prop} {values : α → β → Prop} {results : γ → δ → Prop}
  {failures : Failure → Failure → Prop}

theorem Corresponds.pure {value : α} {value' : β} (h : values value value') :
    Corresponds related values failures (pure value) (pure value') :=
  fun _ _ hrelated => ⟨.ok h, hrelated⟩

theorem Corresponds.throw {failure failure' : Failure} (h : failures failure failure') :
    Corresponds related values failures (throw failure) (throw failure') :=
  fun _ _ hrelated => ⟨.error h, hrelated⟩

theorem Corresponds.fail {fault : Fault} {span span' : Span}
    (h : failures (.located fault span) (.located fault span')) :
    Corresponds related values failures (Act.fail fault span) (Act.fail fault span') :=
  fun _ _ hrelated => ⟨.error h, hrelated⟩

theorem Corresponds.ofExcept {outcome : Except Failure α} {outcome' : Except Failure β}
    (h : Alike values failures outcome outcome') :
    Corresponds related values failures (Act.ofExcept outcome) (Act.ofExcept outcome') :=
  fun _ _ hrelated => ⟨h, hrelated⟩

theorem Corresponds.modify {f : σ → σ} {g : τ → τ} (h : ∀ s t, related s t → related (f s) (g t)) :
    Corresponds related (fun _ _ => True) failures (modify f : Act σ PUnit)
      (modify g : Act τ PUnit) :=
  fun s t hrelated => ⟨.ok trivial, h s t hrelated⟩

theorem Corresponds.get {next : σ → Act σ γ} {next' : τ → Act τ δ}
    (h : ∀ s t, related s t → Corresponds related results failures (next s) (next' t)) :
    Corresponds related results failures (get >>= next) (get >>= next') := by
  intro s t hrelated
  rw [on_bind_of_ok (on_get s), on_bind_of_ok (on_get t)]
  exact h s t hrelated s t hrelated

theorem Corresponds.bind_on {after : σ → τ → Prop} {act : Act σ α} {act' : Act τ β}
    {next : α → Act σ γ} {next' : β → Act τ δ} {s : σ} {t : τ}
    (h : Corresponds related values failures act act') (hrelated : related s t)
    (hafter : ∀ s t, related s t → after s t)
    (hnext : ∀ value value' s t, values value value' → related s t →
      Alike results failures ((next value).on s).1 ((next' value').on t).1 ∧
        after ((next value).on s).2 ((next' value').on t).2) :
    Alike results failures ((act >>= next).on s).1 ((act' >>= next').on t).1 ∧
      after ((act >>= next).on s).2 ((act' >>= next').on t).2 := by
  obtain ⟨houtcome, hleft⟩ := h s t hrelated
  match hs : act.on s, ht : act'.on t with
  | (.ok value, s'), (.ok value', t') =>
      rw [hs, ht] at houtcome hleft
      cases houtcome with
      | ok hvalue =>
          rw [on_bind_of_ok hs, on_bind_of_ok ht]
          exact hnext value value' s' t' hvalue hleft
  | (.error failure, s'), (.error failure', t') =>
      rw [hs, ht] at houtcome hleft
      cases houtcome with
      | error hfailure =>
          rw [on_bind_of_error hs, on_bind_of_error ht]
          exact ⟨.error hfailure, hafter s' t' hleft⟩
  | (.ok _, _), (.error _, _) =>
      rw [hs, ht] at houtcome
      cases houtcome
  | (.error _, _), (.ok _, _) =>
      rw [hs, ht] at houtcome
      cases houtcome

theorem Corresponds.bind {act : Act σ α} {act' : Act τ β} {next : α → Act σ γ}
    {next' : β → Act τ δ} (h : Corresponds related values failures act act')
    (hnext : ∀ value value', values value value' →
      Corresponds related results failures (next value) (next' value')) :
    Corresponds related results failures (act >>= next) (act' >>= next') :=
  fun _ _ hrelated => h.bind_on hrelated (fun _ _ h => h) fun value value' s t hvalue hleft =>
    hnext value value' hvalue s t hleft

theorem Corresponds.attempt {failures' : Failure → Failure → Prop} {act : Act σ α}
    {act' : Act τ β} (h : Corresponds related values failures act act') :
    Corresponds related (Alike values failures) failures' (attempt act) (attempt act') :=
  fun s t hrelated => ⟨.ok (h s t hrelated).1, (h s t hrelated).2⟩

theorem Corresponds.closing {close : Act σ Unit} {close' : Act τ Unit} {body : Act σ α}
    {body' : Act τ β} (hbody : Corresponds related values failures body body')
    (hclose : Corresponds related (fun _ _ => True) failures close close') :
    Corresponds related values failures (closing close body) (closing close' body') :=
  hbody.attempt.bind fun _ _ houtcome => hclose.bind fun _ _ _ => .ofExcept houtcome

theorem Alike.mono {values' : α → β → Prop} {failures' : Failure → Failure → Prop}
    {outcome : Except Failure α} {outcome' : Except Failure β}
    (h : Alike values failures outcome outcome')
    (hvalues : ∀ value value', values value value' → values' value value')
    (hfailures : ∀ failure failure', failures failure failure' → failures' failure failure') :
    Alike values' failures' outcome outcome' := by
  cases h with
  | ok h => exact .ok (hvalues _ _ h)
  | error h => exact .error (hfailures _ _ h)

theorem Corresponds.mono {values' : α → β → Prop} {failures' : Failure → Failure → Prop}
    {act : Act σ α} {act' : Act τ β} (h : Corresponds related values failures act act')
    (hvalues : ∀ value value', values value value' → values' value value')
    (hfailures : ∀ failure failure', failures failure failure' → failures' failure failure') :
    Corresponds related values' failures' act act' :=
  fun s t hrelated => ⟨(h s t hrelated).1.mono hvalues hfailures, (h s t hrelated).2⟩

theorem Corresponds.mapM {act : α → Act σ γ} {act' : α → Act τ γ}
    (h : ∀ item, Corresponds related Eq failures (act item) (act' item)) (items : List α) :
    Corresponds related Eq failures (items.mapM act) (items.mapM act') := by
  induction items with
  | nil => exact .pure rfl
  | cons item items ih =>
      rw [List.mapM_cons, List.mapM_cons]
      refine (h item).bind fun first _ hfirst => ?_
      subst hfirst
      refine ih.bind fun rest _ hrest => ?_
      exact .pure (by rw [hrest])

end Scriptlet.Act
