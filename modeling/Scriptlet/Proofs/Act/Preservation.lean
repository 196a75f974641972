import Scriptlet.Proofs.Act
/-!
# Acts that preserve a condition

An act preserves a condition on the state if the condition still holds after it,
whether it succeeds or fails.
-/

namespace Scriptlet.Act

variable {σ α β : Type}

/-- The condition holds after the act if it held before, whatever the outcome. -/
def Preserves (kept : σ → Prop) (act : Act σ α) : Prop :=
  ∀ s, kept s → kept (act.on s).2

variable {kept : σ → Prop}

theorem Preserves.pure (value : α) : Preserves kept (pure value) :=
  fun _ h => h

theorem Preserves.throw (failure : Failure) : Preserves kept (throw failure : Act σ α) :=
  fun _ h => h

theorem Preserves.ofExcept (outcome : Except Failure α) : Preserves kept (ofExcept outcome) :=
  fun _ h => h

theorem Preserves.modify {f : σ → σ} (h : ∀ s, kept s → kept (f s)) :
    Preserves kept (modify f : Act σ PUnit) :=
  h

theorem Preserves.get {next : σ → Act σ α}
    (h : ∀ s, kept s → kept ((next s).on s).2) : Preserves kept (get >>= next) := by
  intro s hs
  rw [on_bind_of_ok (on_get s)]
  exact h s hs

/-- What comes next may rely on how the first act ended. -/
theorem keeps_bind {act : Act σ α} {next : α → Act σ β} {s : σ} (hact : kept (act.on s).2)
    (hnext : ∀ value t, act.on s = (.ok value, t) → kept t → kept ((next value).on t).2) :
    kept ((act >>= next).on s).2 := by
  rw [on_bind]
  match hrun : act.on s with
  | (.ok value, t) =>
      rw [hrun] at hact
      exact hnext value t hrun hact
  | (.error failure, t) =>
      rw [hrun] at hact
      exact hact

theorem Preserves.bind {act : Act σ α} {next : α → Act σ β} (hact : Preserves kept act)
    (hnext : ∀ value, Preserves kept (next value)) : Preserves kept (act >>= next) :=
  fun s hs => keeps_bind (hact s hs) fun value t _ ht => hnext value t ht

theorem Preserves.attempt {act : Act σ α} (h : Preserves kept act) :
    Preserves kept (attempt act) :=
  h

theorem Preserves.closing {close : Act σ Unit} {body : Act σ α} (hbody : Preserves kept body)
    (hclose : Preserves kept close) : Preserves kept (closing close body) :=
  hbody.attempt.bind fun outcome => hclose.bind fun _ => .ofExcept outcome

theorem Preserves.mapM {act : α → Act σ β} (h : ∀ item, Preserves kept (act item))
    (items : List α) : Preserves kept (items.mapM act) := by
  induction items with
  | nil => exact .pure _
  | cons item items ih =>
      rw [List.mapM_cons]
      exact (h item).bind fun _ => ih.bind fun _ => .pure _

theorem Preserves.mapM_option {act : α → Act σ β} (h : ∀ item, Preserves kept (act item))
    (item : Option α) : Preserves kept (item.mapM act) := by
  cases item with
  | none => exact .pure _
  | some item => exact (h item).bind fun _ => .pure _

theorem ensures_state {act : Act σ α} {s : σ} (h : kept (act.on s).2) :
    act.Ensures s (fun _ t => kept t) (fun _ t => kept t) := by
  unfold Ensures
  match hrun : act.on s with
  | (.ok value, t) =>
      rw [hrun] at h
      exact h
  | (.error failure, t) =>
      rw [hrun] at h
      exact h

theorem Preserves.ensures {act : Act σ α} (h : Preserves kept act) {s : σ} (hs : kept s) :
    act.Ensures s (fun _ t => kept t) (fun _ t => kept t) :=
  ensures_state (h s hs)

theorem Ensures.state {act : Act σ α} {s : σ} {post : σ → Prop}
    (h : act.Ensures s (fun _ t => post t) (fun _ t => post t)) : post (act.on s).2 := by
  unfold Ensures at h
  match hrun : act.on s with
  | (.ok value, t) =>
      rw [hrun] at h
      exact h
  | (.error failure, t) =>
      rw [hrun] at h
      exact h

theorem Preserves.of_same {act : Act σ α}
    (h : ∀ s, act.Ensures s (fun _ t => t = s) (fun _ t => t = s)) : Preserves kept act := by
  intro s hs
  have hsame : (act.on s).2 = s := (h s).state
  rw [hsame]
  exact hs

end Scriptlet.Act
