import Scriptlet.Act
/-!
# Reasoning about acts

What an act does to a state is a pair of an outcome and a state.  The equations
below compute that pair, and `Act.Ensures` states what holds of it: one
condition for success, one for failure.  Its rules follow the structure of an
act, so that proofs about programs never unfold the monad.
-/

namespace Scriptlet.Act

variable {σ τ α β : Type}

/-- The outcome of an act on a state, and the state that it leaves. -/
def on (act : Act σ α) (s : σ) : Except Failure α × σ :=
  act s

/-- An act that succeeds leaves `post`, and one that fails leaves `fail`. -/
def Ensures (act : Act σ α) (s : σ) (post : α → σ → Prop) (fail : Failure → σ → Prop) : Prop :=
  match act.on s with
  | (.ok value, t) => post value t
  | (.error failure, t) => fail failure t

/-! ## Equations -/

@[simp] theorem on_pure (value : α) (s : σ) : on (pure value) s = (.ok value, s) := rfl

@[simp] theorem on_throw (failure : Failure) (s : σ) :
    on (throw failure : Act σ α) s = (.error failure, s) := rfl

@[simp] theorem on_get (s : σ) : on (get : Act σ σ) s = (.ok s, s) := rfl

@[simp] theorem on_set (s t : σ) : on (set t : Act σ PUnit) s = (.ok ⟨⟩, t) := rfl

@[simp] theorem on_modify (f : σ → σ) (s : σ) :
    on (modify f : Act σ PUnit) s = (.ok ⟨⟩, f s) := rfl

@[simp] theorem on_ofExcept (outcome : Except Failure α) (s : σ) :
    on (ofExcept outcome) s = (outcome, s) := rfl

@[simp] theorem on_fail (fault : Fault) (span : Span) (s : σ) :
    on (Act.fail fault span : Act σ α) s = (.error (.located fault span), s) := rfl

@[simp] theorem on_attempt (act : Act σ α) (s : σ) :
    on (attempt act) s = (.ok (act.on s).1, (act.on s).2) := rfl

theorem on_bind (act : Act σ α) (next : α → Act σ β) (s : σ) :
    on (act >>= next) s =
      match act.on s with
      | (.ok value, t) => (next value).on t
      | (.error failure, t) => (.error failure, t) := by
  simp only [on, bind, ExceptT.bind, ExceptT.mk, StateT.bind, ExceptT.bindCont]
  cases act s with
  | mk outcome t => cases outcome <;> rfl

theorem on_bind_of_ok {act : Act σ α} {s t : σ} {value : α} (h : act.on s = (.ok value, t))
    (next : α → Act σ β) : on (act >>= next) s = (next value).on t := by
  rw [on_bind, h]

theorem on_bind_of_error {act : Act σ α} {s t : σ} {failure : Failure}
    (h : act.on s = (.error failure, t)) (next : α → Act σ β) :
    on (act >>= next) s = (.error failure, t) := by
  rw [on_bind, h]

theorem exists_of_on_bind {act : Act σ α} {next : α → Act σ β} {s u : σ} {value : β}
    (h : on (act >>= next) s = (.ok value, u)) :
    ∃ middle t, act.on s = (.ok middle, t) ∧ (next middle).on t = (.ok value, u) := by
  rw [on_bind] at h
  match hrun : act.on s with
  | (.ok middle, t) =>
      rw [hrun] at h
      exact ⟨middle, t, rfl, h⟩
  | (.error failure, t) =>
      rw [hrun] at h
      cases h

theorem on_map_of_ok {act : Act σ α} {s t : σ} {value : α} (h : act.on s = (.ok value, t))
    (f : α → β) : on (f <$> act) s = (.ok (f value), t) := by
  rw [map_eq_pure_bind, on_bind_of_ok h, on_pure]

theorem on_zoom (part : τ → σ) (update : τ → σ → τ) (act : Act σ α) (t : τ) :
    on (zoom part update act) t = ((act.on (part t)).1, update t (act.on (part t)).2) := rfl

theorem on_closing {close : Act σ Unit} {body : Act σ α} {s t u : σ} {outcome : Except Failure α}
    (hbody : body.on s = (outcome, t)) (hclose : close.on t = (.ok (), u)) :
    on (closing close body) s = (outcome, u) := by
  unfold closing
  rw [on_bind_of_ok (by rw [on_attempt, hbody]), on_bind_of_ok hclose, on_ofExcept]

theorem exists_of_on_closing {close : Act σ Unit} {body : Act σ α} {s u : σ} {value : α}
    (h : on (closing close body) s = (.ok value, u)) :
    ∃ t, body.on s = (.ok value, t) ∧ close.on t = (.ok (), u) := by
  unfold closing at h
  obtain ⟨outcome, t, hattempt, hrest⟩ := exists_of_on_bind h
  obtain ⟨_, v, hclose, houtcome⟩ := exists_of_on_bind hrest
  rw [on_ofExcept] at houtcome
  rw [on_attempt, Prod.mk.injEq, Except.ok.injEq] at hattempt
  cases houtcome
  exact ⟨t, Prod.ext hattempt.1 hattempt.2, hclose⟩

/-! ## Rules -/

theorem Ensures.of_on_ok {act : Act σ α} {s t : σ} {value : α} {post : α → σ → Prop}
    {fail : Failure → σ → Prop} (h : act.on s = (.ok value, t)) (hpost : post value t) :
    act.Ensures s post fail := by
  unfold Ensures
  rw [h]
  exact hpost

theorem Ensures.of_on_error {act : Act σ α} {s t : σ} {failure : Failure} {post : α → σ → Prop}
    {fail : Failure → σ → Prop} (h : act.on s = (.error failure, t)) (hfail : fail failure t) :
    act.Ensures s post fail := by
  unfold Ensures
  rw [h]
  exact hfail

theorem Ensures.bind {act : Act σ α} {next : α → Act σ β} {s : σ} {middle : α → σ → Prop}
    {post : β → σ → Prop} {fail fail' : Failure → σ → Prop} (hact : act.Ensures s middle fail')
    (hfail : ∀ failure t, fail' failure t → fail failure t)
    (hnext : ∀ value t, middle value t → (next value).Ensures t post fail) :
    (act >>= next).Ensures s post fail := by
  unfold Ensures at hact ⊢
  rw [on_bind]
  match hrun : act.on s with
  | (.ok value, t) =>
      rw [hrun] at hact
      exact hnext value t hact
  | (.error failure, t) =>
      rw [hrun] at hact
      exact hfail failure t hact

theorem Ensures.mono {act : Act σ α} {s : σ} {post post' : α → σ → Prop}
    {fail fail' : Failure → σ → Prop} (h : act.Ensures s post fail)
    (hpost : ∀ value t, post value t → post' value t)
    (hfail : ∀ failure t, fail failure t → fail' failure t) : act.Ensures s post' fail' := by
  unfold Ensures at h ⊢
  match hrun : act.on s with
  | (.ok value, t) =>
      rw [hrun] at h
      exact hpost value t h
  | (.error failure, t) =>
      rw [hrun] at h
      exact hfail failure t h

theorem Ensures.and {act : Act σ α} {s : σ} {post post' : α → σ → Prop}
    {fail fail' : Failure → σ → Prop} (h : act.Ensures s post fail)
    (h' : act.Ensures s post' fail') :
    act.Ensures s (fun value t => post value t ∧ post' value t)
      (fun failure t => fail failure t ∧ fail' failure t) := by
  unfold Ensures at h h' ⊢
  match hrun : act.on s with
  | (.ok value, t) =>
      rw [hrun] at h h'
      exact ⟨h, h'⟩
  | (.error failure, t) =>
      rw [hrun] at h h'
      exact ⟨h, h'⟩

theorem ensures_on (act : Act σ α) (s : σ) :
    act.Ensures s (fun value t => act.on s = (.ok value, t))
      (fun failure t => act.on s = (.error failure, t)) := by
  unfold Ensures
  match hrun : act.on s with
  | (.ok value, t) => rfl
  | (.error failure, t) => rfl

theorem Ensures.exists_ok {act : Act σ α} {s : σ} {post : α → σ → Prop}
    (h : act.Ensures s post (fun _ _ => False)) :
    ∃ value t, act.on s = (.ok value, t) ∧ post value t := by
  unfold Ensures at h
  match hrun : act.on s with
  | (.ok value, t) =>
      rw [hrun] at h
      exact ⟨value, t, rfl, h⟩
  | (.error failure, t) =>
      rw [hrun] at h
      exact h.elim

theorem ensures_pure {value : α} {s : σ} {post : α → σ → Prop} {fail : Failure → σ → Prop}
    (h : post value s) : (pure value : Act σ α).Ensures s post fail := h

theorem ensures_throw {failure : Failure} {s : σ} {post : α → σ → Prop}
    {fail : Failure → σ → Prop} (h : fail failure s) :
    (throw failure : Act σ α).Ensures s post fail := h

theorem ensures_fail {fault : Fault} {span : Span} {s : σ} {post : α → σ → Prop}
    {fail : Failure → σ → Prop} (h : fail (.located fault span) s) :
    (Act.fail fault span : Act σ α).Ensures s post fail := h

/-- An act that is closed by another one: the closing act runs on either
outcome, which stays the outcome unless the closing act fails. -/
theorem Ensures.closing {close : Act σ Unit} {body : Act σ α} {s : σ}
    {post middle : α → σ → Prop} {fail middle' : Failure → σ → Prop}
    (hbody : body.Ensures s middle middle')
    (hok : ∀ value t, middle value t → close.Ensures t (fun _ u => post value u) fail)
    (herror : ∀ failure t, middle' failure t →
      close.Ensures t (fun _ u => fail failure u) fail) :
    (closing close body).Ensures s post fail := by
  unfold Ensures at hbody
  unfold Act.closing
  match hrun : body.on s with
  | (.ok value, t) =>
      rw [hrun] at hbody
      unfold Ensures
      rw [on_bind_of_ok (by rw [on_attempt, hrun])]
      exact (hok value t hbody).bind (fun _ _ h => h) (fun _ _ h => h)
  | (.error failure, t) =>
      rw [hrun] at hbody
      unfold Ensures
      rw [on_bind_of_ok (by rw [on_attempt, hrun])]
      exact (herror failure t hbody).bind (fun _ _ h => h) (fun _ _ h => h)

end Scriptlet.Act
