import Scriptlet.Proofs.Act
/-!
# The failures of an act

Which failures an act can end in, whatever state it starts from.
-/

namespace Scriptlet.Act

variable {σ τ α β : Type}

/-- Whatever the state, the act fails with an allowed failure if at all. -/
def FailsWith (allowed : Failure → Prop) (act : Act σ α) : Prop :=
  ∀ s failure, (act.on s).1 = .error failure → allowed failure

variable {allowed : Failure → Prop}

theorem FailsWith.pure (value : α) : FailsWith allowed (pure value : Act σ α) := by
  intro s failure h
  cases h

theorem FailsWith.get : FailsWith allowed (get : Act σ σ) := by
  intro s failure h
  cases h

theorem FailsWith.set (s : σ) : FailsWith allowed (set s : Act σ PUnit) := by
  intro t failure h
  cases h

theorem FailsWith.modify (f : σ → σ) : FailsWith allowed (modify f : Act σ PUnit) := by
  intro s failure h
  cases h

theorem FailsWith.throw {failure : Failure} (h : allowed failure) :
    FailsWith allowed (throw failure : Act σ α) := by
  intro s other hother
  rw [on_throw] at hother
  cases hother
  exact h

theorem FailsWith.fail {fault : Fault} {span : Span} (h : allowed (.located fault span)) :
    FailsWith allowed (Act.fail fault span : Act σ α) :=
  .throw h

theorem FailsWith.ofExcept {outcome : Except Failure α}
    (h : ∀ failure, outcome = .error failure → allowed failure) :
    FailsWith allowed (ofExcept outcome : Act σ α) :=
  fun _ => h

theorem FailsWith.bind {act : Act σ α} {next : α → Act σ β} (hact : FailsWith allowed act)
    (hnext : ∀ value, FailsWith allowed (next value)) : FailsWith allowed (act >>= next) := by
  intro s failure h
  rw [on_bind] at h
  match hrun : act.on s with
  | (.ok value, t) =>
      rw [hrun] at h
      exact hnext value t failure h
  | (.error other, t) =>
      rw [hrun] at h
      cases h
      exact hact s failure (by rw [hrun])

theorem FailsWith.attempt_bind {act : Act σ α} {next : Except Failure α → Act σ β}
    (h : ∀ s, FailsWith allowed (next (act.on s).1)) :
    FailsWith allowed (attempt act >>= next) := by
  intro s failure hfailure
  rw [on_bind_of_ok (on_attempt act s)] at hfailure
  exact h s _ failure hfailure

theorem FailsWith.closing {close : Act σ Unit} {body : Act σ α} (hbody : FailsWith allowed body)
    (hclose : FailsWith allowed close) : FailsWith allowed (closing close body) :=
  .attempt_bind fun s => hclose.bind fun _ => .ofExcept (hbody s)

theorem FailsWith.zoom {part : τ → σ} {update : τ → σ → τ} {act : Act σ α}
    (h : FailsWith allowed act) : FailsWith allowed (zoom part update act) :=
  fun t => h (part t)

theorem FailsWith.mono {allowed' : Failure → Prop} {act : Act σ α} (h : FailsWith allowed act)
    (himp : ∀ failure, allowed failure → allowed' failure) : FailsWith allowed' act :=
  fun s failure hfailure => himp failure (h s failure hfailure)

end Scriptlet.Act
