import Mathlib.Algebra.Group.Nat.Defs
import Scriptlet.Prelude
import Scriptlet.Proofs.Act.Preservation
import Scriptlet.Proofs.Sessions.Carrying
import Scriptlet.Proofs.Sessions.Execution
/-!
# Values at the command line

A session at the command line offers no function but those that write their argument,
and no integer but those that literals denote.  So every value that its programs come
across can be shown, and what stops them is a fault and never an error from outside
the language.
-/

namespace Scriptlet

/-! ## What can be read can be written -/

namespace Numeral

theorem decimalValue?_lt {c : Char} {value : Nat} (h : Text.decimalValue? c = some value) :
    value < 10 := by
  unfold Text.decimalValue? at h
  split at h
  · split at h
    · next hdigit =>
      have hbound : c.toNat ≤ 0x39 := by
        simp only [Char.isDigit, Bool.and_eq_true, decide_eq_true_eq] at hdigit
        exact UInt32.le_iff_toNat_le.1 hdigit.2
      rw [← Option.some.inj h]
      omega
    · cases h
  · obtain ⟨range, -, rfl⟩ := Option.map_eq_some_iff.1 h
    exact Nat.mod_lt _ (by omega)

private theorem digitGroup_lt (chars : List Char) : ∀ value ∈ (digitGroup chars).1, value < 10 := by
  fun_induction digitGroup chars with
  | case1 => simp
  | case2 => simp
  | case3 c next tail value hvalue _ values left hrest ih =>
      rw [hrest] at ih
      exact List.forall_mem_cons.2 ⟨decimalValue?_lt hvalue, ih⟩
  | case4 c next tail value hvalue =>
      exact List.forall_mem_singleton.2 (decimalValue?_lt hvalue)
  | case5 => simp
  | case6 c rest _ value hvalue values left hrest ih =>
      rw [hrest] at ih
      exact List.forall_mem_cons.2 ⟨decimalValue?_lt hvalue, ih⟩

private theorem ofDigits_lt {values : List Nat} (h : ∀ value ∈ values, value < 10) :
    ofDigits values < 10 ^ values.length := by
  have hfold : ∀ start, values.foldl (fun n digit => 10 * n + digit) start <
      (start + 1) * 10 ^ values.length := by
    induction values with
    | nil =>
        intro start
        simp
    | cons value values ih =>
        intro start
        rw [List.forall_mem_cons] at h
        have hle : 10 * start + value + 1 ≤ (start + 1) * 10 := by omega
        calc
          _ < (10 * start + value + 1) * 10 ^ values.length := ih h.2 _
          _ ≤ (start + 1) * 10 * 10 ^ values.length := Nat.mul_le_mul_right _ hle
          _ = (start + 1) * 10 ^ (values.length + 1) := by rw [Nat.pow_succ', Nat.mul_assoc]
  have := hfold 0
  simpa [ofDigits] using this

private theorem write_of_natAbs_lt {n : Int} (h : n.natAbs < 10 ^ digitLimit) :
    write n = .ok (text n) := by
  have hlength := (Nat.length_toDigits_le_iff (by omega) (by decide)).2 h
  rw [write, if_neg (Nat.not_lt.2 hlength)]

/-- An integer that was read has few enough digits to be written. -/
theorem write_of_read {text : String} {n : Int} (h : read text = .ok n) :
    write n = .ok (Numeral.text n) := by
  apply write_of_natAbs_lt
  unfold read at h
  dsimp only at h
  generalize sign (text.toList.dropWhile Text.isNumeralSpace) = signed at h
  split at h
  · cases h
  · split at h
    · cases h
    · next hlength =>
      split at h
      · cases h
      · have hbound := ofDigits_lt (digitGroup_lt signed.2)
        have habs : n.natAbs = ofDigits (digitGroup signed.2).1 := by
          cases h
          split <;> simp
        rw [habs]
        exact Nat.lt_of_lt_of_le hbound (Nat.pow_le_pow_right (by omega) (Nat.not_lt.1 hlength))

end Numeral

theorem Session.render_of_literalValue {token : Token} {kind : Primitive.Kind} {value : Primitive}
    (h : literalValue token kind = .ok value) : ∃ text, value.render = .ok text := by
  cases value with
  | integer n =>
      cases kind with
      | integer =>
          rw [literalValue] at h
          split at h
          · next read hread =>
            cases h
            exact ⟨"int " ++ Numeral.text n, by
              simp [Primitive.render, Primitive.kind, Primitive.datum, Primitive.Kind.render,
                Datum.shown, Numeral.write_of_read hread, Primitive.Kind.label, Except.map]⟩
          · cases h
      | decimal =>
          rw [literalValue] at h
          split at h <;> cases h
      | truth =>
          rw [literalValue] at h
          split at h
          · cases h
          · split at h <;> cases h
      | text => cases h
  | decimal x => exact ⟨_, rfl⟩
  | text s => exact ⟨_, rfl⟩
  | truth b => exact ⟨_, rfl⟩

/-! ## Modest values -/

/-- The payload can be shown, and if it is a function it only writes its argument. -/
def Payload.IsModest : Payload Behaviour → Prop
  | .nothing => True
  | .primitive value => ∃ text, value.render = .ok text
  | .native _ handle result => (handle = .writeText ∨ handle = .writeInteger) ∧ result = none

theorem Payload.IsModest.render {payload : Payload Behaviour} (h : payload.IsModest) :
    ∃ text, payload.render = .ok text := by
  cases payload with
  | nothing => exact ⟨_, rfl⟩
  | primitive value => exact h
  | native name handle result => exact ⟨_, rfl⟩

namespace Session

/-- The session has the given scopes, its cursor stands on the given one, and the stored values are
modest. -/
structure Modest (forest : Forest) (id : ScopeId) (s : Session Behaviour) : Prop where
  forest : s.scoping.forest = forest
  cursor : s.scoping.cursor = id
  values : ∀ value ∈ s.values.values, value.payload.IsModest

variable {forest : Forest} {id : ScopeId} {s : Session Behaviour}

/-- A function that writes its argument does nothing else to the session. -/
theorem modest_invoke {handle : Behaviour} (hhandle : handle = .writeText ∨ handle = .writeInteger)
    (arguments : List (Value Behaviour)) :
    Act.Preserves (Modest forest id) (Behaviour.standardHost.invoke handle arguments) := by
  have hwrite : ∀ work : Value Behaviour → Except HostError String,
      Act.Preserves (Modest forest id) (do
        let value ← Act.ofHost (Behaviour.argumentAt arguments 0)
        writeLine (← Act.ofHost (work value))
        return (.datum .null : Reply Behaviour)) := by
    intro work
    refine (Act.Preserves.ofExcept _).bind fun value => ?_
    refine (Act.Preserves.ofExcept _).bind fun text => ?_
    exact fun _ hs => ⟨hs.forest, hs.cursor, hs.values⟩
  rcases hhandle with rfl | rfl
  · exact hwrite Behaviour.textOf
  · exact hwrite Behaviour.shownOf

private theorem modest_call {callee : Value Behaviour} {arguments : List (Value Behaviour)}
    (hcallee : callee.payload.IsModest) (token : Token) (hs : s.Modest forest id) :
    (call Behaviour.standardHost callee arguments token).Ensures s
      (fun value t => value.payload.IsModest ∧ t.Modest forest id)
      (fun failure t => failure.IsFault ∧ t.Modest forest id) := by
  unfold call
  cases hpayload : callee.payload with
  | nothing =>
      exact .of_on_error rfl ⟨⟨_, rfl⟩, hs⟩
  | primitive value =>
      rw [hpayload] at hcallee
      obtain ⟨text, htext⟩ := hcallee
      have hshown : (Act.ofNumeral (Payload.primitive value : Payload Behaviour).render :
          Act (Session Behaviour) String).on s = (.ok text, s) := by
        rw [Payload.render, htext]
        rfl
      exact .of_on_error (Act.on_bind_of_ok hshown _) ⟨⟨_, rfl⟩, hs⟩
  | native name handle result =>
      rw [hpayload] at hcallee
      obtain ⟨hhandle, rfl⟩ := hcallee
      have hcalled : ({ s with journal := .called name handle arguments :: s.journal } :
          Session Behaviour).Modest forest id := ⟨hs.forest, hs.cursor, hs.values⟩
      have hafter := (modest_invoke hhandle arguments).ensures hcalled
      unfold Act.Ensures at hafter ⊢
      rw [Act.on_bind_of_ok (on_record _ s), Act.on_bind_of_ok (Act.on_attempt _ _)]
      match hinvoke : (Behaviour.standardHost.invoke handle arguments).on
        { s with journal := .called name handle arguments :: s.journal } with
      | (.ok reply, t) =>
          rw [hinvoke] at hafter
          exact ⟨trivial, hafter⟩
      | (.error (.fault diagnostic), t) =>
          rw [hinvoke] at hafter
          exact ⟨⟨_, rfl⟩, hafter⟩
      | (.error (.host error), t) =>
          rw [hinvoke] at hafter
          exact ⟨⟨_, rfl⟩, hafter⟩

/-- At the command line, execution works with modest values and stops for faults only. -/
theorem carries_modest (forest : Forest) :
    Carries Behaviour.standardHost forest (fun value => value.payload.IsModest) (Modest forest)
      Failure.IsFault (fun _ => True) where
  nothing := trivial
  literal := by
    intro id s token kind hs
    rw [execute]
    cases hvalue : literalValue token kind with
    | error diagnostic => exact .of_on_error rfl ⟨⟨_, rfl⟩, hs⟩
    | ok value =>
        exact .of_on_ok rfl ⟨render_of_literalValue hvalue, hs.forest, hs.cursor, hs.values⟩
  read := by
    intro id s symbol token hs
    have hdrained : (s.rescoped s.scoping).Modest forest id := ⟨hs.forest, hs.cursor, hs.values⟩
    refine (readVariable_stored symbol token s).mono ?_ ?_
    · rintro value _ ⟨hvalue, rfl⟩
      exact ⟨hs.values value hvalue, hdrained⟩
    · rintro failure _ ⟨hfault, rfl⟩
      exact ⟨hfault, hdrained⟩
  bound := by
    intro id s symbol value _ hvalue hs
    refine ⟨hs.forest, hs.cursor, ?_⟩
    intro old hold
    rcases ValueTable.mem_insert hold with rfl | hold
    · exact hvalue
    · exact hs.values old hold
  call token hcallee _ hs := modest_call hcallee token hs
  written := by
    intro id s value hvalue hs
    obtain ⟨text, htext⟩ := hvalue.render
    have hshown : (Act.ofNumeral value.payload.render : Act (Session Behaviour) String).on s =
        (.ok text, s) := by
      rw [htext]
      rfl
    exact .of_on_ok (Act.on_bind_of_ok hshown _) ⟨hs.forest, hs.cursor, hs.values⟩
  entering := by
    intro outer inner scope s hinner _ hs
    have hget : s.scoping.forest.get? inner = some scope := by rw [hs.forest, hinner]
    exact .of_on_ok (on_entering hget) ⟨hs.forest, Forest.id_of_get? hinner, hs.values⟩
  leaving := by
    intro outer inner scope s hinner hparent hs
    have hget : s.scoping.forest.get? s.scoping.cursor = some scope := by
      rw [hs.forest, hs.cursor, hinner]
    exact .of_on_ok (on_leaving hget hparent) ⟨hs.forest, rfl, hs.values⟩

end Session

end Scriptlet
