import Scriptlet.Proofs.Syntax.Completeness
/-!
# Foresight

The parser looks one token ahead: what it makes of its input depends on the
tokens that it consumes and on the next one.  Whatever it has consumed when it
stops can be completed to a piece of input that the grammar derives.  Here this
is stated of any procedure, with the rules by which procedures are put together.
-/

namespace Scriptlet.Parser

open Grammar

variable {α β : Type} {ctx : Context} {tokens : List Token}

/-- A procedure of the parser: it yields what it read and what it left. -/
abbrev Procedure (α : Type) := Context → List Token → Except Diagnostic (α × List Token)

/-- The tokens can be completed to a piece of input that is derived. -/
def Completable (Derived : List Token → α → Prop) (tokens : List Token) : Prop :=
  ∃ more value, Derived (tokens ++ more) value

/-- If it is a sort of tokens that is expected, any token of that sort can stand next. -/
def Invites (Derived : List Token → α → Prop) (used : List Token) (expected : List String) :
    Prop :=
  ∀ kind : Token.Kind, kind.label ∈ expected → ∀ token : Token, token.kind = kind →
    Completable Derived (used ++ [token])

/-- The faults for which a procedure may stop: a token that stops it whatever comes behind that
token, or the end of the input.  In both cases the tokens in front can be completed. -/
inductive Halts (run : Procedure α) (Derived : List Token → α → Prop) (ctx : Context)
    (tokens : List Token) : Diagnostic → Prop where
  | token (used rest : List Token) {token : Token} {expected : List String} {hint : String} :
      tokens = used ++ token :: rest → Completable Derived used → Invites Derived used expected →
      (∀ ctx' rest', ctx'.fault = none →
        run ctx' (used ++ token :: rest') = .error (unexpected token expected hint)) →
      Halts run Derived ctx tokens (unexpected token expected hint)
  | ended {expected : List String} {hint : String} :
      Completable Derived tokens → Invites Derived tokens expected →
      Halts run Derived ctx tokens (ctx.ended expected hint)

/-- A procedure foresees one token: it reads the same piece in front of any other rest that starts
alike, and otherwise it halts. -/
def Foresees (run : Procedure α) (Derived : List Token → α → Prop) (Follow : List Token → Prop)
    (ctx : Context) (tokens : List Token) : Prop :=
  match run ctx tokens with
  | .ok (value, rest) => ∃ used, tokens = used ++ rest ∧ Derived used value ∧ Follow rest ∧
      ∀ ctx' rest', ctx'.fault = none → rest'.head? = rest.head? →
        run ctx' (used ++ rest') = .ok (value, rest')
  | .error d => Halts run Derived ctx tokens d

/-! ## Completions -/

theorem Completable.trans {Derived : List Token → α → Prop} {Derived' : List Token → β → Prop}
    {used : List Token} (h : Completable Derived used)
    (hnext : ∀ used value, Derived used value → Completable Derived' used) :
    Completable Derived' used := by
  obtain ⟨more, value, hvalue⟩ := h
  obtain ⟨others, result, hresult⟩ := hnext _ value hvalue
  exact ⟨more ++ others, result, by rwa [List.append_assoc] at hresult⟩

theorem Invites.trans {Derived : List Token → α → Prop} {Derived' : List Token → β → Prop}
    {used : List Token} {expected : List String} (h : Invites Derived used expected)
    (hnext : ∀ used value, Derived used value → Completable Derived' used) :
    Invites Derived' used expected :=
  fun kind hkind token htoken => (h kind hkind token htoken).trans hnext

/-- What can be completed behind a piece can be completed together with it. -/
theorem Completable.behind {Derived : List Token → α → Prop} (before : List Token)
    {used : List Token} (h : Completable (fun more value => Derived (before ++ more) value) used) :
    Completable Derived (before ++ used) := by
  obtain ⟨more, value, hvalue⟩ := h
  exact ⟨more, value, by rwa [List.append_assoc]⟩

theorem Invites.behind {Derived : List Token → α → Prop} (before : List Token)
    {used : List Token} {expected : List String}
    (h : Invites (fun more value => Derived (before ++ more) value) used expected) :
    Invites Derived (before ++ used) expected := by
  intro kind hkind token htoken
  rw [List.append_assoc]
  exact (h kind hkind token htoken).behind before

theorem invites_expression (Derived : List Token → α → Prop) (used : List Token) :
    Invites Derived used ["expression"] := by
  intro kind hkind
  cases kind <;> simp [Token.Kind.label] at hkind

theorem invites_statement (Derived : List Token → α → Prop) (used : List Token) :
    Invites Derived used ["statement"] := by
  intro kind hkind
  cases kind <;> simp [Token.Kind.label] at hkind

/-! ## Rules -/

theorem Foresees.of_ok {run : Procedure α} {Derived : List Token → α → Prop}
    {Follow : List Token → Prop} {value : α} (used : List Token) {rest : List Token}
    (h : run ctx tokens = .ok (value, rest)) (htokens : tokens = used ++ rest)
    (hused : Derived used value) (hrest : Follow rest)
    (hsame : ∀ ctx' rest', ctx'.fault = none → rest'.head? = rest.head? →
      run ctx' (used ++ rest') = .ok (value, rest')) :
    Foresees run Derived Follow ctx tokens := by
  unfold Foresees
  rw [h]
  exact ⟨used, htokens, hused, hrest, hsame⟩

theorem Foresees.of_halts {run : Procedure α} {Derived : List Token → α → Prop}
    {Follow : List Token → Prop} {d : Diagnostic} (h : run ctx tokens = .error d)
    (hhalts : Halts run Derived ctx tokens d) : Foresees run Derived Follow ctx tokens := by
  unfold Foresees
  rw [h]
  exact hhalts

theorem Foresees.of_unread {run : Procedure α} {Derived : List Token → α → Prop}
    {Follow : List Token → Prop} {value : α} (hctx : ctx.fault = none) (hderived : Derived [] value)
    (hfollow : Follow tokens)
    (hsame : ∀ ctx' rest', ctx'.fault = none → rest'.head? = tokens.head? →
      run ctx' rest' = .ok (value, rest')) :
    Foresees run Derived Follow ctx tokens :=
  .of_ok [] (hsame ctx tokens hctx rfl) rfl hderived hfollow hsame

theorem foresees_ok {Derived : List Token → α → Prop} {Follow : List Token → Prop} {value : α}
    (hderived : Derived [] value) (hfollow : Follow tokens) :
    Foresees (fun _ rest => .ok (value, rest)) Derived Follow ctx tokens :=
  ⟨[], rfl, hderived, hfollow, fun _ _ _ _ => rfl⟩

theorem Foresees.mono {run : Procedure α} {Derived Derived' : List Token → α → Prop}
    {Follow Follow' : List Token → Prop} (h : Foresees run Derived Follow ctx tokens)
    (hderived : ∀ used value, Derived used value → Derived' used value)
    (hfollow : ∀ rest, Follow rest → Follow' rest) :
    Foresees run Derived' Follow' ctx tokens := by
  have hcomplete : ∀ used value, Derived used value → Completable Derived' used :=
    fun used value hvalue => ⟨[], value, by rw [List.append_nil]; exact hderived used value hvalue⟩
  unfold Foresees at h ⊢
  match run ctx tokens, h with
  | .ok (value, rest), ⟨used, htokens, hused, hrest, hsame⟩ =>
      exact ⟨used, htokens, hderived used value hused, hfollow rest hrest, hsame⟩
  | .error _, .token used rest htokens hused hinvites hsame =>
      exact .token used rest htokens (hused.trans hcomplete) (hinvites.trans hcomplete) hsame
  | .error _, .ended hused hinvites =>
      exact .ended (hused.trans hcomplete) (hinvites.trans hcomplete)

theorem head?_append_congr {used rest rest' : List Token} (h : rest'.head? = rest.head?) :
    (used ++ rest').head? = (used ++ rest).head? := by
  rw [List.head?_append, List.head?_append, h]

theorem Foresees.congr {run run' : Procedure α} {Derived : List Token → α → Prop}
    {Follow : List Token → Prop} (h : Foresees run Derived Follow ctx tokens)
    (hctx : ctx.fault = none)
    (hrun : ∀ ctx' tokens', ctx'.fault = none → tokens'.head? = tokens.head? →
      run' ctx' tokens' = run ctx' tokens') :
    Foresees run' Derived Follow ctx tokens := by
  unfold Foresees at h ⊢
  rw [hrun ctx tokens hctx rfl]
  match run ctx tokens, h with
  | .ok (value, rest), ⟨used, htokens, hused, hrest, hsame⟩ =>
      refine ⟨used, htokens, hused, hrest, fun ctx' rest' hctx' hhead => ?_⟩
      rw [hrun ctx' _ hctx' (by rw [htokens]; exact head?_append_congr hhead)]
      exact hsame ctx' rest' hctx' hhead
  | .error _, .token used rest htokens hused hinvites hsame =>
      refine .token used rest htokens hused hinvites fun ctx' rest' hctx' => ?_
      rw [hrun ctx' _ hctx' (by rw [htokens]; exact head?_append_congr rfl)]
      exact hsame ctx' rest' hctx'
  | .error _, .ended hused hinvites => exact .ended hused hinvites

theorem Foresees.cons {run : Procedure α} {token : Token} {rest : List Token}
    {Derived : List Token → α → Prop} {Follow : List Token → Prop}
    (h : Foresees (fun ctx rest => run ctx (token :: rest))
      (fun used value => Derived (token :: used) value) Follow ctx rest) :
    Foresees run Derived Follow ctx (token :: rest) := by
  unfold Foresees at h ⊢
  dsimp only at h
  match run ctx (token :: rest), h with
  | .ok (value, left), ⟨used, hrest, hused, hleft, hsame⟩ =>
      exact ⟨token :: used, by rw [hrest, List.cons_append], hused, hleft, hsame⟩
  | .error _, .token used left hrest hused hinvites hsame =>
      exact .token (token :: used) left (by rw [hrest, List.cons_append]) (hused.behind [token])
        (hinvites.behind [token]) hsame
  | .error _, .ended hused hinvites =>
      exact .ended (hused.behind [token]) (hinvites.behind [token])

/-- Reading goes on behind a first piece, which can always be completed. -/
theorem Foresees.bind {first : Procedure α}
    {next : Context → α × List Token → Except Diagnostic (β × List Token)}
    {Derived : List Token → α → Prop} {Follow : List Token → Prop}
    {Derived' : List Token → β → Prop} {Follow' : List Token → Prop}
    (hfirst : Foresees first Derived Follow ctx tokens)
    (hcomplete : ∀ used value, Derived used value → Completable Derived' used)
    (hnext : ∀ value used rest, first ctx tokens = .ok (value, rest) → tokens = used ++ rest →
      Derived used value → Follow rest →
      Foresees (fun ctx rest => next ctx (value, rest))
        (fun more result => Derived' (used ++ more) result) Follow' ctx rest) :
    Foresees (fun ctx tokens => first ctx tokens >>= next ctx) Derived' Follow' ctx tokens := by
  unfold Foresees at hfirst ⊢
  dsimp only
  match hread : first ctx tokens, hfirst with
  | .ok (value, rest), ⟨used, htokens, hused, hrest, hsame⟩ =>
      have hafter := hnext value used rest hread htokens hused hrest
      unfold Foresees at hafter
      dsimp only at hafter
      rw [ok_bind]
      match next ctx (value, rest), hafter with
      | .ok (result, left), ⟨more, hsplit, hmore, hleft, hsame'⟩ =>
          refine ⟨used ++ more, by rw [htokens, hsplit, List.append_assoc], hmore, hleft, ?_⟩
          intro ctx' rest' hctx' hhead
          have hhead' : (more ++ rest').head? = rest.head? := by
            rw [hsplit]
            exact head?_append_congr hhead
          rw [List.append_assoc, hsame ctx' _ hctx' hhead', ok_bind]
          exact hsame' ctx' rest' hctx' hhead
      | .error _, .token more left hsplit hmore hinvites hsame' =>
          refine .token (used ++ more) left (by rw [htokens, hsplit, List.append_assoc])
            (hmore.behind used) (hinvites.behind used) ?_
          intro ctx' rest' hctx'
          rw [List.append_assoc, hsame ctx' _ hctx' (by rw [hsplit]; exact head?_append_congr rfl),
            ok_bind]
          exact hsame' ctx' rest' hctx'
      | .error _, .ended hmore hinvites =>
          rw [htokens]
          exact .ended (hmore.behind used) (hinvites.behind used)
  | .error _, .token used rest htokens hused hinvites hsame =>
      refine .token used rest htokens (hused.trans hcomplete) (hinvites.trans hcomplete) ?_
      intro ctx' rest' hctx'
      rw [hsame ctx' rest' hctx', error_bind]
  | .error _, .ended hused hinvites =>
      exact .ended (hused.trans hcomplete) (hinvites.trans hcomplete)

/-- Newlines that were skipped belong to what was read behind them. -/
theorem Foresees.skipped {run run' : Procedure α} {Derived Derived' : List Token → α → Prop}
    {Follow : List Token → Prop}
    (h : Foresees run Derived Follow ctx (tokens.dropWhile isNewline)) (hctx : ctx.fault = none)
    (hrun : ∀ ctx' tokens', ctx'.fault = none →
      run' ctx' tokens' = run ctx' (tokens'.dropWhile isNewline))
    (hderived : ∀ gap inner value, Newlines gap → Derived inner value →
      Derived' (gap ++ inner) value) :
    Foresees run' Derived' Follow ctx tokens := by
  have hgap := newlines_takeWhile tokens
  have hsplit := (List.takeWhile_append_dropWhile (p := isNewline) (l := tokens)).symm
  have hcomplete : ∀ used value, Derived used value →
      Completable (fun more value => Derived' (tokens.takeWhile isNewline ++ more) value) used :=
    fun used value hused => ⟨[], value, by rw [List.append_nil]; exact hderived _ _ _ hgap hused⟩
  -- What was read starts with no newline, so the same newlines are skipped in front of any rest.
  have hskip : ∀ used rest rest', tokens.dropWhile isNewline = used ++ rest →
      rest'.head? = rest.head? →
      ((tokens.takeWhile isNewline ++ used) ++ rest').dropWhile isNewline = used ++ rest' := by
    intro used rest rest' hused hhead
    rw [List.append_assoc, dropWhile_newlines_append hgap]
    have hhead' : (used ++ rest').head? = (used ++ rest).head? := head?_append_congr hhead
    cases hinner : used ++ rest' with
    | nil => rfl
    | cons token more =>
        apply dropWhile_newlines_cons
        rw [hinner, ← hused] at hhead'
        have hnot := List.head?_dropWhile_not isNewline tokens
        rw [← hhead'] at hnot
        simpa [isNewline] using hnot
  unfold Foresees at h ⊢
  rw [hrun ctx tokens hctx]
  generalize run ctx (tokens.dropWhile isNewline) = result at h ⊢
  cases result with
  | ok read =>
      obtain ⟨used, hdrop, hused, hrest, hsame⟩ := h
      refine ⟨_, ?_, hderived _ used read.1 hgap hused, hrest, ?_⟩
      · rw [List.append_assoc, ← hdrop]
        exact hsplit
      · intro ctx' rest' hctx' hhead
        rw [hrun ctx' _ hctx', hskip used read.2 rest' hdrop hhead]
        exact hsame ctx' rest' hctx' hhead
  | error d =>
      cases h with
      | token used rest hdrop hused hinvites hsame =>
          refine .token (tokens.takeWhile isNewline ++ used) rest ?_
            ((hused.trans hcomplete).behind _) ((hinvites.trans hcomplete).behind _) ?_
          · rw [List.append_assoc, ← hdrop]
            exact hsplit
          · intro ctx' rest' hctx'
            rw [hrun ctx' _ hctx', hskip used (_ :: rest) (_ :: rest') hdrop rfl]
            exact hsame ctx' rest' hctx'
      | ended hused hinvites =>
          have hall := (hused.trans hcomplete).behind _
          have hnext := (hinvites.trans hcomplete).behind _
          rw [← hsplit] at hall hnext
          exact .ended hall hnext

end Scriptlet.Parser
