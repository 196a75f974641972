import Mathlib.Algebra.Ring.Parity
import Mathlib.Order.Bounds.Basic
import Mathlib.Tactic.IntervalCases
import Scriptlet.Proofs.Scanning.Partition
/-!
# Text literals

The scanner takes the escapes of a text literal in pairs from the left.  So it ends the literal at
the first quote on the line that an even number of backslashes stands before.
-/

namespace Scriptlet

/-! ## Runs of backslashes -/

/-- How many backslashes stand at the end of a text, without anything between them. -/
def backslashRun (text : List Char) : Nat :=
  (text.reverse.takeWhile (· == '\\')).length

private theorem backslashRun_le (text : List Char) : backslashRun text ≤ text.length := by
  have hle := (List.takeWhile_prefix (· == '\\') (l := text.reverse)).length_le
  rw [List.length_reverse] at hle
  exact hle

theorem backslashRun_cons (c : Char) (text : List Char) :
    backslashRun (c :: text) =
      if backslashRun text = text.length ∧ c = '\\' then text.length + 1
      else backslashRun text := by
  unfold backslashRun
  rw [List.reverse_cons, List.takeWhile_append, List.length_reverse]
  by_cases hall : (text.reverse.takeWhile (· == '\\')).length = text.length
  · by_cases hc : c = '\\'
    · simp [hall, hc]
    · simp [hall, hc]
  · rw [if_neg hall, if_neg fun h => hall h.1]

private theorem backslashRun_cons_of_ne {c : Char} (hc : c ≠ '\\') (text : List Char) :
    backslashRun (c :: text) = backslashRun text := by
  rw [backslashRun_cons, if_neg fun h => hc h.2]

/-- A backslash and the character that it escapes do not change whether the run is even: where they
belong to it, the escaped character is a backslash as well. -/
theorem even_backslashRun_escape (c : Char) (text : List Char) :
    Even (backslashRun ('\\' :: c :: text)) ↔ Even (backslashRun text) := by
  have hle := backslashRun_le text
  rw [backslashRun_cons, backslashRun_cons, List.length_cons]
  by_cases hall : backslashRun text = text.length
  · by_cases hc : c = '\\'
    · simp [hall, hc, Nat.even_add_one]
    · simp [hall, hc]
  · have hinner : (if backslashRun text = text.length ∧ c = '\\' then text.length + 1
        else backslashRun text) = backslashRun text := if_neg fun h => hall h.1
    rw [hinner, if_neg fun h => by omega]

/-! ## Where a text literal ends -/

/-- A quote that can end a text literal whose content starts the text: it stands on the same line,
behind an even number of backslashes. -/
structure EndsContent (chars : List Char) (k : Nat) : Prop where
  quote : chars[k]? = some '"'
  line : '\n' ∉ chars.take k
  even : Even (backslashRun (chars.take k))

private theorem endsContent_quote (rest : List Char) : EndsContent ('"' :: rest) 0 :=
  ⟨rfl, by simp, by simp [backslashRun]⟩

theorem EndsContent.head_ne {c : Char} {rest : List Char} (hc : c ≠ '"') :
    ¬ EndsContent (c :: rest) 0 := by
  intro h
  exact hc (Option.some.inj h.quote)

theorem EndsContent.newline {rest : List Char} (k : Nat) : ¬ EndsContent ('\n' :: rest) k := by
  intro h
  cases k with
  | zero => exact absurd h.quote (by simp)
  | succ k => exact h.line (by simp)

private theorem endsContent_cons {c : Char} (hline : c ≠ '\n') (hescape : c ≠ '\\')
    {rest : List Char}
    (k : Nat) : EndsContent (c :: rest) (k + 1) ↔ EndsContent rest k := by
  constructor
  · rintro ⟨hquote, hnewline, heven⟩
    rw [List.take_succ_cons] at hnewline heven
    rw [backslashRun_cons_of_ne hescape] at heven
    exact ⟨hquote, fun h => hnewline (List.mem_cons_of_mem _ h), heven⟩
  · rintro ⟨hquote, hnewline, heven⟩
    refine ⟨hquote, ?_, ?_⟩
    · rw [List.take_succ_cons, List.mem_cons, not_or]
      exact ⟨hline.symm, hnewline⟩
    · rw [List.take_succ_cons, backslashRun_cons_of_ne hescape]
      exact heven

/-- Behind an escape the search starts anew, and neither of its two characters ends the literal. -/
theorem endsContent_escape {c : Char} (hline : c ≠ '\n') {rest : List Char} (k : Nat) :
    EndsContent ('\\' :: c :: rest) (k + 2) ↔ EndsContent rest k := by
  have htake : ('\\' :: c :: rest).take (k + 2) = '\\' :: c :: rest.take k := rfl
  constructor
  · rintro ⟨hquote, hnewline, heven⟩
    rw [htake] at hnewline heven
    exact ⟨hquote, fun h => hnewline (by simp [h]), (even_backslashRun_escape c _).1 heven⟩
  · rintro ⟨hquote, hnewline, heven⟩
    refine ⟨hquote, ?_, ?_⟩
    · rw [htake]
      simp [hnewline, hline.symm]
    · rw [htake]
      exact (even_backslashRun_escape c _).2 heven

theorem EndsContent.escaped {c : Char} {rest : List Char} :
    ¬ EndsContent ('\\' :: c :: rest) 1 := by
  intro h
  have heven := h.even
  simp [backslashRun] at heven

theorem isLeast_shift {p q : Nat → Prop} {n k : Nat} (hlow : ∀ i < n, ¬ q i)
    (hshift : ∀ i, q (i + n) ↔ p i) (h : IsLeast {i | p i} k) : IsLeast {i | q i} (k + n) := by
  refine ⟨(hshift k).2 h.1, ?_⟩
  intro i hi
  by_cases hn : i < n
  · exact absurd hi (hlow i hn)
  · have hp : p (i - n) := (hshift (i - n)).1 (by rwa [Nat.sub_add_cancel (by omega)])
    have := h.2 hp
    omega

namespace Lexeme

/-- The content of a text literal with every backslash taken together with the character behind
it. -/
def decode : List Char → List Char
  | [] => []
  | '\\' :: c :: rest => unescape c :: decode rest
  | c :: rest => c :: decode rest

private theorem decode_cons {c : Char} (hc : c ≠ '\\') (rest : List Char) :
    decode (c :: rest) = c :: decode rest := by
  rw [decode]
  intro d more heq
  exact absurd heq hc

/-- What stands behind the opening quote is cut at the first quote that can end the literal. -/
theorem textBody?_cases (chars : List Char) :
    (textBody? chars = none ∧ ∀ k, ¬ EndsContent chars k) ∨
      ∃ k, IsLeast {k | EndsContent chars k} k ∧
        textBody? chars =
          some (decode (chars.take k), chars.take (k + 1), chars.drop (k + 1)) := by
  fun_induction textBody? chars with
  | case1 => exact .inl ⟨rfl, fun k h => by simpa using h.quote⟩
  | case2 rest =>
      exact .inr ⟨0, ⟨endsContent_quote rest, fun k _ => Nat.zero_le k⟩, rfl⟩
  | case3 rest =>
      refine .inl ⟨rfl, ?_⟩
      rintro (_ | _ | k) h
      · exact EndsContent.head_ne (by decide) h
      · exact EndsContent.escaped h
      · exact h.line (by simp)
  | case4 c rest hc ih =>
      -- An escape takes two characters, of which neither ends the literal, even if the second is a
      -- quote.
      have hlow : ∀ i < 2, ¬ EndsContent ('\\' :: c :: rest) i := by
        intro i hi
        interval_cases i
        · exact EndsContent.head_ne (by decide)
        · exact EndsContent.escaped
      rcases ih with ⟨hnone, hends⟩ | ⟨k, hleast, hsome⟩
      · refine .inl ⟨by rw [hnone]; rfl, ?_⟩
        intro i h
        by_cases hi : i < 2
        · exact hlow i hi h
        · obtain ⟨k, rfl⟩ := Nat.exists_eq_add_of_le' (Nat.le_of_not_lt hi)
          exact hends k ((endsContent_escape hc k).1 h)
      · refine .inr ⟨k + 2, isLeast_shift hlow (endsContent_escape hc) hleast, ?_⟩
        rw [hsome]
        rfl
  | case5 c rest hquote hescape hc =>
      refine .inl ⟨rfl, ?_⟩
      rcases hc with rfl | rfl
      · exact EndsContent.newline
      · -- A backslash that nothing follows escapes nothing.
        cases rest with
        | cons d rest => exact (hescape d rest rfl rfl).elim
        | nil =>
            rintro (_ | k) h
            · exact EndsContent.head_ne (by decide) h
            · simpa using h.quote
  | case6 c rest hquote hescape hc ih =>
      rw [not_or] at hc
      have hlow : ∀ i < 1, ¬ EndsContent (c :: rest) i := by
        intro i hi
        obtain rfl := Nat.lt_one_iff.1 hi
        exact EndsContent.head_ne hquote
      rcases ih with ⟨hnone, hends⟩ | ⟨k, hleast, hsome⟩
      · refine .inl ⟨by rw [hnone]; rfl, ?_⟩
        rintro (_ | k) h
        · exact hlow 0 Nat.one_pos h
        · exact hends k ((endsContent_cons hc.1 hc.2 k).1 h)
      · refine .inr ⟨k + 1, isLeast_shift hlow (endsContent_cons hc.1 hc.2) hleast, ?_⟩
        rw [hsome, List.take_succ_cons, decode_cons hc.2]
        rfl

end Lexeme

/-- The quote at offset `q` of a source can end a text literal that opens at offset `p`: between the
two stands no newline, and right before it an even number of backslashes. -/
structure ClosesLiteral (source : List Char) (p q : Nat) : Prop where
  behind : p < q
  quote : source[q]? = some '"'
  line : '\n' ∉ (source.take q).drop (p + 1)
  even : Even (backslashRun ((source.take q).drop (p + 1)))

instance (source : List Char) (p q : Nat) : Decidable (ClosesLiteral source p q) :=
  decidable_of_iff (p < q ∧ source[q]? = some '"' ∧ '\n' ∉ (source.take q).drop (p + 1) ∧
      Even (backslashRun ((source.take q).drop (p + 1))))
    ⟨fun h => ⟨h.1, h.2.1, h.2.2.1, h.2.2.2⟩, fun h => ⟨h.behind, h.quote, h.line, h.even⟩⟩

theorem take_drop_succ (source : List Char) (p k : Nat) :
    (source.take (k + (p + 1))).drop (p + 1) = (source.drop (p + 1)).take k := by
  rw [List.drop_take, Nat.add_sub_cancel]

private theorem closesLiteral_iff (source : List Char) (p k : Nat) :
    ClosesLiteral source p (k + (p + 1)) ↔ EndsContent (source.drop (p + 1)) k := by
  have hquote : (source.drop (p + 1))[k]? = source[k + (p + 1)]? := by
    rw [List.getElem?_drop, Nat.add_comm]
  constructor
  · rintro ⟨-, hat, hline, heven⟩
    rw [take_drop_succ] at hline heven
    exact ⟨hquote.trans hat, hline, heven⟩
  · rintro ⟨hat, hline, heven⟩
    rw [← take_drop_succ] at hline heven
    exact ⟨by omega, hquote.symm.trans hat, hline, heven⟩

/-- A text literal that opens at an offset ends at the first quote that can end it, or nowhere. -/
theorem Lexeme.read?_quote (source : List Char) (p : Nat) :
    (read? '"' (source.drop (p + 1)) = none ∧ ∀ q, ¬ ClosesLiteral source p q) ∨
      ∃ q, IsLeast {q | ClosesLiteral source p q} q ∧
        read? '"' (source.drop (p + 1)) =
          some (⟨.text, decode ((source.take q).drop (p + 1)),
            '"' :: (source.take (q + 1)).drop (p + 1)⟩, source.drop (q + 1)) := by
  have hlow : ∀ i < p + 1, ¬ ClosesLiteral source p i := fun i hi h => by
    have := h.behind
    omega
  rcases textBody?_cases (source.drop (p + 1)) with ⟨hnone, hends⟩ | ⟨k, hleast, hsome⟩
  · refine .inl ⟨by rw [read?_openingQuote, hnone]; rfl, ?_⟩
    intro q h
    obtain ⟨k, rfl⟩ := Nat.exists_eq_add_of_le' (Nat.succ_le_of_lt h.behind)
    exact hends k ((closesLiteral_iff source p k).1 h)
  · refine .inr ⟨k + (p + 1), isLeast_shift hlow (closesLiteral_iff source p) hleast, ?_⟩
    have hbehind : k + (p + 1) + 1 = k + 1 + (p + 1) := by omega
    rw [read?_openingQuote, hsome, hbehind, take_drop_succ, take_drop_succ, Option.map_some,
      List.drop_drop, Nat.add_comm (p + 1)]

/-! ## Scans in progress -/

theorem Scanner.step_of_read? {s : Scanner} {c : Char} {rest left : List Char} {lexeme : Lexeme}
    (hrest : s.skipBlanks.rest = c :: rest) (hread : Lexeme.read? c rest = some (lexeme, left))
    (file : String) :
    s.step file = .token (s.skipBlanks.place file lexeme)
      (s.skipBlanks.advance lexeme.kind lexeme.chars left) := by
  simp only [step, read, hrest, hread]

inductive Scanner.Reads (file : String) : Scanner → List Token → Scanner → Prop where
  | refl (s : Scanner) : Reads file s [] s
  | step {s next t : Scanner} {token : Token} {tokens : List Token} :
      s.step file = .token token next → Reads file next tokens t →
      Reads file s (token :: tokens) t

theorem Scanner.Reads.run {file : String} {s t : Scanner} {tokens : List Token}
    (h : s.Reads file tokens t) :
    s.run file = ⟨tokens ++ (t.run file).tokens, (t.run file).fault⟩ := by
  induction h with
  | refl s => rfl
  | step hstep _ ih =>
      rw [run_of_token hstep, ih]
      rfl

theorem Scanner.Reads.behind {file : String} {s t : Scanner} {tokens : List Token}
    (h : s.Reads file tokens t) {before : List Char} (hbehind : s.Behind before)
    (hbefore : ∀ c ∈ before.getLast?, Text.isBlank c = false) :
    ∃ text, s.rest = text ++ t.rest ∧ t.Behind (before ++ text) := by
  induction h generalizing before with
  | refl s => exact ⟨[], rfl, by rwa [List.append_nil]⟩
  | step hstep _ ih =>
      obtain ⟨run, hrest, -, -, -, hnext, hlast⟩ := hbehind.step hbefore hstep
      obtain ⟨text, htext, hafter⟩ := ih hnext hlast
      refine ⟨_, ?_, by rwa [List.append_assoc] at hafter⟩
      rw [hrest, htext]
      simp only [List.append_assoc]

def StartsToken (source file : String) (tokens : List Token) (p : Nat) : Prop :=
  ∃ s, (Scanner.start source).Reads file tokens s ∧ s.skipBlanks.rest = source.toList.drop p

theorem Scanner.Reads.behind_take {source file : String} {tokens : List Token} {p : Nat} {s : Scanner}
    (hreads : (Scanner.start source).Reads file tokens s)
    (hrest : s.skipBlanks.rest = source.toList.drop p) :
    s.skipBlanks.Behind (source.toList.take p) := by
  obtain ⟨text, htext, hbehind⟩ := hreads.behind (Scanner.behind_start source) (by simp)
  have hblanks := hbehind.skipBlanks
  have hsplit : source.toList =
      (text ++ s.rest.takeWhile Text.isBlank) ++ source.toList.drop p := by
    rw [← hrest, List.append_assoc]
    exact htext.trans (congrArg _ List.takeWhile_append_dropWhile.symm)
  have htake : text ++ s.rest.takeWhile Text.isBlank = source.toList.take p := by
    refine List.append_cancel_right (hsplit.symm.trans ?_)
    rw [List.take_append_drop]
  rwa [List.nil_append, htake] at hblanks

def Token.textLiteral (source file : String) (p q : Nat) : Token where
  kind := .text
  text := String.ofList (Lexeme.decode ((source.toList.take q).drop (p + 1)))
  line := lineAfter (source.toList.take p)
  column := columnAfter (source.toList.take p)
  lexeme := String.ofList ((source.toList.take (q + 1)).drop p)
  file := file

theorem Token.length_textLiteral {source : String} (file : String) {p q : Nat}
    (h : ClosesLiteral source.toList p q) :
    p + (textLiteral source file p q).lexeme.toList.length = q + 1 := by
  have hq : q < source.toList.length := (List.getElem?_eq_some_iff.1 h.quote).1
  have hp := h.behind
  rw [textLiteral, String.toList_ofList, List.length_drop, List.length_take]
  omega

theorem StartsToken.quote_cases {source file : String} {tokens : List Token} {p : Nat}
    (hstart : StartsToken source file tokens p) (hquote : source.toList[p]? = some '"') :
    (∀ q, ¬ ClosesLiteral source.toList p q) ∧
        (∃ diagnostic, TokenStream.scan source file = ⟨tokens, some diagnostic⟩ ∧
          diagnostic.fault = .unterminatedText "\"" ∧
          diagnostic.span = Span.point file (lineAfter (source.toList.take p))
            (columnAfter (source.toList.take p))) ∨
      ∃ q, IsLeast {q | ClosesLiteral source.toList p q} q ∧
        ∃ later, (TokenStream.scan source file).tokens =
          tokens ++ Token.textLiteral source file p q :: later := by
  obtain ⟨s, hreads, hrest⟩ := hstart
  obtain ⟨hline, hcolumn⟩ := hreads.behind_take hrest
  have hcons : ∀ {chars : List Char}, chars[p]? = some '"' →
      chars.drop p = '"' :: chars.drop (p + 1) := by
    intro chars h
    exact List.drop_eq_getElem?_toList_append.trans (by rw [h]; rfl)
  rw [hcons hquote] at hrest
  rcases Lexeme.read?_quote source.toList p with ⟨hnone, hends⟩ | ⟨q, hleast, hsome⟩
  · have hstep : s.step file = .stuck (s.skipBlanks.stuck file '"') := by
      simp only [Scanner.step, Scanner.read, hrest, hnone]
    refine .inl ⟨hends, s.skipBlanks.stuck file '"', ?_, rfl, ?_⟩
    · rw [TokenStream.scan, hreads.run, Scanner.run_of_stuck hstep, List.append_nil]
    · rw [← hline, ← hcolumn]
      rfl
  · have hat : (source.toList.take (q + 1))[p]? = some '"' := by
      rw [List.getElem?_take, if_pos (Nat.lt_succ_of_lt hleast.1.behind), hquote]
    obtain ⟨next, hstep⟩ : ∃ next, s.step file =
        .token (Token.textLiteral source file p q) next := by
      rw [Scanner.step_of_read? hrest hsome file, Token.textLiteral, hcons hat, ← hline, ← hcolumn]
      exact ⟨_, rfl⟩
    refine .inr ⟨q, hleast, (next.run file).tokens, ?_⟩
    rw [TokenStream.scan, hreads.run, Scanner.run_of_token hstep]

/-- A text literal ends at the first quote that can end it, and its text is the content with every
escape replaced.  If no quote can end it, the scan stops where the literal starts. -/
theorem StartsToken.textLiteral_ends {source file : String} {tokens : List Token} {p : Nat}
    (hstart : StartsToken source file tokens p) (hquote : source.toList[p]? = some '"') :
    (∀ q, (∃ token later, (TokenStream.scan source file).tokens = tokens ++ token :: later ∧
          token.kind = .text ∧ p + token.lexeme.toList.length = q + 1) ↔
        IsLeast {q | ClosesLiteral source.toList p q} q) ∧
      (∀ q, IsLeast {q | ClosesLiteral source.toList p q} q →
        ∃ later, (TokenStream.scan source file).tokens =
          tokens ++ Token.textLiteral source file p q :: later) ∧
      ((∀ q, ¬ ClosesLiteral source.toList p q) ↔
        ∃ diagnostic, TokenStream.scan source file = ⟨tokens, some diagnostic⟩ ∧
          diagnostic.fault = .unterminatedText "\"" ∧
          diagnostic.span = Span.point file (lineAfter (source.toList.take p))
            (columnAfter (source.toList.take p))) := by
  have hnone : ∀ (token : Token) later, tokens ≠ tokens ++ token :: later := by
    intro token later h
    exact List.cons_ne_nil token later (List.self_eq_append_right.1 h)
  rcases hstart.quote_cases hquote with ⟨hends, diagnostic, hscan, hfault⟩ |
    ⟨q, hleast, later, hscan⟩
  · refine ⟨fun q => ⟨?_, fun h => absurd h.1 (hends q)⟩, fun q h => absurd h.1 (hends q),
      fun _ => ⟨diagnostic, hscan, hfault⟩, fun _ => hends⟩
    rintro ⟨token, later, h, -⟩
    rw [hscan] at h
    exact absurd h (hnone token later)
  · refine ⟨fun q' => ⟨?_, fun h => ?_⟩, fun q' h => ?_, fun hends => absurd hleast.1 (hends q), ?_⟩
    · rintro ⟨token, more, h, -, hlexeme⟩
      rw [hscan] at h
      obtain rfl := (List.cons.inj (List.append_cancel_left h)).1
      rw [Token.length_textLiteral file hleast.1] at hlexeme
      rwa [← Nat.succ.inj hlexeme]
    · obtain rfl := h.unique hleast
      exact ⟨_, later, hscan, rfl, Token.length_textLiteral file h.1⟩
    · obtain rfl := h.unique hleast
      exact ⟨later, hscan⟩
    · rintro ⟨diagnostic, hstuck, -⟩
      rw [hstuck] at hscan
      exact absurd hscan (hnone _ _)

/-- An escaped quote does not end the literal. -/
theorem StartsToken.textLiteral_ends_behind_escape :
    ∃ first later, (TokenStream.scan ": \"a\\\"b\" c" "m").tokens =
      [first] ++ ⟨.text, "a\"b", 1, 3, "\"a\\\"b\"", "m"⟩ :: later := by
  have hstep : (Scanner.start ": \"a\\\"b\" c").step "m" = .token ⟨.debugPrint, ":", 1, 1, ":", "m"⟩
      ⟨" \"a\\\"b\" c".toList, 1, 2, ": \"a\\\"b\" c".toList⟩ := rfl
  have hstart : StartsToken ": \"a\\\"b\" c" "m" [⟨.debugPrint, ":", 1, 1, ":", "m"⟩] 2 :=
    ⟨_, .step hstep (.refl _), by decide⟩
  have hcloses : IsLeast {q | ClosesLiteral ": \"a\\\"b\" c".toList 2 q} 7 := by
    refine ⟨by decide, ?_⟩
    intro q h
    by_contra hlt
    have hp := h.behind
    interval_cases q
    all_goals
      revert h
      decide
  obtain ⟨later, hscan⟩ := (hstart.textLiteral_ends (by decide)).2.1 7 hcloses
  exact ⟨_, later, hscan⟩

end Scriptlet
