import Scriptlet.Token.Scan
/-!
# Lexemes

What one lexeme takes from the characters in front of it.  A lexeme is a prefix
of them, no lexeme but a newline holds a newline, none ends in a blank, and what
stands behind a newline has no influence on the lexemes before it.
-/

namespace Scriptlet

/-! ## Classes of characters -/

namespace Text

/-- Sets of characters whose ranges do not overlap have no common character. -/
theorem CharSet.contains_eq_false {set other : CharSet}
    (hapart : ∀ range ∈ set.ranges, ∀ range' ∈ other.ranges,
      range.2 < range'.1 ∨ range'.2 < range.1) {c : Char} (h : set.contains c = true) :
    other.contains c = false := by
  simp only [contains, List.any_eq_true, Bool.and_eq_true, decide_eq_true_eq] at h
  obtain ⟨range, hrange, hlow, hhigh⟩ := h
  rw [contains, List.any_eq_false]
  intro range' hrange' hin
  simp only [Bool.and_eq_true, decide_eq_true_eq] at hin
  rcases hapart range hrange range' hrange' with hlt | hlt <;> omega

private theorem wideSpaces_apart : ∀ range ∈ wideSpaces.ranges, ∀ range' ∈ wordCharacters.ranges,
    range.2 < range'.1 ∨ range'.2 < range.1 := by
  decide +kernel

private theorem le_of_isAlphanum {c : Char} (h : c.isAlphanum = true) : 0x30 ≤ c.toNat := by
  have hupper : 'A'.val.toNat = 0x41 := rfl
  have hlower : 'a'.val.toNat = 0x61 := rfl
  have hdigit : '0'.val.toNat = 0x30 := rfl
  unfold Char.isAlphanum Char.isAlpha Char.isUpper Char.isLower Char.isDigit at h
  simp only [Bool.or_eq_true, Bool.and_eq_true, decide_eq_true_eq, ge_iff_le,
    UInt32.le_iff_toNat_le] at h
  change 0x30 ≤ c.val.toNat
  omega

theorem not_isBlank_of_isWord {c : Char} (h : isWord c = true) : isBlank c = false := by
  unfold isWord at h
  rw [isBlank]
  by_cases hascii : c.toNat < 0x80
  · rw [if_pos hascii] at h ⊢
    have hlow : 0x30 ≤ c.toNat := by
      simp only [Bool.or_eq_true, beq_iff_eq] at h
      rcases h with h | rfl
      · exact le_of_isAlphanum h
      · decide
    have hne : ∀ d : Char, d.toNat < 0x30 → (c == d) = false := by
      intro d hd
      rw [beq_eq_false_iff_ne]
      rintro rfl
      omega
    rw [hne ' ' (by decide), hne '\t' (by decide),
      decide_eq_false (by omega : ¬ c.toNat ≤ 0x0D), Bool.and_false]
    rfl
  · rw [if_neg hascii] at h ⊢
    cases hspace : wideSpaces.contains c with
    | false => rfl
    | true => rw [CharSet.contains_eq_false wideSpaces_apart hspace] at h; exact h.symm

theorem isWord_of_isDigit {c : Char} (h : c.isDigit = true) : isWord c = true := by
  have hhigh : c.toNat < 0x80 := by
    simp only [Char.isDigit, Bool.and_eq_true, decide_eq_true_eq] at h
    exact Nat.lt_of_le_of_lt (UInt32.le_iff_toNat_le.1 h.2) (by decide)
  rw [isWord, if_pos hhigh, Char.isAlphanum, h, Bool.or_true, Bool.true_or]

theorem isWord_of_isNameStart {c : Char} (h : isNameStart c = true) : isWord c = true := by
  simp only [isNameStart, Bool.and_eq_true] at h
  exact h.1.1

theorem ne_newline_of_isWord {c : Char} (h : isWord c = true) : c ≠ '\n' := by
  rintro rfl
  exact absurd h (by decide)

theorem ne_newline_of_isBlank {c : Char} (h : isBlank c = true) : c ≠ '\n' := by
  rintro rfl
  exact absurd h (by decide)

end Text

/-! ## Runs of characters -/

theorem takeWhile_append_newline {p : Char → Bool} (hp : p '\n' = false) (chars more : List Char) :
    (chars ++ '\n' :: more).takeWhile p = chars.takeWhile p := by
  induction chars with
  | nil => simp [hp]
  | cons c chars ih => simp only [List.cons_append, List.takeWhile_cons, ih]

theorem dropWhile_append_newline {p : Char → Bool} (hp : p '\n' = false) (chars more : List Char) :
    (chars ++ '\n' :: more).dropWhile p = chars.dropWhile p ++ '\n' :: more := by
  induction chars with
  | nil => simp [hp]
  | cons c chars ih =>
      simp only [List.cons_append, List.dropWhile_cons, ih]
      split <;> rfl

namespace Lexeme

/-! ## Text literals -/

private theorem textBody?_eq_append {chars text body left : List Char}
    (h : textBody? chars = some (text, body, left)) : chars = body ++ left := by
  fun_induction textBody? chars generalizing text body left with
  | case1 => simp at h
  | case2 rest =>
      simp only [Option.some.injEq, Prod.mk.injEq] at h
      rw [← h.2.1, ← h.2.2]
      rfl
  | case3 => simp at h
  | case4 c rest _ ih =>
      obtain ⟨⟨t, b, l⟩, hbody, heq⟩ := Option.map_eq_some_iff.1 h
      simp only [Prod.mk.injEq] at heq
      rw [← heq.2.1, ← heq.2.2, ih hbody]
      rfl
  | case5 => simp at h
  | case6 c rest _ _ _ ih =>
      obtain ⟨⟨t, b, l⟩, hbody, heq⟩ := Option.map_eq_some_iff.1 h
      simp only [Prod.mk.injEq] at heq
      rw [← heq.2.1, ← heq.2.2, ih hbody]
      rfl

/-- The rest of a text literal stays on its line and ends in a quote. -/
theorem textBody?_body {chars text body left : List Char}
    (h : textBody? chars = some (text, body, left)) :
    '\n' ∉ body ∧ body.getLast? = some '"' := by
  fun_induction textBody? chars generalizing text body left with
  | case1 => simp at h
  | case2 rest =>
      simp only [Option.some.injEq, Prod.mk.injEq] at h
      rw [← h.2.1]
      decide
  | case3 => simp at h
  | case4 c rest hc ih =>
      obtain ⟨⟨t, b, l⟩, hbody, heq⟩ := Option.map_eq_some_iff.1 h
      simp only [Prod.mk.injEq] at heq
      obtain ⟨hnewline, hlast⟩ := ih hbody
      rw [← heq.2.1, List.mem_cons, List.mem_cons, List.getLast?_cons, List.getLast?_cons, hlast]
      exact ⟨by simp [hnewline, Ne.symm hc], rfl⟩
  | case5 => simp at h
  | case6 c rest hquote hescape hc ih =>
      obtain ⟨⟨t, b, l⟩, hbody, heq⟩ := Option.map_eq_some_iff.1 h
      simp only [Prod.mk.injEq] at heq
      obtain ⟨hnewline, hlast⟩ := ih hbody
      rw [← heq.2.1, List.mem_cons, List.getLast?_cons, hlast]
      rw [not_or] at hc
      exact ⟨by simp [hnewline, Ne.symm hc.1], rfl⟩

/-- A text literal ends before a newline or not at all. -/
theorem textBody?_append_newline (chars more : List Char) :
    textBody? (chars ++ '\n' :: more) =
      (textBody? chars).map fun (text, body, left) => (text, body, left ++ '\n' :: more) := by
  fun_induction textBody? chars with
  | case1 => simp [textBody?]
  | case2 rest => simp [textBody?]
  | case3 rest => simp [textBody?]
  | case4 c rest hc ih =>
      rw [List.cons_append, List.cons_append, textBody?, if_neg hc, ih, Option.map_map,
        Option.map_map]
      rfl
  | case5 c rest hquote hescape hc =>
      rcases hc with rfl | rfl
      · simp [textBody?]
      · cases rest with
        | nil => simp [textBody?]
        | cons next rest => exact (hescape next rest rfl rfl).elim
  | case6 c rest hquote hescape hc ih =>
      have hbackslash : c ≠ '\\' := fun heq => hc (.inr heq)
      rw [List.cons_append, textBody?, if_neg hc, ih, Option.map_map, Option.map_map]
      · rfl
      · exact hquote
      · intro _ _ heq
        exact absurd heq hbackslash

/-! ## Reading a lexeme -/

theorem read?_openingQuote (rest : List Char) :
    read? '"' rest = (textBody? rest).map fun (text, chars, left) =>
      (⟨.text, text, '"' :: chars⟩, left) := by
  have hstart : Text.isNameStart '"' = false := by decide
  have hdigit : '"'.isDigit = false := by decide
  simp only [read?, hstart, hdigit, Bool.false_eq_true, if_false, if_true]

theorem read?_cases {c : Char} {rest left : List Char} {lexeme : Lexeme}
    (h : read? c rest = some (lexeme, left)) :
    (Text.isNameStart c = true ∧ left = rest.dropWhile Text.isWord ∧
      lexeme.kind = (keyword? lexeme.chars).getD .name ∧
      lexeme.chars = c :: rest.takeWhile Text.isWord) ∨
    (c.isDigit = true ∧ left = rest.dropWhile Char.isDigit ∧ lexeme.kind = .number ∧
      lexeme.chars = c :: rest.takeWhile Char.isDigit) ∨
    (c = '"' ∧ lexeme.kind = .text ∧
      ∃ text body, textBody? rest = some (text, body, left) ∧ lexeme.chars = '"' :: body) ∨
    (left = rest ∧ punctuation? c = some lexeme.kind ∧ lexeme.chars = [c]) := by
  unfold read? at h
  split at h
  · next hstart =>
    simp only [Option.some.injEq, Prod.mk.injEq] at h
    obtain ⟨rfl, rfl⟩ := h
    exact .inl ⟨hstart, rfl, rfl, rfl⟩
  · split at h
    · next hdigit =>
      simp only [Option.some.injEq, Prod.mk.injEq] at h
      obtain ⟨rfl, rfl⟩ := h
      exact .inr (.inl ⟨hdigit, rfl, rfl, rfl⟩)
    · split at h
      · next hquote =>
        obtain ⟨⟨text, body, left'⟩, hbody, heq⟩ := Option.map_eq_some_iff.1 h
        simp only [Prod.mk.injEq] at heq
        obtain ⟨rfl, rfl⟩ := heq
        exact .inr (.inr (.inl ⟨hquote, rfl, text, body, hbody, rfl⟩))
      · obtain ⟨kind, hkind, heq⟩ := Option.map_eq_some_iff.1 h
        simp only [Prod.mk.injEq] at heq
        obtain ⟨rfl, rfl⟩ := heq
        exact .inr (.inr (.inr ⟨rfl, hkind, rfl⟩))

theorem text_eq_chars {c : Char} {rest left : List Char} {lexeme : Lexeme}
    (h : read? c rest = some (lexeme, left)) (hkind : lexeme.kind ≠ .text) :
    lexeme.text = lexeme.chars := by
  unfold read? at h
  split at h
  · obtain ⟨rfl, -⟩ := Prod.mk.inj (Option.some.inj h)
    rfl
  · split at h
    · obtain ⟨rfl, -⟩ := Prod.mk.inj (Option.some.inj h)
      rfl
    · split at h
      · obtain ⟨_, -, heq⟩ := Option.map_eq_some_iff.1 h
        obtain ⟨rfl, -⟩ := Prod.mk.inj heq
        exact absurd rfl hkind
      · obtain ⟨_, -, heq⟩ := Option.map_eq_some_iff.1 h
        obtain ⟨rfl, -⟩ := Prod.mk.inj heq
        rfl

private theorem punctuation?_newline {c : Char} {kind : Token.Kind}
    (h : punctuation? c = some kind) :
    Text.isBlank c = false ∧ (kind = .newline ↔ c = '\n') := by
  unfold punctuation? at h
  split at h <;> simp only [Option.some.injEq, reduceCtorEq] at h <;> subst h <;> decide

private theorem keyword?_ne_newline (word : List Char) : (keyword? word).getD .name ≠ .newline := by
  unfold keyword?
  split <;> simp

theorem read?_eq_append {c : Char} {rest left : List Char} {lexeme : Lexeme}
    (h : read? c rest = some (lexeme, left)) : c :: rest = lexeme.chars ++ left := by
  rcases read?_cases h with ⟨-, rfl, -, hchars⟩ | ⟨-, rfl, -, hchars⟩ |
    ⟨rfl, -, text, body, hbody, hchars⟩ | ⟨rfl, -, hchars⟩
  · rw [hchars, List.cons_append, List.takeWhile_append_dropWhile]
  · rw [hchars, List.cons_append, List.takeWhile_append_dropWhile]
  · rw [hchars, List.cons_append, ← textBody?_eq_append hbody]
  · rw [hchars]
    rfl

private theorem exists_getLast?_run {p : Char → Bool} {c : Char} (hc : p c = true)
    (rest : List Char) :
    ∃ d, (c :: rest.takeWhile p).getLast? = some d ∧ p d = true := by
  refine ⟨_, List.getLast?_cons .., ?_⟩
  cases hlast : (rest.takeWhile p).getLast? with
  | none => exact hc
  | some d => exact List.all_eq_true.1 List.all_takeWhile d (List.mem_of_getLast? hlast)

theorem read?_getLast {c : Char} {rest left : List Char} {lexeme : Lexeme}
    (h : read? c rest = some (lexeme, left)) :
    ∃ d, lexeme.chars.getLast? = some d ∧ Text.isBlank d = false := by
  rcases read?_cases h with ⟨hc, -, -, hchars⟩ | ⟨hc, -, -, hchars⟩ |
    ⟨-, -, text, body, hbody, hchars⟩ | ⟨-, hkind, hchars⟩
  · obtain ⟨d, hlast, hword⟩ := exists_getLast?_run (Text.isWord_of_isNameStart hc) rest
    exact ⟨d, hchars ▸ hlast, Text.not_isBlank_of_isWord hword⟩
  · obtain ⟨d, hlast, hdigit⟩ := exists_getLast?_run hc rest
    exact ⟨d, hchars ▸ hlast, Text.not_isBlank_of_isWord (Text.isWord_of_isDigit hdigit)⟩
  · refine ⟨'"', ?_, by decide⟩
    rw [hchars, List.getLast?_cons, (textBody?_body hbody).2]
    rfl
  · exact ⟨c, by rw [hchars]; rfl, (punctuation?_newline hkind).1⟩

private theorem newline_notMem_run {p : Char → Bool} (hp : p '\n' = false) {c : Char}
    (hc : c ≠ '\n')
    (rest : List Char) : '\n' ∉ c :: rest.takeWhile p := by
  intro hmem
  rcases List.mem_cons.1 hmem with heq | hmem
  · exact hc heq.symm
  · have := List.all_eq_true.1 List.all_takeWhile _ hmem
    rw [hp] at this
    exact absurd this (by decide)

/-- A newline is a lexeme of its own and stands in no other. -/
theorem read?_newline {c : Char} {rest left : List Char} {lexeme : Lexeme}
    (h : read? c rest = some (lexeme, left)) :
    (lexeme.kind = .newline → lexeme.chars = ['\n']) ∧
      (lexeme.kind ≠ .newline → '\n' ∉ lexeme.chars) := by
  rcases read?_cases h with ⟨hc, -, hkind, hchars⟩ | ⟨hc, -, hkind, hchars⟩ |
    ⟨-, hkind, text, body, hbody, hchars⟩ | ⟨-, hkind, hchars⟩
  · refine ⟨fun hnewline => absurd (hkind.symm.trans hnewline) (keyword?_ne_newline _), fun _ => ?_⟩
    rw [hchars]
    exact newline_notMem_run (by decide)
      (Text.ne_newline_of_isWord (Text.isWord_of_isNameStart hc)) rest
  · refine ⟨fun hnewline => absurd (hkind.symm.trans hnewline) (by decide), fun _ => ?_⟩
    rw [hchars]
    exact newline_notMem_run (by decide)
      (Text.ne_newline_of_isWord (Text.isWord_of_isDigit hc)) rest
  · refine ⟨fun hnewline => absurd (hkind.symm.trans hnewline) (by decide), fun _ => ?_⟩
    rw [hchars, List.mem_cons]
    rintro (heq | hmem)
    · exact absurd heq (by decide)
    · exact (textBody?_body hbody).1 hmem
  · have hiff := (punctuation?_newline hkind).2
    rw [hchars]
    refine ⟨fun hnewline => by rw [hiff.1 hnewline], fun hne hmem => ?_⟩
    exact hne (hiff.2 (List.mem_singleton.1 hmem).symm)

theorem read?_newline_cons (rest : List Char) :
    read? '\n' rest = some (⟨.newline, ['\n'], ['\n']⟩, rest) := by
  have hstart : Text.isNameStart '\n' = false := by decide
  have hdigit : '\n'.isDigit = false := by decide
  simp [read?, hstart, hdigit, punctuation?]

/-- What stands behind a newline has no influence on the lexemes before it. -/
theorem read?_append_newline (c : Char) (rest more : List Char) :
    read? c (rest ++ '\n' :: more) =
      (read? c rest).map fun (lexeme, left) => (lexeme, left ++ '\n' :: more) := by
  have hword : Text.isWord '\n' = false := by decide
  have hdigit : '\n'.isDigit = false := by decide
  unfold read?
  split
  · simp only [takeWhile_append_newline hword, dropWhile_append_newline hword, Option.map_some]
  · split
    · simp only [takeWhile_append_newline hdigit, dropWhile_append_newline hdigit,
        Option.map_some]
    · split
      · rw [textBody?_append_newline, Option.map_map, Option.map_map]
        rfl
      · rw [Option.map_map]
        rfl

end Lexeme

end Scriptlet
