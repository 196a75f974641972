import Mathlib.Data.List.TakeWhile
import Scriptlet.Proofs.Syntax.Literals
/-!
# Spacing

Where one lexeme ends and the next begins does not depend on the blanks between them.  Written down
again with other blanks, as long as some stand between any two, the lexemes of a source make the
same tokens.
-/

namespace Scriptlet

namespace Lexeme

/-- A text literal is read back from its own characters, whatever follows. -/
theorem textBody?_again {chars text body left : List Char}
    (h : textBody? chars = some (text, body, left)) (more : List Char) :
    textBody? (body ++ more) = some (text, body, more) := by
  fun_induction textBody? chars generalizing text body left with
  | case1 => cases h
  | case2 rest =>
      simp only [Option.some.injEq, Prod.mk.injEq] at h
      obtain ⟨rfl, rfl, -⟩ := h
      rfl
  | case3 => cases h
  | case4 c rest hc ih =>
      obtain ⟨⟨text', body', left'⟩, hbody, heq⟩ := Option.map_eq_some_iff.1 h
      simp only [Prod.mk.injEq] at heq
      obtain ⟨rfl, rfl, -⟩ := heq
      rw [List.cons_append, List.cons_append, textBody?, if_neg hc, ih hbody, Option.map_some]
  | case5 => cases h
  | case6 c rest hquote _ hc ih =>
      obtain ⟨⟨text', body', left'⟩, hbody, heq⟩ := Option.map_eq_some_iff.1 h
      simp only [Prod.mk.injEq] at heq
      obtain ⟨rfl, rfl, -⟩ := heq
      have hescape : c ≠ '\\' := fun heq => hc (.inr heq)
      rw [List.cons_append, textBody?, if_neg hc, ih hbody, Option.map_some]
      · exact hquote
      · intro _ _ heq
        exact absurd heq hescape

/-- A lexeme that is cut out of its context is read as itself in front of blanks. -/
theorem read?_again {c : Char} {rest left more : List Char} {lexeme : Lexeme}
    (h : read? c rest = some (lexeme, left)) (hmore : ∀ d ∈ more.head?, Text.isBlank d = true) :
    ∃ word, lexeme.chars = c :: word ∧ read? c (word ++ more) = some (lexeme, more) := by
  have hword : ∀ d ∈ more.head?, Text.isWord d = false := by
    intro d hd
    by_contra hne
    have hblank := Text.not_isBlank_of_isWord (Bool.of_not_eq_false hne)
    rw [hmore d hd] at hblank
    cases hblank
  unfold read? at h
  split at h
  · next hstart =>
    obtain ⟨rfl, -⟩ := Prod.mk.injEq .. ▸ Option.some.inj h
    exact ⟨_, rfl, read?_word hstart (List.all_eq_true.1 List.all_takeWhile) hword⟩
  · next hstart =>
    split at h
    · next hdigit =>
      obtain ⟨rfl, -⟩ := Prod.mk.injEq .. ▸ Option.some.inj h
      refine ⟨_, rfl, read?_digits hdigit (List.all_eq_true.1 List.all_takeWhile) ?_⟩
      intro d hd
      by_contra hne
      have hdigit := Text.isWord_of_isDigit (Bool.of_not_eq_false hne)
      rw [hword d hd] at hdigit
      cases hdigit
    · next hdigit =>
      split at h
      · next hquote =>
        subst hquote
        obtain ⟨⟨text, body, left'⟩, hbody, heq⟩ := Option.map_eq_some_iff.1 h
        obtain ⟨rfl, -⟩ := Prod.mk.injEq .. ▸ heq
        exact ⟨body, rfl, by rw [read?_openingQuote, textBody?_again hbody, Option.map_some]⟩
      · next hquote =>
        obtain ⟨kind, hkind, heq⟩ := Option.map_eq_some_iff.1 h
        obtain ⟨rfl, -⟩ := Prod.mk.injEq .. ▸ heq
        refine ⟨[], rfl, ?_⟩
        rw [List.nil_append, read?, if_neg hstart, if_neg hdigit, if_neg hquote, hkind,
          Option.map_some]

end Lexeme

/-- The tokens are the same but for the place where they stand. -/
structure Token.SameWord (token other : Token) : Prop where
  kind : other.kind = token.kind
  text : other.text = token.text
  lexeme : other.lexeme = token.lexeme

theorem Token.map_eq_of_forall₂ {α : Type} {f : Token → α} {tokens others : List Token}
    (h : List.Forall₂ (fun token other => f other = f token) tokens others) :
    others.map f = tokens.map f := by
  induction h with
  | nil => rfl
  | cons heq _ ih => rw [List.map_cons, List.map_cons, heq, ih]

structure Spaced (pieces : List (List Char × Token)) (last : List Char) : Prop where
  blank : ∀ piece ∈ pieces, ∀ c ∈ piece.1, Text.isBlank c = true
  between : ∀ piece ∈ pieces.tail, piece.1 ≠ []
  last : ∀ c ∈ last, Text.isBlank c = true

namespace Spaced

variable {run last : List Char} {token : Token} {pieces : List (List Char × Token)}

theorem tail (h : Spaced ((run, token) :: pieces) last) : Spaced pieces last where
  blank piece hpiece := h.blank piece (List.mem_cons_of_mem _ hpiece)
  between piece hpiece := h.between piece (List.mem_of_mem_tail hpiece)
  last := h.last

theorem head (h : Spaced ((run, token) :: pieces) last) :
    ∀ c ∈ (piecesText pieces ++ last).head?, Text.isBlank c = true := by
  intro c hc
  cases pieces with
  | nil => exact h.last c (List.mem_of_mem_head? hc)
  | cons next pieces =>
      obtain ⟨gap, next⟩ := next
      have hgap : gap ≠ [] := h.between _ List.mem_cons_self
      obtain ⟨d, gap, rfl⟩ := List.exists_cons_of_ne_nil hgap
      obtain rfl : d = c := Option.some.inj hc
      exact h.blank _ (List.mem_cons_of_mem _ List.mem_cons_self) d List.mem_cons_self

end Spaced

/-- A scan of the same lexemes with blanks between any two makes the same tokens. -/
theorem Scanner.run_spaced {file file' : String} {pieces : List (List Char × Token)}
    {last : List Char} (hspaced : Spaced pieces last) {s t : Scanner}
    (hrun : s.run file = ⟨pieces.map Prod.snd, none⟩) (hrest : t.rest = piecesText pieces ++ last) :
    ∃ tokens, t.run file' = ⟨tokens, none⟩ ∧
      List.Forall₂ Token.SameWord (pieces.map Prod.snd) tokens := by
  induction pieces generalizing s t with
  | nil =>
      have hblank : t.rest.dropWhile Text.isBlank = [] := by
        rw [List.dropWhile_eq_nil_iff, hrest]
        exact hspaced.last
      have hdone : t.step file' = .done := by
        simp [step, read, skipBlanks, hblank]
      exact ⟨[], run_of_done hdone, .nil⟩
  | cons piece pieces ih =>
      obtain ⟨run, token⟩ := piece
      rw [List.map_cons] at hrun
      rcases s.step_cases file with ⟨-, hstep⟩ | ⟨c, rest, -, hstep⟩ |
        ⟨c, rest, lexeme, left, hdrop, hread, hstep⟩
      · rw [run_of_done hstep] at hrun
        cases hrun
      · rw [run_of_stuck hstep] at hrun
        cases hrun
      · rw [run_of_token hstep, TokenStream.mk.injEq, List.cons.injEq] at hrun
        obtain ⟨⟨rfl, htokens⟩, hfault⟩ := hrun
        have hnext : (s.skipBlanks.advance lexeme.kind lexeme.chars left).run file =
            ⟨pieces.map Prod.snd, none⟩ := by
          rw [← htokens, ← hfault]
        obtain ⟨word, hchars, hagain⟩ := Lexeme.read?_again hread hspaced.head
        have hc : ¬ Text.isBlank c = true := by
          have hhead := List.head?_dropWhile_not Text.isBlank s.rest
          rw [hdrop] at hhead
          simpa using hhead
        have hdrop' : t.rest.dropWhile Text.isBlank =
            c :: (word ++ (piecesText pieces ++ last)) := by
          have hlexeme : (s.skipBlanks.place file lexeme).lexeme.toList = c :: word := by
            rw [place, String.toList_ofList, hchars]
          rw [hrest, piecesText, List.flatMap_cons, hlexeme, List.append_assoc, List.append_assoc,
            List.dropWhile_append_of_pos (hspaced.blank _ List.mem_cons_self), List.cons_append,
            List.dropWhile_cons_of_neg hc]
          rfl
        have htoken : t.step file' = .token (t.skipBlanks.place file' lexeme)
            (t.skipBlanks.advance lexeme.kind lexeme.chars (piecesText pieces ++ last)) := by
          simp [step, read, skipBlanks, hdrop', hagain]
        obtain ⟨tokens, hrun', hsame⟩ := ih hspaced.tail hnext (rest_advance _ _ _ _)
        exact ⟨t.skipBlanks.place file' lexeme :: tokens, by rw [run_of_token htoken, hrun'],
          .cons ⟨rfl, rfl, rfl⟩ hsame⟩

/-- The lexemes of a source, written with any blanks between them, in front of the first one and
behind the last one, are scanned into tokens of the same kinds, texts and lexemes. -/
theorem TokenStream.scan_spaced {source file : String} {pieces : List (List Char × Token)}
    {last : List Char} (hsource : scan source file = ⟨pieces.map Prod.snd, none⟩)
    (hblank : ∀ piece ∈ pieces, ∀ c ∈ piece.1, Text.isBlank c = true)
    (hbetween : ∀ piece ∈ pieces.tail, piece.1 ≠ [])
    (hlast : ∀ c ∈ last, Text.isBlank c = true) (file' : String) :
    ∃ tokens, scan (String.ofList (piecesText pieces ++ last)) file' = ⟨tokens, none⟩ ∧
      List.Forall₂ Token.SameWord (pieces.map Prod.snd) tokens :=
  Scanner.run_spaced ⟨hblank, hbetween, hlast⟩ hsource String.toList_ofList

/-- A number that a name follows without a blank, and a text with blanks in it. -/
theorem TokenStream.scan_spaced_apart : ∃ tokens,
    scan "\t12 x \t= \"a  b\" " "" = ⟨tokens, none⟩ ∧
      tokens.map Token.kind = [.number, .name, .assign, .text] ∧
      tokens.map Token.lexeme = ["12", "x", "=", "\"a  b\""] := by
  let pieces : List (List Char × Token) :=
    [(['\t'], ⟨.number, "12", 1, 1, "12", ""⟩), ([' '], ⟨.name, "x", 1, 3, "x", ""⟩),
      ([' ', '\t'], ⟨.assign, "=", 1, 4, "=", ""⟩),
      ([' '], ⟨.text, "a  b", 1, 5, "\"a  b\"", ""⟩)]
  have hsource : scan "12x=\"a  b\"" "" = ⟨pieces.map Prod.snd, none⟩ := by decide +kernel
  have hspace : Text.isBlank ' ' = true := by decide
  have htab : Text.isBlank '\t' = true := by decide
  have hblank : ∀ piece ∈ pieces, ∀ c ∈ piece.1, Text.isBlank c = true := by
    simp [pieces, hspace, htab]
  have hbetween : ∀ piece ∈ pieces.tail, piece.1 ≠ [] := by simp [pieces]
  have hlast : ∀ c ∈ [' '], Text.isBlank c = true := by simp [hspace]
  have hspelled : String.ofList (piecesText pieces ++ [' ']) = "\t12 x \t= \"a  b\" " := rfl
  obtain ⟨tokens, hscan, hsame⟩ := scan_spaced hsource hblank hbetween hlast ""
  rw [hspelled] at hscan
  refine ⟨tokens, hscan, ?_, ?_⟩
  · exact Token.map_eq_of_forall₂ (hsame.imp fun _ _ h => h.kind)
  · exact Token.map_eq_of_forall₂ (hsame.imp fun _ _ h => h.lexeme)

end Scriptlet
