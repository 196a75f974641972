import Scriptlet.Proofs.Printing.Layout
/-!
# Line breaks are layout

However wide a page is and however deep it indents, an S-expression says the same on it: a layout is
the S-expression on one line, behind an indentation, with newlines and further indentation in the
place of some of its spaces.  That holds of all atoms that are written without a newline, since none
is empty or starts with a space.
-/

namespace Scriptlet

def StartsVisibly (chars : List Char) : Prop :=
  ∃ c rest, chars = c :: rest ∧ c ≠ ' '

namespace StartsVisibly

theorem cons {c : Char} (hc : c ≠ ' ') (rest : List Char) : StartsVisibly (c :: rest) :=
  ⟨c, rest, rfl, hc⟩

theorem append {chars : List Char} (h : StartsVisibly chars) (more : List Char) :
    StartsVisibly (chars ++ more) := by
  obtain ⟨c, rest, rfl, hc⟩ := h
  exact cons hc (rest ++ more)

theorem string_append {text : String} (h : StartsVisibly text.toList) (more : String) :
    StartsVisibly (text ++ more).toList := by
  rw [String.toList_append]
  exact h.append more.toList

theorem bracketed {opening : String} (h : StartsVisibly opening.toList) (inside closing : String) :
    StartsVisibly (opening ++ inside ++ closing).toList :=
  (h.string_append inside).string_append closing

theorem take {chars : List Char} (h : StartsVisibly chars) {n : Nat} (hn : 0 < n) :
    StartsVisibly (chars.take n) := by
  obtain ⟨c, rest, rfl, hc⟩ := h
  obtain ⟨n, rfl⟩ := Nat.exists_eq_add_one.2 hn
  exact cons hc (rest.take n)

theorem toDigits (n : Nat) : StartsVisibly (Nat.toDigits 10 n) := by
  obtain ⟨c, rest, hdigits⟩ := List.exists_cons_of_ne_nil
    (List.ne_nil_of_length_pos (Nat.length_toDigits_pos (b := 10) (n := n)))
  refine ⟨c, rest, hdigits, ?_⟩
  rintro rfl
  have hdigit : ' '.isDigit = true :=
    Nat.isDigit_of_mem_toDigits (b := 10) (n := n) (by decide) (by decide) (by simp [hdigits])
  exact absurd hdigit (by decide)

end StartsVisibly

theorem Numeral.startsVisibly_text (n : Int) : StartsVisibly (Numeral.text n).toList := by
  unfold Numeral.text
  dsimp only
  split
  · have hminus : StartsVisibly "-".toList := ⟨'-', [], rfl, by decide⟩
    exact hminus.string_append _
  · rw [String.toList_ofList]
    exact .toDigits _

namespace Decimal

theorem Layout.startsVisibly_place (layout : Layout) (d : Digits) :
    StartsVisibly (layout.place d) := by
  have hdigits := StartsVisibly.toDigits d.digits
  unfold Layout.place
  dsimp only
  split
  · split
    · exact .cons (by decide) _
    · split
      · exact (hdigits.append _).append _
      · next hpoint _ =>
        exact (hdigits.take (by omega)).append _
  · rw [List.append_assoc]
    exact (hdigits.take Nat.one_pos).append _

private theorem startsVisibly_write (x : Float) : StartsVisibly (Layout.plain.write x).toList := by
  have hsign : ∀ {bits : Nat} {text : String}, StartsVisibly text.toList →
      StartsVisibly ((if bits < signWeight then "" else "-") ++ text).toList := by
    intro bits text htext
    split
    · rw [String.toList_append]
      exact htext
    · have hminus : StartsVisibly "-".toList := ⟨'-', [], rfl, by decide⟩
      exact hminus.string_append text
  unfold Layout.write
  split
  · exact ⟨'n', _, rfl, by decide⟩
  · dsimp only
    split
    · exact hsign ⟨'i', _, rfl, by decide⟩
    · refine hsign ?_
      rw [String.toList_ofList]
      exact Layout.startsVisibly_place _ _

end Decimal

namespace Sexp

private theorem startsVisibly_writeWord (value : String) : StartsVisibly (writeWord value) := by
  unfold writeWord
  dsimp only
  split
  · exact .cons (by decide) _
  · next hbare =>
    rw [Bool.or_eq_true, not_or, List.isEmpty_iff] at hbare
    obtain ⟨c, rest, hvalue⟩ := List.exists_cons_of_ne_nil hbare.1
    rw [hvalue] at hbare ⊢
    refine .cons ?_ rest
    rintro rfl
    exact hbare.2 rfl

private theorem startsVisibly_writeDatum (value : Datum) : StartsVisibly (writeDatum value) := by
  cases value with
  | truth value => cases value <;> exact ⟨'#', _, rfl, by decide⟩
  | text value => exact startsVisibly_writeWord value
  | integer value =>
      change StartsVisibly (Datum.integer value).written.toList
      rw [Datum.written]
      exact Numeral.startsVisibly_text value
  | decimal value =>
      change StartsVisibly (Datum.decimal value).written.toList
      rw [Datum.written]
      exact Decimal.startsVisibly_write value
  | null => exact ⟨'N', _, rfl, by decide⟩
  | nothing => exact ⟨'V', _, rfl, by decide⟩
  | bytes value =>
      have hmark : StartsVisibly "b".toList := ⟨'b', [], rfl, by decide⟩
      change StartsVisibly (Datum.bytes value).written.toList
      rw [Datum.written]
      exact hmark.string_append _
  | list items =>
      have hopening : StartsVisibly "[".toList := ⟨'[', [], rfl, by decide⟩
      change StartsVisibly (Datum.list items).written.toList
      rw [Datum.written]
      exact hopening.bracketed _ _
  | tuple items =>
      have hopening : StartsVisibly "(".toList := ⟨'(', [], rfl, by decide⟩
      change StartsVisibly (Datum.tuple items).written.toList
      -- A tuple with one item is written in its own way.
      obtain _ | ⟨item, _ | ⟨next, items⟩⟩ := items
      · rw [Datum.written]
        · exact hopening.bracketed _ _
        · exact nofun
      · rw [Datum.written]
        exact hopening.bracketed _ _
      · rw [Datum.written]
        · exact hopening.bracketed _ _
        · exact nofun
  | record fields =>
      have hopening : StartsVisibly "\x7b".toList := ⟨'\x7b', [], rfl, by decide⟩
      change StartsVisibly (Datum.record fields).written.toList
      rw [Datum.written]
      exact hopening.bracketed _ _

/-- An atom that is written without a newline is solid. -/
theorem Atoms.solid {sexp : Sexp} (h : sexp.Atoms ('\n' ∉ ·)) : sexp.Atoms Solid := by
  induction h with
  | @datum value h => exact .datum ⟨h, startsVisibly_writeDatum value⟩
  | @text value h =>
      refine .text ⟨h, ?_⟩
      rw [Text.lineLiteral, String.toList_ofList]
      exact StartsVisibly.cons (by decide) _
  | @word value h => exact .word ⟨h, startsVisibly_writeWord value⟩
  | list _ ih => exact .list ih

/-- A layout in front of a text starts with the margin of its depth, and what follows is neither
empty nor indented any further. -/
theorem layoutOnto_eq_margin_append (page : Page) (depth : Int) {sexp : Sexp}
    (h : sexp.Atoms Solid) (rest : List Char) :
    ∃ body, layoutOnto page depth sexp rest = page.margin depth ++ body ∧ StartsVisibly body := by
  have hline : StartsVisibly (flatOnto sexp rest) := by
    rw [flatOnto_eq]
    exact StartsVisibly.append h.solid_flat.head rest
  unfold layoutOnto
  split
  · dsimp only
    split
    · exact ⟨_, rfl, hline⟩
    · exact ⟨_, rfl, .cons (by decide) _⟩
  · exact ⟨_, rfl, hline⟩

private theorem joinLines_of_startsVisibly {chars : List Char} (h : StartsVisibly chars) :
    joinLines true chars = joinLines false chars := by
  obtain ⟨c, rest, rfl, hc⟩ := h
  rw [joinLines, joinLines]
  split
  · rfl
  · rw [if_neg fun hblank => hc hblank.2, if_neg fun hblank => hc hblank.2]

/-- Of an S-expression whose atoms are written without a newline, every layout is the one line,
behind the margin of its depth, once its lines are joined: pages differ only in where they break
lines. -/
theorem layout_joins_flat {sexp : Sexp} (h : sexp.Atoms ('\n' ∉ ·)) (page : Page) (depth : Int) :
    (∃ body, layout page depth sexp = page.margin depth ++ body ∧ body.head? ≠ some ' ' ∧
      joinLines false body = flat sexp) ∧
    ∀ (page' : Page) (depth' : Int),
      joinLines true (layout page' depth' sexp) = joinLines true (layout page depth sexp) := by
  obtain ⟨body, hbody, hvisible⟩ := layoutOnto_eq_margin_append page depth h.solid []
  rw [← layout] at hbody
  refine ⟨⟨body, hbody, ?_, ?_⟩, fun page' depth' => ?_⟩
  · obtain ⟨c, rest, rfl, hc⟩ := hvisible
    rw [List.head?_cons]
    exact fun heq => hc (Option.some.inj heq)
  · rw [← joinLines_of_startsVisibly hvisible, ← joinLines_margin page depth, ← hbody]
    exact joinLines_layout page depth h.solid
  · rw [joinLines_layout page' depth' h.solid, joinLines_layout page depth h.solid]

/-- A call with a blank and a newline inside of its texts, on a page that is too narrow for it. -/
def narrowCall : Sexp :=
  .list [.word "call", .word "a  b", .list [.word "f", .text "x\n y", .list []],
    .datum (.integer 7)]

theorem layout_joins_flat_narrow :
    let page : Page := ⟨3, 19⟩
    layout page 1 narrowCall = ("   (call\n      \"a  b\"\n      (f\n" ++
      "         \"x\\n y\"\n         ())\n      7)").toList ∧
    (∃ body, layout page 1 narrowCall = page.margin 1 ++ body ∧ body.head? ≠ some ' ' ∧
      joinLines false body = flat narrowCall) ∧
    ∀ (page' : Page) (depth' : Int),
      joinLines true (layout page' depth' narrowCall) =
        joinLines true (layout page 1 narrowCall) := by
  refine ⟨by decide +kernel, layout_joins_flat ?_ _ _⟩
  refine .list ?_
  simp only [List.forall_mem_cons, List.not_mem_nil, false_implies, implies_true, and_true]
  refine ⟨.word (by decide), .word (by decide), .list ?_, .datum (by decide)⟩
  simp only [List.forall_mem_cons, List.not_mem_nil, false_implies, implies_true, and_true]
  exact ⟨.word (by decide), .text (by decide), .list (by simp)⟩

end Sexp

end Scriptlet
