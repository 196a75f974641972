import Scriptlet.Sexp
/-!
# Line breaks

An S-expression that is laid out on several lines says what it says on one line: at every break
stands a newline with an indentation instead of a space.
-/

namespace Scriptlet.Sexp

/-- Every atom is written as a text with the given property. -/
inductive Atoms (p : List Char → Prop) : Sexp → Prop where
  | datum {value : Datum} : p (writeDatum value) → Atoms p (.datum value)
  | text {value : String} : p (Text.lineLiteral value).toList → Atoms p (.text value)
  | word {value : String} : p (writeWord value) → Atoms p (.word value)
  | list {items : List Sexp} : (∀ item ∈ items, Atoms p item) → Atoms p (.list items)

theorem Atoms.mono {p q : List Char → Prop} {sexp : Sexp} (h : sexp.Atoms p)
    (hpq : ∀ chars, p chars → q chars) : sexp.Atoms q := by
  induction h with
  | datum h => exact .datum (hpq _ h)
  | text h => exact .text (hpq _ h)
  | word h => exact .word (hpq _ h)
  | list _ ih => exact .list ih

/-- What stands on one line behind the head of a list, without the closing parenthesis. -/
def flatTail (items : List Sexp) : List Char :=
  items.flatMap fun item => ' ' :: flat item

theorem flatTail_cons (item : Sexp) (items : List Sexp) :
    flatTail (item :: items) = ' ' :: (flat item ++ flatTail items) := rfl

theorem flatItemsOnto_cons (item : Sexp) (items : List Sexp) (rest : List Char) :
    flatItemsOnto (item :: items) rest = flat item ++ (flatTail items ++ rest) := by
  induction items generalizing item with
  | nil => rw [flatItemsOnto, flatOnto_eq, flatTail, List.flatMap_nil, List.nil_append]
  | cons next items ih =>
      rw [flatItemsOnto, ih, flatOnto_eq, flatTail_cons, List.cons_append, List.append_assoc]
      exact nofun

theorem flat_nil : flat (.list []) = ['(', ')'] := rfl

theorem flat_cons (head : Sexp) (items : List Sexp) :
    flat (.list (head :: items)) = '(' :: (flat head ++ (flatTail items ++ [')'])) := by
  rw [flat, flatOnto, flatItemsOnto_cons]

/-! ## Joined lines -/

/-- Joins the lines of a text: a newline becomes a space, and the spaces behind it are dropped.  So
are those at the start of the text, if it stands behind a newline itself. -/
def joinLines (behindNewline : Bool) : List Char → List Char
  | [] => []
  | c :: rest =>
    if c = '\n' then ' ' :: joinLines true rest
    else if behindNewline ∧ c = ' ' then joinLines true rest
    else c :: joinLines false rest

theorem joinLines_newline (behindNewline : Bool) (rest : List Char) :
    joinLines behindNewline ('\n' :: rest) = ' ' :: joinLines true rest := by
  rw [joinLines, if_pos rfl]

theorem joinLines_cons {c : Char} (hline : c ≠ '\n') (hspace : c ≠ ' ') (behindNewline : Bool)
    (rest : List Char) : joinLines behindNewline (c :: rest) = c :: joinLines false rest := by
  rw [joinLines, if_neg hline, if_neg fun h => hspace h.2]

theorem joinLines_inside {c : Char} (hline : c ≠ '\n') (rest : List Char) :
    joinLines false (c :: rest) = c :: joinLines false rest := by
  rw [joinLines, if_neg hline, if_neg fun h => nomatch h.1]

theorem joinLines_append {chars : List Char} (h : '\n' ∉ chars) (rest : List Char) :
    joinLines false (chars ++ rest) = chars ++ joinLines false rest := by
  induction chars with
  | nil => rfl
  | cons c chars ih =>
      rw [List.mem_cons, not_or] at h
      rw [List.cons_append, joinLines_inside (Ne.symm h.1), ih h.2, List.cons_append]

theorem joinLines_margin (page : Page) (depth : Int) (rest : List Char) :
    joinLines true (page.margin depth ++ rest) = joinLines true rest := by
  rw [Page.margin]
  induction (page.indent * depth).toNat with
  | zero => rfl
  | succ n ih =>
      rw [List.replicate_succ, List.cons_append, joinLines, if_neg (by decide), if_pos ⟨rfl, rfl⟩]
      exact ih

/-- A text that joining lines leaves alone, wherever it stands: it is no line break and does not
start like an indentation. -/
structure Solid (chars : List Char) : Prop where
  line : '\n' ∉ chars
  head : ∃ c rest, chars = c :: rest ∧ c ≠ ' '

theorem Solid.joinLines {chars : List Char} (h : Solid chars) (rest : List Char) :
    joinLines true (chars ++ rest) = chars ++ joinLines false rest := by
  obtain ⟨hline, c, chars, rfl, hspace⟩ := h
  rw [List.mem_cons, not_or] at hline
  rw [List.cons_append, joinLines_cons (Ne.symm hline.1) hspace, joinLines_append hline.2,
    List.cons_append]

theorem line_flatTail {items : List Sexp} (h : ∀ item ∈ items, '\n' ∉ flat item) :
    '\n' ∉ flatTail items := by
  intro hmem
  obtain ⟨item, hitem, hmem⟩ := List.mem_flatMap.1 hmem
  rcases List.mem_cons.1 hmem with heq | hmem
  · exact absurd heq (by decide)
  · exact h item hitem hmem

/-- On one line an S-expression is solid if its atoms are. -/
theorem Atoms.solid_flat {sexp : Sexp} (h : sexp.Atoms Solid) : Solid (flat sexp) := by
  induction h with
  | datum h | text h | word h => rwa [flat, flatOnto, List.append_nil]
  | @list items _ ih =>
      cases items with
      | nil => exact ⟨by rw [flat_nil]; decide, _, _, flat_nil, by decide⟩
      | cons head items =>
          rw [List.forall_mem_cons] at ih
          refine ⟨?_, _, _, flat_cons head items, by decide⟩
          have htail := line_flatTail fun item hitem => (ih.2 item hitem).line
          simp [flat_cons, ih.1.line, htail]

/-! ## Layouts -/

theorem joinLines_layoutItemsOnto (page : Page) (depth : Int) {items : List Sexp}
    (h : ∀ item ∈ items, ∀ rest, joinLines true (layoutOnto page depth item rest) =
      flat item ++ joinLines false rest) (rest : List Char) :
    joinLines false (layoutItemsOnto page depth items rest) =
      flatTail items ++ joinLines false rest := by
  induction items with
  | nil => rfl
  | cons item items ih =>
      rw [List.forall_mem_cons] at h
      rw [layoutItemsOnto, joinLines_newline, h.1, ih h.2, flatTail_cons, List.cons_append,
        List.append_assoc]

theorem joinLines_line (page : Page) (depth : Int) {sexp : Sexp} (h : sexp.Atoms Solid)
    (rest : List Char) : joinLines true (page.margin depth ++ flatOnto sexp rest) =
      flat sexp ++ joinLines false rest := by
  rw [joinLines_margin, flatOnto_eq, h.solid_flat.joinLines]

theorem joinLines_layoutOnto (page : Page) {sexp : Sexp} (h : sexp.Atoms Solid) (depth : Int)
    (rest : List Char) : joinLines true (layoutOnto page depth sexp rest) =
      flat sexp ++ joinLines false rest := by
  induction h generalizing depth rest with
  | datum h =>
      rw [layoutOnto]
      · exact joinLines_line page depth (.datum h) rest
      · exact nofun
  | text h =>
      rw [layoutOnto]
      · exact joinLines_line page depth (.text h) rest
      · exact nofun
  | word h =>
      rw [layoutOnto]
      · exact joinLines_line page depth (.word h) rest
      · exact nofun
  | @list items h ih =>
      cases items with
      | nil =>
          rw [layoutOnto]
          · exact joinLines_line page depth (.list h) rest
          · exact nofun
      | cons head items =>
          rw [layoutOnto]
          split
          · exact joinLines_line page depth (.list h) rest
          · -- The head stays on the opening line, and every other item stands behind a newline.
            rw [List.forall_mem_cons] at h ih
            have hitems := joinLines_layoutItemsOnto page (depth + 1)
              (fun item hitem rest => ih.2 item hitem (depth + 1) rest) (')' :: rest)
            rw [joinLines_margin, joinLines_cons (by decide) (by decide), flatOnto_eq,
              joinLines_append h.1.solid_flat.line, hitems, joinLines_inside (by decide),
              flat_cons]
            simp only [List.cons_append, List.append_assoc, List.nil_append]

/-- Joining its lines and dropping its indentation turns a layout into the one line. -/
theorem joinLines_layout (page : Page) (depth : Int) {sexp : Sexp} (h : sexp.Atoms Solid) :
    joinLines true (layout page depth sexp) = flat sexp := by
  rw [layout, joinLines_layoutOnto page h, joinLines, List.append_nil]

end Scriptlet.Sexp
