import Scriptlet.Proofs.Printing.Layout
import Scriptlet.Proofs.Syntax.Literals
/-!
# Unique readability

An S-expression on one line can be read in one way only: where an atom or a list ends shows in the
characters, whatever stands inside texts.
-/

namespace Scriptlet.Sexp

/-- What can be seen of an S-expression: how its atoms are written, and its lists. -/
inductive Outline where
  | atom (chars : List Char)
  | list (items : List Outline)

mutual

def outline : Sexp → Outline
  | datum value => .atom (writeDatum value)
  | text value => .atom (Text.lineLiteral value).toList
  | word value => .atom (writeWord value)
  | list items => .list (outlines items)

def outlines : List Sexp → List Outline
  | [] => []
  | item :: items => outline item :: outlines items

end

/-- Atoms that end where they should: bare ones without delimiters, and texts between quotes. -/
inductive Legible : List Char → Prop where
  | bare {chars : List Char} : chars ≠ [] → (∀ c ∈ chars, isDelimiter c = false ∧ c ≠ '\n') →
      Legible chars
  | quoted (text : String) : Legible (Text.lineLiteral text).toList

/-- Behind an atom stands a delimiter or nothing. -/
def Ends (rest : List Char) : Prop :=
  ∀ c ∈ rest.head?, isDelimiter c = true

/-! ## Atoms -/

theorem toList_lineLiteral (text : String) (rest : List Char) :
    (Text.lineLiteral text).toList ++ rest =
      '"' :: (text.toList.flatMap Text.escapedLineChar ++ '"' :: rest) := by
  simp [Text.lineLiteral]

theorem lineLiteral_append_inj {left right : String} {rest rest' : List Char}
    (h : (Text.lineLiteral left).toList ++ rest = (Text.lineLiteral right).toList ++ rest') :
    left = right ∧ rest = rest' := by
  rw [toList_lineLiteral, toList_lineLiteral] at h
  have hread := congrArg Lexeme.textBody? (List.cons.inj h).2
  rw [Lexeme.textBody?_escaped, Lexeme.textBody?_escaped] at hread
  simp only [Option.some.injEq, Prod.mk.injEq] at hread
  exact ⟨String.toList_inj.1 hread.1, hread.2.2⟩

private theorem line_escapedLineChar (c : Char) : '\n' ∉ Text.escapedLineChar c := by
  unfold Text.escapedLineChar Text.escapedChar
  split
  · decide
  · next hline =>
    split
    · simp [Ne.symm hline]
    · simp [Ne.symm hline]

theorem Legible.solid {chars : List Char} (h : Legible chars) : Solid chars := by
  cases h with
  | bare hne hchars =>
      obtain ⟨c, rest, rfl⟩ := List.exists_cons_of_ne_nil hne
      refine ⟨fun hmem => (hchars _ hmem).2 rfl, c, rest, rfl, ?_⟩
      rintro rfl
      exact absurd (hchars ' ' List.mem_cons_self).1 (by decide)
  | quoted text =>
      have hchars := toList_lineLiteral text []
      rw [List.append_nil] at hchars
      refine ⟨?_, _, _, hchars, by decide⟩
      simp [hchars, line_escapedLineChar]

theorem Legible.head_ne {chars : List Char} (h : Legible chars) :
    ∃ c rest, chars = c :: rest ∧ c ≠ '(' ∧ c ≠ ')' := by
  cases h with
  | bare hne hchars =>
      obtain ⟨c, rest, rfl⟩ := List.exists_cons_of_ne_nil hne
      have hc := (hchars c List.mem_cons_self).1
      refine ⟨c, rest, rfl, ?_, ?_⟩
      · rintro rfl
        exact absurd hc (by decide)
      · rintro rfl
        exact absurd hc (by decide)
  | quoted text =>
      have hchars := toList_lineLiteral text []
      rw [List.append_nil] at hchars
      exact ⟨_, _, hchars, by decide, by decide⟩

theorem Legible.unique {left right rest rest' : List Char} (hleft : Legible left)
    (hright : Legible right) (hrest : Ends rest) (hrest' : Ends rest')
    (h : left ++ rest = right ++ rest') : left = right ∧ rest = rest' := by
  have hbare : ∀ {chars more : List Char}, (∀ c ∈ chars, isDelimiter c = false ∧ c ≠ '\n') →
      Ends more → (chars ++ more).takeWhile (fun c => !isDelimiter c) = chars := by
    intro chars more hchars hmore
    refine (span_append (fun c hc => ?_) fun c hc => ?_).1
    · rw [(hchars c hc).1]
      rfl
    · rw [hmore c hc]
      rfl
  -- A bare atom has no quote in it, and a text starts with one.
  have hmixed : ∀ {chars more others : List Char}, chars ≠ [] →
      (∀ c ∈ chars, isDelimiter c = false ∧ c ≠ '\n') → chars ++ more ≠ '"' :: others := by
    intro chars more others hne hchars heq
    obtain ⟨c, tail, rfl⟩ := List.exists_cons_of_ne_nil hne
    obtain ⟨rfl, -⟩ := List.cons.inj heq
    exact absurd (hchars '"' List.mem_cons_self).1 (by decide)
  cases hleft with
  | bare hne hchars =>
      cases hright with
      | bare hne' hchars' =>
          have heq : left = right := by
            rw [← hbare hchars hrest, h, hbare hchars' hrest']
          subst heq
          exact ⟨rfl, List.append_cancel_left h⟩
      | quoted text =>
          rw [toList_lineLiteral] at h
          exact absurd h (hmixed hne hchars)
  | quoted text =>
      cases hright with
      | bare hne hchars =>
          rw [toList_lineLiteral] at h
          exact absurd h.symm (hmixed hne hchars)
      | quoted text' =>
          obtain ⟨rfl, hsame⟩ := lineLiteral_append_inj h
          exact ⟨rfl, hsame⟩

/-! ## Lists -/

theorem Atoms.shape {p : List Char → Prop} {sexp : Sexp} (h : sexp.Atoms p) :
    (∃ chars, p chars ∧ flat sexp = chars ∧ outline sexp = .atom chars) ∨
      ∃ items, sexp = .list items ∧ ∀ item ∈ items, item.Atoms p := by
  cases h with
  | datum h | text h | word h => exact .inl ⟨_, h, List.append_nil _, rfl⟩
  | list h => exact .inr ⟨_, rfl, h⟩

theorem exists_flat_list (items : List Sexp) : ∃ rest, flat (.list items) = '(' :: rest :=
  ⟨_, by rw [flat, flatOnto]⟩

theorem Atoms.flat_head_ne {sexp : Sexp} (h : sexp.Atoms Legible) :
    ∃ c rest, flat sexp = c :: rest ∧ c ≠ ')' := by
  rcases h.shape with ⟨chars, hchars, hflat, -⟩ | ⟨items, rfl, -⟩
  · obtain ⟨c, rest, rfl, -, hc⟩ := hchars.head_ne
    exact ⟨c, rest, hflat, hc⟩
  · obtain ⟨rest, hflat⟩ := exists_flat_list items
    exact ⟨_, rest, hflat, by decide⟩

/-- Whatever stands behind it, the S-expression can be read in one way only. -/
def ReadsUniquely (sexp : Sexp) : Prop :=
  ∀ {other : Sexp} {rest rest' : List Char}, other.Atoms Legible → Ends rest → Ends rest' →
    flat sexp ++ rest = flat other ++ rest' → outline sexp = outline other ∧ rest = rest'

private theorem readsUniquely_atom {sexp : Sexp} {chars : List Char} (hchars : Legible chars)
    (hflat : flat sexp = chars) (houtline : outline sexp = .atom chars) : sexp.ReadsUniquely := by
  intro other rest rest' hother hrest hrest' h
  rw [hflat] at h
  rw [houtline]
  rcases hother.shape with ⟨chars', hchars', hflat', houtline'⟩ | ⟨items, rfl, -⟩
  · rw [hflat'] at h
    obtain ⟨rfl, hsame⟩ := hchars.unique hchars' hrest hrest' h
    exact ⟨houtline'.symm, hsame⟩
  · obtain ⟨c, tail, rfl, hc, -⟩ := hchars.head_ne
    obtain ⟨more, hmore⟩ := exists_flat_list items
    rw [hmore] at h
    exact absurd (List.cons.inj h).1 hc

theorem ends_tail (items : List Sexp) (rest : List Char) : Ends (flatTail items ++ ')' :: rest) := by
  cases items with
  | nil =>
      rintro c ⟨⟩
      decide
  | cons item items =>
      rintro c ⟨⟩
      decide

private theorem readsUniquely_tail {items : List Sexp} (h : ∀ item ∈ items, item.ReadsUniquely)
    {others : List Sexp} (hothers : ∀ other ∈ others, other.Atoms Legible) {rest rest' : List Char}
    (heq : flatTail items ++ ')' :: rest = flatTail others ++ ')' :: rest') :
    outlines items = outlines others ∧ rest = rest' := by
  induction items generalizing others with
  | nil =>
      cases others with
      | nil => exact ⟨rfl, (List.cons.inj heq).2⟩
      | cons other others => exact absurd (List.cons.inj heq).1 (by decide)
  | cons item items ih =>
      cases others with
      | nil => exact absurd (List.cons.inj heq).1 (by decide)
      | cons other others =>
          rw [List.forall_mem_cons] at h hothers
          rw [flatTail_cons, flatTail_cons, List.cons_append, List.cons_append, List.append_assoc,
            List.append_assoc] at heq
          obtain ⟨hfirst, htail⟩ := h.1 hothers.1 (ends_tail _ _) (ends_tail _ _)
            (List.cons.inj heq).2
          obtain ⟨hitems, hsame⟩ := ih h.2 hothers.2 htail
          rw [outlines, outlines, hfirst, hitems]
          exact ⟨rfl, hsame⟩

theorem flat_cons_append (head : Sexp) (items : List Sexp) (rest : List Char) :
    flat (.list (head :: items)) ++ rest = '(' :: (flat head ++ (flatTail items ++ ')' :: rest)) := by
  rw [flat_cons]
  simp only [List.cons_append, List.append_assoc, List.nil_append]

/-- An S-expression of legible atoms can be read in one way only. -/
theorem Atoms.readsUniquely {sexp : Sexp} (h : sexp.Atoms Legible) : sexp.ReadsUniquely := by
  induction h with
  | datum h | text h | word h => exact readsUniquely_atom h (List.append_nil _) rfl
  | @list items hitems ih =>
      intro other rest rest' hother hrest hrest' heq
      rcases hother.shape with ⟨chars, hchars, hflat, -⟩ | ⟨others, rfl, hothers⟩
      · -- An atom does not start with a parenthesis.
        obtain ⟨c, tail, rfl, hc, -⟩ := hchars.head_ne
        obtain ⟨more, hmore⟩ := exists_flat_list items
        rw [hflat, hmore] at heq
        exact absurd (List.cons.inj heq).1.symm hc
      · cases items with
        | nil =>
            cases others with
            | nil => exact ⟨rfl, List.append_cancel_left heq⟩
            | cons first others =>
                rw [flat_cons_append, flat_nil] at heq
                obtain ⟨c, tail, hflat, hc⟩ := (hothers first List.mem_cons_self).flat_head_ne
                rw [hflat] at heq
                exact absurd (List.cons.inj (List.cons.inj heq).2).1.symm hc
        | cons head items =>
            cases others with
            | nil =>
                rw [flat_cons_append, flat_nil] at heq
                obtain ⟨c, tail, hflat, hc⟩ := (hitems head List.mem_cons_self).flat_head_ne
                rw [hflat] at heq
                exact absurd (List.cons.inj (List.cons.inj heq).2).1 hc
            | cons first others =>
                rw [List.forall_mem_cons] at ih hothers
                rw [flat_cons_append, flat_cons_append] at heq
                obtain ⟨hfirst, htail⟩ := ih.1 hothers.1 (ends_tail _ _) (ends_tail _ _)
                  (List.cons.inj heq).2
                obtain ⟨hrests, hsame⟩ := readsUniquely_tail ih.2 hothers.2 htail
                rw [outline, outline, outlines, outlines, hfirst, hrests]
                exact ⟨rfl, hsame⟩

private theorem outline_eq_of_layout_eq {page : Page} {depth : Int} {left right : Sexp}
    (hleft : left.Atoms Legible) (hright : right.Atoms Legible)
    (h : layout page depth left = layout page depth right) : outline left = outline right := by
  have hflat : flat left = flat right := by
    rw [← joinLines_layout page depth (hleft.mono fun _ => Legible.solid), h,
      joinLines_layout page depth (hright.mono fun _ => Legible.solid)]
  have hends : Ends [] := nofun
  exact (hleft.readsUniquely hright hends hends (by rw [hflat])).1

/-! ## Equal outlines -/

structure LooksLike (left right : Sexp) : Prop where
  flat : flat left = flat right
  layout : ∀ page depth rest, layoutOnto page depth left rest = layoutOnto page depth right rest

private theorem layoutOnto_atom {sexp : Sexp} {chars : List Char} (h : outline sexp = .atom chars) :
    flat sexp = chars ∧ ∀ page depth rest,
      layoutOnto page depth sexp rest = page.margin depth ++ (chars ++ rest) := by
  cases sexp with
  | list items => cases h
  | datum | text | word =>
      obtain rfl := Outline.atom.inj h
      refine ⟨List.append_nil _, fun page depth rest => ?_⟩
      rw [layoutOnto]
      · rfl
      · intro head items heq
        cases heq

private theorem looksLike_items {items others : List Sexp}
    (h : ∀ item ∈ items, ∀ other, outline item = outline other → item.LooksLike other)
    (houtlines : outlines items = outlines others) :
    flatTail items = flatTail others ∧ ∀ page depth rest,
      layoutItemsOnto page depth items rest = layoutItemsOnto page depth others rest := by
  induction items generalizing others with
  | nil =>
      cases others with
      | nil => exact ⟨rfl, fun _ _ _ => rfl⟩
      | cons other others => cases houtlines
  | cons item items ih =>
      cases others with
      | nil => cases houtlines
      | cons other others =>
          rw [List.forall_mem_cons] at h
          obtain ⟨hfirst, hrest⟩ := List.cons.inj houtlines
          have hitem := h.1 other hfirst
          obtain ⟨htail, hlayouts⟩ := ih h.2 hrest
          refine ⟨by rw [flatTail_cons, flatTail_cons, hitem.flat, htail], ?_⟩
          intro page depth rest
          rw [layoutItemsOnto, layoutItemsOnto, hitem.layout, hlayouts]

theorem Atoms.looksLike {p : List Char → Prop} {left : Sexp} (h : left.Atoms p) {right : Sexp}
    (houtline : outline left = outline right) : left.LooksLike right := by
  induction h generalizing right with
  | datum | text | word =>
      obtain ⟨hflat, hlayout⟩ := layoutOnto_atom houtline.symm
      exact ⟨(List.append_nil _).trans hflat.symm, fun page depth rest =>
        ((layoutOnto_atom rfl).2 page depth rest).trans (hlayout page depth rest).symm⟩
  | @list items _ ih =>
      cases right with
      | datum | text | word => cases houtline
      | list others =>
          have houtlines : outlines items = outlines others := Outline.list.inj houtline
          cases items with
          | nil =>
              cases others with
              | nil => exact ⟨rfl, fun _ _ _ => rfl⟩
              | cons other others => cases houtlines
          | cons head items =>
              cases others with
              | nil => cases houtlines
              | cons first others =>
                  rw [List.forall_mem_cons] at ih
                  obtain ⟨hfirst, hrest⟩ := List.cons.inj houtlines
                  have hhead := ih.1 hfirst
                  obtain ⟨htail, hlayouts⟩ := looksLike_items (fun item hitem _ => ih.2 item hitem) hrest
                  have hflat : flat (.list (head :: items)) = flat (.list (first :: others)) := by
                    rw [flat_cons, flat_cons, hhead.flat, htail]
                  refine ⟨hflat, fun page depth rest => ?_⟩
                  simp only [layoutOnto, flatOnto_eq, hflat, hhead.flat, hlayouts]

/-- On a page, S-expressions of legible atoms look alike just if they have the same outline. -/
theorem layout_eq_iff (page : Page) (depth : Int) {left right : Sexp} (hleft : left.Atoms Legible)
    (hright : right.Atoms Legible) :
    layout page depth left = layout page depth right ↔ outline left = outline right :=
  ⟨outline_eq_of_layout_eq hleft hright, fun h => (hleft.looksLike h).layout page depth []⟩

end Scriptlet.Sexp
