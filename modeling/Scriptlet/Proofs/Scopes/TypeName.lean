import Scriptlet.Symbol
/-!
# Names of types

Function types are found by their structural names, so the name has to tell the
parts.  A name may hold the marks of structural names itself, to any depth, but
where one starts in a text there is only one place for it to end: either it is a
word, which the next mark ends, or its brackets close.  Hence a structural name
determines the names of its arguments and of its result, whatever words it is
made of.
-/

namespace Scriptlet

/-- The characters that structural names put around and between their parts. -/
def isTypeMark (c : Char) : Bool :=
  c = '<' || c = '>' || c = ',' || c = ':'

/-- A name without structure: it is not empty and holds no mark. -/
structure IsTypeWord (name : String) : Prop where
  ne_empty : name.toList ≠ []
  unmarked : ∀ c ∈ name.toList, isTypeMark c = false

private theorem isTypeWord_iff {name : String} :
    IsTypeWord name ↔ name.toList ≠ [] ∧ (name.toList.all fun c => !isTypeMark c) = true := by
  simp only [List.all_eq_true, Bool.not_eq_true']
  exact ⟨fun h => ⟨h.ne_empty, h.unmarked⟩, fun h => ⟨h.1, h.2⟩⟩

instance (name : String) : Decidable (IsTypeWord name) :=
  decidable_of_iff _ isTypeWord_iff.symm

/-- The names of types over words: the words, and the structural names over such names. -/
inductive StructuralName : String → Prop where
  | word {name : String} : IsTypeWord name → StructuralName name
  | function {arguments : List String} {result : Option String} :
      (∀ argument ∈ arguments, StructuralName argument) →
      (∀ name, result = some name → StructuralName name) →
      StructuralName (functionTypeName arguments result)

/-- The names that types have: the labels of the primitive types, and the
structural names over them. -/
inductive TypeName : String → Prop where
  | primitive (kind : Primitive.Kind) : TypeName kind.label
  | function {arguments : List String} {result : Option String} :
      (∀ argument ∈ arguments, TypeName argument) →
      (∀ name, result = some name → TypeName name) →
      TypeName (functionTypeName arguments result)

namespace TypeName

theorem of_label {kind : Option Primitive.Kind} {name : String}
    (h : kind.map Primitive.Kind.label = some name) : TypeName name := by
  obtain ⟨kind, -, rfl⟩ := Option.map_eq_some_iff.1 h
  exact .primitive kind

def furtherChars (names : List String) : List Char :=
  names.flatMap fun name => ',' :: name.toList

theorem toList_intercalate_cons (name : String) (names : List String) :
    (",".intercalate (name :: names)).toList = name.toList ++ furtherChars names := by
  induction names generalizing name with
  | nil => simp [furtherChars]
  | cons next names ih =>
      rw [String.intercalate_cons_cons, String.toList_append, String.toList_append, ih next]
      simp [furtherChars]

theorem toList_functionTypeName (arguments : List String) (result : Option String) :
    (functionTypeName arguments result).toList =
      '<' :: ((",".intercalate arguments).toList ++
        ':' :: ((result.getD "").toList ++ ['>'])) := by
  simp [functionTypeName]

theorem structural {name : String} (h : TypeName name) : StructuralName name := by
  induction h with
  | primitive kind => exact .word (by cases kind <;> decide)
  | function _ _ iharguments ihresult => exact .function iharguments ihresult

end TypeName

/-- What may stand behind a name: nothing, or a mark that separates or closes. -/
def Delimited (chars : List Char) : Prop :=
  ∀ c ∈ chars.head?, c = ',' ∨ c = ':' ∨ c = '>'

theorem delimited_cons {c : Char} {chars : List Char} :
    Delimited (c :: chars) ↔ c = ',' ∨ c = ':' ∨ c = '>' := by
  simp [Delimited]

namespace IsTypeWord

theorem takeWhile_append {name : String} (h : IsTypeWord name) {left : List Char}
    (hleft : Delimited left) :
    (name.toList ++ left).takeWhile (fun c => !isTypeMark c) = name.toList := by
  rw [List.takeWhile_append_of_pos fun c hc => by rw [h.unmarked c hc]; rfl]
  cases left with
  | nil => simp
  | cons c left => rcases delimited_cons.1 hleft with rfl | rfl | rfl <;> simp [isTypeMark]

private theorem ne_functionTypeName {name : String} (h : IsTypeWord name) (arguments : List String)
    (result : Option String) : name ≠ functionTypeName arguments result := by
  rintro rfl
  have hmark : '<' ∈ (functionTypeName arguments result).toList := by
    rw [TypeName.toList_functionTypeName]
    exact List.mem_cons_self
  exact absurd (h.unmarked '<' hmark) (by decide)

end IsTypeWord

namespace StructuralName

open Scriptlet.TypeName

theorem exists_cons {name : String} (h : StructuralName name) :
    ∃ first rest, name.toList = first :: rest ∧ first ≠ ',' ∧ first ≠ ':' ∧ first ≠ '>' := by
  cases h with
  | word h =>
      obtain ⟨first, rest, hname⟩ := List.exists_cons_of_ne_nil h.ne_empty
      have hfirst := h.unmarked first (by rw [hname]; exact List.mem_cons_self)
      refine ⟨first, rest, hname, ?_, ?_, ?_⟩ <;> rintro rfl <;> exact absurd hfirst (by decide)
  | function =>
      exact ⟨'<', _, toList_functionTypeName _ _, by decide, by decide, by decide⟩

def EndsUniquely (name : String) : Prop :=
  ∀ other, StructuralName other → ∀ left right : List Char, Delimited left → Delimited right →
    name.toList ++ left = other.toList ++ right → name = other ∧ left = right

private theorem endsUniquely_word {name : String} (h : IsTypeWord name) : EndsUniquely name := by
  intro other hother left right hleft hright heq
  cases hother with
  | word hother =>
      have hname : name.toList = other.toList := by
        rw [← h.takeWhile_append hleft, heq, hother.takeWhile_append hright]
      rw [hname] at heq
      exact ⟨String.toList_inj.1 hname, List.append_cancel_left heq⟩
  | function =>
      obtain ⟨first, rest, hname⟩ := List.exists_cons_of_ne_nil h.ne_empty
      have hfirst := h.unmarked first (by rw [hname]; exact List.mem_cons_self)
      rw [hname, toList_functionTypeName, List.cons_append, List.cons_append,
        List.cons.injEq] at heq
      rw [heq.1] at hfirst
      exact absurd hfirst (by decide)

private theorem furtherChars_unique {names others : List String} {left right : List Char}
    (hnames : ∀ name ∈ names, EndsUniquely name)
    (hothers : ∀ name ∈ others, StructuralName name)
    (h : furtherChars names ++ ':' :: left = furtherChars others ++ ':' :: right) :
    names = others ∧ left = right := by
  -- Behind each of the names stands a comma or the colon.
  have hdelimited : ∀ (names : List String) (left : List Char),
      Delimited (furtherChars names ++ ':' :: left) := by
    rintro (_ | ⟨name, names⟩) left <;> simp [furtherChars, Delimited]
  induction names generalizing others with
  | nil =>
      cases others with
      | nil => simpa [furtherChars] using h
      | cons other others => simp [furtherChars] at h
  | cons name names ih =>
      cases others with
      | nil => simp [furtherChars] at h
      | cons other others =>
          simp only [furtherChars, List.flatMap_cons, List.cons_append, List.append_assoc,
            List.cons.injEq, true_and] at h
          obtain ⟨rfl, hrest⟩ := hnames name List.mem_cons_self other
            (hothers other List.mem_cons_self) _ _ (hdelimited names left)
            (hdelimited others right) h
          obtain ⟨rfl, hleft⟩ := ih (fun n hn => hnames n (List.mem_cons_of_mem _ hn))
            (fun n hn => hothers n (List.mem_cons_of_mem _ hn)) hrest
          exact ⟨rfl, hleft⟩

private theorem arguments_unique {names others : List String} {left right : List Char}
    (hnames : ∀ name ∈ names, StructuralName name ∧ EndsUniquely name)
    (hothers : ∀ name ∈ others, StructuralName name)
    (h : (",".intercalate names).toList ++ ':' :: left =
      (",".intercalate others).toList ++ ':' :: right) :
    names = others ∧ left = right := by
  cases names with
  | nil =>
      cases others with
      | nil => simpa using h
      | cons other others =>
          obtain ⟨first, rest, hfirst, -, hcolon, -⟩ :=
            (hothers other List.mem_cons_self).exists_cons
          rw [toList_intercalate_cons, hfirst] at h
          simp [hcolon.symm] at h
  | cons name names =>
      cases others with
      | nil =>
          obtain ⟨first, rest, hfirst, -, hcolon, -⟩ :=
            (hnames name List.mem_cons_self).1.exists_cons
          rw [toList_intercalate_cons, hfirst] at h
          simp [hcolon] at h
      | cons other others =>
          -- With a comma in front, the first names are further ones.
          rw [toList_intercalate_cons, toList_intercalate_cons] at h
          have hcomma : furtherChars (name :: names) ++ ':' :: left =
              furtherChars (other :: others) ++ ':' :: right := congrArg (',' :: ·) h
          exact furtherChars_unique (fun n hn => (hnames n hn).2) hothers hcomma

private theorem result_unique {result other : Option String} {left right : List Char}
    (hresult : ∀ name, result = some name → StructuralName name ∧ EndsUniquely name)
    (hother : ∀ name, other = some name → StructuralName name)
    (h : (result.getD "").toList ++ '>' :: left = (other.getD "").toList ++ '>' :: right) :
    result = other ∧ left = right := by
  cases result with
  | none =>
      cases other with
      | none => simpa using h
      | some name =>
          obtain ⟨first, rest, hfirst, -, -, hclose⟩ := (hother name rfl).exists_cons
          rw [Option.getD_some, hfirst] at h
          simp [hclose.symm] at h
  | some name =>
      cases other with
      | none =>
          obtain ⟨first, rest, hfirst, -, -, hclose⟩ := (hresult name rfl).1.exists_cons
          rw [Option.getD_some, hfirst] at h
          simp [hclose] at h
      | some name' =>
          obtain ⟨rfl, hrest⟩ := (hresult name rfl).2 name' (hother name' rfl) _ _
            (delimited_cons.2 (.inr (.inr rfl))) (delimited_cons.2 (.inr (.inr rfl))) h
          exact ⟨rfl, by simpa using hrest⟩

private theorem endsUniquely {name : String} (h : StructuralName name) : EndsUniquely name := by
  induction h with
  | word h => exact endsUniquely_word h
  | @function arguments result harguments hresult iharguments ihresult =>
      intro other hother left right hleft hright heq
      cases hother with
      | word hother =>
          obtain ⟨hname, hsame⟩ := endsUniquely_word hother _ (.function harguments hresult)
            right left hright hleft heq.symm
          exact ⟨hname.symm, hsame.symm⟩
      | @function arguments' result' harguments' hresult' =>
          simp only [toList_functionTypeName, List.cons_append, List.append_assoc,
            List.cons.injEq, true_and, List.nil_append] at heq
          obtain ⟨rfl, hrest⟩ := arguments_unique
            (fun n hn => ⟨harguments n hn, iharguments n hn⟩) harguments' heq
          obtain ⟨rfl, hsame⟩ := result_unique
            (fun n hn => ⟨hresult n hn, ihresult n hn⟩) hresult' hrest
          exact ⟨rfl, hsame⟩

/-- A structural name determines the names of its parts. -/
theorem functionTypeName_inj {arguments others : List String} {result other : Option String}
    (harguments : ∀ name ∈ arguments, StructuralName name)
    (hothers : ∀ name ∈ others, StructuralName name)
    (hresult : ∀ name, result = some name → StructuralName name)
    (hother : ∀ name, other = some name → StructuralName name)
    (h : functionTypeName arguments result = functionTypeName others other) :
    arguments = others ∧ result = other := by
  have hchars := congrArg String.toList h
  rw [toList_functionTypeName, toList_functionTypeName, List.cons.injEq] at hchars
  obtain ⟨rfl, hrest⟩ := arguments_unique
    (fun n hn => ⟨harguments n hn, (harguments n hn).endsUniquely⟩) hothers hchars.2
  obtain ⟨rfl, -⟩ := result_unique
    (fun n hn => ⟨hresult n hn, (hresult n hn).endsUniquely⟩) hother hrest
  exact ⟨rfl, rfl⟩

/-- Structural names are unambiguous: over names of types, of whatever depth, they are the same
exactly if the arguments and the result are, and none of them is a word. -/
theorem functionTypeName_eq_iff {arguments others : List String} {result other : Option String}
    (harguments : ∀ name ∈ arguments, StructuralName name)
    (hothers : ∀ name ∈ others, StructuralName name)
    (hresult : ∀ name, result = some name → StructuralName name)
    (hother : ∀ name, other = some name → StructuralName name) :
    (functionTypeName arguments result = functionTypeName others other ↔
      arguments = others ∧ result = other) ∧
    ¬ IsTypeWord (functionTypeName arguments result) := by
  refine ⟨⟨functionTypeName_inj harguments hothers hresult hother, ?_⟩, ?_⟩
  · rintro ⟨rfl, rfl⟩
    rfl
  · intro hword
    exact hword.ne_functionTypeName arguments result rfl

/-- The same words in the same order between other brackets: what is a second argument in the one
name is the result of the first argument in the other. -/
theorem functionTypeName_eq_iff_nested :
    let inner := functionTypeName ["a", "b c"] none
    functionTypeName [inner, "d"] (some inner) = "<<a,b c:>,d:<a,b c:>>" ∧
    functionTypeName [functionTypeName ["a", "b c"] (some "d")] (some inner) =
      "<<a,b c:d>:<a,b c:>>" ∧
    (functionTypeName [inner, "d"] (some inner) =
        functionTypeName [functionTypeName ["a", "b c"] (some "d")] (some inner) ↔
      [inner, "d"] = [functionTypeName ["a", "b c"] (some "d")] ∧ some inner = some inner) ∧
    ¬ IsTypeWord (functionTypeName [inner, "d"] (some inner)) := by
  have hd : StructuralName "d" := .word (by decide)
  have hinner : ∀ result, (∀ name, result = some name → StructuralName name) →
      StructuralName (functionTypeName ["a", "b c"] result) := by
    intro result hresult
    refine .function ?_ hresult
    simp only [List.forall_mem_cons, List.not_mem_nil, false_implies, implies_true, and_true]
    exact ⟨.word (by decide), .word (by decide)⟩
  have hnone := hinner none nofun
  refine ⟨by decide, by decide, functionTypeName_eq_iff ?_ ?_ ?_ ?_⟩
  · simp only [List.forall_mem_cons, List.not_mem_nil, false_implies, implies_true, and_true]
    exact ⟨hnone, hd⟩
  · rw [List.forall_mem_singleton]
    exact hinner (some "d") fun name hname => Option.some.inj hname ▸ hd
  · exact fun name hname => Option.some.inj hname ▸ hnone
  · exact fun name hname => Option.some.inj hname ▸ hnone

end StructuralName

/-- Of types that exist, a structural name determines the names of the parts. -/
theorem TypeName.functionTypeName_inj {arguments others : List String}
    {result other : Option String}
    (harguments : ∀ name ∈ arguments, TypeName name) (hothers : ∀ name ∈ others, TypeName name)
    (hresult : ∀ name, result = some name → TypeName name)
    (hother : ∀ name, other = some name → TypeName name)
    (h : functionTypeName arguments result = functionTypeName others other) :
    arguments = others ∧ result = other :=
  StructuralName.functionTypeName_inj (fun n hn => (harguments n hn).structural)
    (fun n hn => (hothers n hn).structural) (fun n hn => (hresult n hn).structural)
    (fun n hn => (hother n hn).structural) h

end Scriptlet
