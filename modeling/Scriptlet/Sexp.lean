import Scriptlet.Datum
import Scriptlet.Text.Escaped
/-!
# S-expressions

Nested lists and their layout on a page: a list that fits on its line stays there, any other keeps
its head on the opening line and puts every further item on an indented line of its own.
-/

namespace Scriptlet

inductive Sexp where
  /-- A number, a truth or another datum that is no text. -/
  | datum (value : Datum)
  /-- A text literal, which always stands between quotes. -/
  | text (value : String)
  /-- A word, which stands between quotes only where it has to. -/
  | word (value : String)
  | list (items : List Sexp)
deriving Inhabited

namespace Sexp

/-- Words with these characters stand between quotes. -/
def isDelimiter (c : Char) : Bool :=
  c == ' ' || c == '(' || c == ')' || c == '"' || c == '\''

/-- A word, between quotes if it is empty or has a delimiter in it. -/
def writeWord (value : String) : List Char :=
  let chars := value.toList
  if chars.isEmpty || chars.any isDelimiter then '"' :: chars ++ ['"'] else chars

def writeDatum : Datum → List Char
  | .truth value => if value then ['#', 't'] else ['#', 'f']
  | .text value => writeWord value
  | value => value.written.toList

mutual

/-- Writes an S-expression on one line, in front of `rest`. -/
def flatOnto : Sexp → List Char → List Char
  | datum value, rest => writeDatum value ++ rest
  | text value, rest => (Text.lineLiteral value).toList ++ rest
  | word value, rest => writeWord value ++ rest
  | list items, rest => '(' :: flatItemsOnto items (')' :: rest)

/-- Writes items on one line, with a space between any two, in front of `rest`. -/
def flatItemsOnto : List Sexp → List Char → List Char
  | [], rest => rest
  | [item], rest => flatOnto item rest
  | item :: items, rest => flatOnto item (' ' :: flatItemsOnto items rest)

end

def flat (sexp : Sexp) : List Char :=
  flatOnto sexp []

mutual

theorem flatOnto_append (sexp : Sexp) (a b : List Char) :
    flatOnto sexp (a ++ b) = flatOnto sexp a ++ b := by
  match sexp with
  | datum _ | text _ | word _ => simp only [flatOnto, List.append_assoc]
  | list items =>
    simp only [flatOnto, List.cons_append]
    rw [← List.cons_append, flatItemsOnto_append items]

theorem flatItemsOnto_append (items : List Sexp) (a b : List Char) :
    flatItemsOnto items (a ++ b) = flatItemsOnto items a ++ b := by
  match items with
  | [] => simp only [flatItemsOnto]
  | [item] =>
    simp only [flatItemsOnto]
    exact flatOnto_append item a b
  | item :: next :: items =>
    simp only [flatItemsOnto]
    rw [flatItemsOnto_append (next :: items), ← List.cons_append, flatOnto_append item]

end

/-- What is written in front of a text does not depend on it. -/
theorem flatOnto_eq (sexp : Sexp) (rest : List Char) : flatOnto sexp rest = flat sexp ++ rest :=
  flatOnto_append sexp [] rest

/-- How far items are indented against the list that holds them, and how wide a line may be. -/
structure Page where
  indent : Int
  width : Int
deriving DecidableEq, Repr

/-- The page that dumps are laid out on. -/
def Page.standard : Page where
  indent := 2
  width := 80

def Page.margin (page : Page) (depth : Int) : List Char :=
  List.replicate (page.indent * depth).toNat ' '

mutual

/-- Lays out an S-expression at the given depth, in front of `rest`. -/
def layoutOnto (page : Page) (depth : Int) : Sexp → List Char → List Char
  | list (head :: items), rest =>
    let margin := page.margin depth
    if (flat (list (head :: items))).length + margin.length ≤ page.width then
      margin ++ flatOnto (list (head :: items)) rest
    else
      margin ++ '(' :: flatOnto head (layoutItemsOnto page (depth + 1) items (')' :: rest))
  | sexp, rest => page.margin depth ++ flatOnto sexp rest

/-- Lays out items, each on a line of its own, in front of `rest`. -/
def layoutItemsOnto (page : Page) (depth : Int) : List Sexp → List Char → List Char
  | [], rest => rest
  | item :: items, rest =>
    '\n' :: layoutOnto page depth item (layoutItemsOnto page depth items rest)

end

def layout (page : Page) (depth : Int) (sexp : Sexp) : List Char :=
  layoutOnto page depth sexp []

def render (page : Page) (depth : Int) (sexp : Sexp) : String :=
  String.ofList (layout page depth sexp)

end Sexp

end Scriptlet
