import Scriptlet.Text.Word
import Scriptlet.Text.Quoted
/-!
# Integer numerals

Integers are read from decimal digits of any script, with single underscores between digits, one
sign, and white space around.  Both reading and writing refuse numerals of more than
`Numeral.digitLimit` digits.
-/

namespace Scriptlet.Numeral

/-- The greatest number of digits that a numeral may have. -/
def digitLimit : Nat := 4300

inductive Error where
  | malformed (text : String)
  | tooManyDigits (count : Nat)
  | tooLongToWrite
deriving DecidableEq, Repr

/-- A malformed text is shown quoted and cut after this many characters. -/
def shownLimit : Nat := 200

def Error.message : Error → String
  | .malformed text =>
    "invalid literal for int() with base 10: " ++
      String.ofList ((Text.quoted text).toList.take shownLimit)
  | .tooManyDigits count =>
    s!"Exceeds the limit ({digitLimit} digits) for integer string conversion: " ++
      s!"value has {count} digits; use sys.set_int_max_str_digits() to increase the limit"
  | .tooLongToWrite =>
    s!"Exceeds the limit ({digitLimit} digits) for integer string conversion; " ++
      "use sys.set_int_max_str_digits() to increase the limit"

/-- The values of a run of digits, in which an underscore may stand between two digits, and what
follows the run. -/
def digitGroup : List Char → List Nat × List Char
  | [] => ([], [])
  | c :: '_' :: next :: tail =>
    match Text.decimalValue? c with
    | none => ([], c :: '_' :: next :: tail)
    | some value =>
      if Text.isDecimalDigit next then
        let (values, left) := digitGroup (next :: tail)
        (value :: values, left)
      else ([value], '_' :: next :: tail)
  | c :: rest =>
    match Text.decimalValue? c with
    | none => ([], c :: rest)
    | some value =>
      let (values, left) := digitGroup rest
      (value :: values, left)

/-- The number that digits denote, most significant first. -/
def ofDigits (values : List Nat) : Nat :=
  values.foldl (fun n digit => 10 * n + digit) 0

/-- An optional sign; the flag tells a minus. -/
def sign : List Char → Bool × List Char
  | '-' :: rest => (true, rest)
  | '+' :: rest => (false, rest)
  | chars => (false, chars)

def read (text : String) : Except Error Int :=
  let (negative, body) := sign (text.toList.dropWhile Text.isNumeralSpace)
  let (values, rest) := digitGroup body
  if rest.head? = some '_' then .error (.malformed text)
  else if digitLimit < values.length then .error (.tooManyDigits values.length)
  else if values.isEmpty || !rest.all Text.isNumeralSpace then .error (.malformed text)
  else
    let n := ofDigits values
    .ok (if negative then -n else n)

def text (n : Int) : String :=
  let digits := String.ofList (Nat.toDigits 10 n.natAbs)
  if n < 0 then "-" ++ digits else digits

def write (n : Int) : Except Error String :=
  if digitLimit < (Nat.toDigits 10 n.natAbs).length then .error .tooLongToWrite
  else .ok (text n)

/-- The decimal text of an integer, padded with zeros after the sign to `width` characters. -/
def padded (width : Nat) (n : Int) : String :=
  let digits := Nat.toDigits 10 n.natAbs
  let sign := if n < 0 then ['-'] else []
  String.ofList (sign ++ List.replicate (width - sign.length - digits.length) '0' ++ digits)

end Scriptlet.Numeral
