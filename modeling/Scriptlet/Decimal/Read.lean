import Scriptlet.Numeral
/-!
# Reading decimals

Decimals have an integral and a fractional part, one of which may be missing, and an optional
exponent.  Infinity and the number that is none are spelled out, in any case.
-/

namespace Scriptlet.Decimal

open Numeral

/-- The double nearest to `digits · 10 ^ exponent`.  Exponents far outside the range of doubles are
settled by the size of the number alone. -/
def toFloat (digits : Nat) (exponent : Int) : Float :=
  let size := (Nat.toDigits 10 digits).length + exponent
  if digits = 0 || size < -330 then 0.0
  else if 320 < size then 1.0 / 0.0
  else if exponent < 0 then Float.ofScientific digits true exponent.natAbs
  else Float.ofScientific digits false exponent.natAbs

/-- An exponent part and what follows it; without one the exponent is zero. -/
def exponentPart? : List Char → Option (Int × List Char)
  | c :: rest =>
    if c == 'e' || c == 'E' then
      let (negative, body) := sign rest
      match digitGroup body with
      | ([], _) => none
      | (values, left) =>
        let e : Int := ofDigits values
        some (if negative then -e else e, left)
    else some (0, c :: rest)
  | [] => some (0, [])

def unsigned? (chars : List Char) : Option (Float × List Char) :=
  let (whole, afterWhole) := digitGroup chars
  let (fraction, afterFraction) := match afterWhole with
    | '.' :: rest => digitGroup rest
    | rest => ([], rest)
  if whole.isEmpty && fraction.isEmpty then none
  else
    (exponentPart? afterFraction).map fun (e, rest) =>
      (toFloat (ofDigits (whole ++ fraction)) (e - fraction.length), rest)

/-- The numbers that are spelled with letters. -/
def named? (chars : List Char) : Option Float :=
  match String.ofList (chars.map Char.toLower) with
  | "inf" | "infinity" => some (1.0 / 0.0)
  | "nan" => some (0.0 / 0.0)
  | _ => none

/-- Reads a decimal; white space may stand around it. -/
def read? (text : String) : Option Float :=
  let trimmed := text.toList.dropWhile Text.isNumeralSpace
  let (negative, body) := sign (trimmed.reverse.dropWhile Text.isNumeralSpace).reverse
  let value? := match named? body with
    | some x => some x
    | none =>
      match unsigned? body with
      | some (x, []) => some x
      | _ => none
  value?.map fun x => if negative then -x else x

end Scriptlet.Decimal
