import Scriptlet.Decimal.Shortest
/-!
# Layout of decimals

A number is written with its shortest digits, positionally while its leading digit stands neither
too far right nor too far left of the point, and with an exponent otherwise.
-/

namespace Scriptlet.Decimal

/-- The decisions of a number format. -/
structure Layout where
  /-- Positions of the point, counted from before the first digit, that are written positionally. -/
  leastPoint : Int
  greatestPoint : Int
  /-- The least number of digits of an exponent. -/
  exponentWidth : Nat
  infinity : String
  notANumber : String

/-- Positional from `0.0001` to below `10 ^ 16`, always with a decimal place; exponents are signed
and have two digits at least. -/
def Layout.plain : Layout where
  leastPoint := -3
  greatestPoint := 16
  exponentWidth := 2
  infinity := "inf"
  notANumber := "nan"

/-- A signed exponent of at least `width` digits. -/
def exponentText (width : Nat) (e : Int) : List Char :=
  let digits := Nat.toDigits 10 e.natAbs
  (if e < 0 then '-' else '+') :: (List.replicate (width - digits.length) '0' ++ digits)

def Layout.place (layout : Layout) (d : Digits) : List Char :=
  let digits := Nat.toDigits 10 d.digits
  let point := digits.length + d.exponent
  if layout.leastPoint ≤ point && point ≤ layout.greatestPoint then
    if point ≤ 0 then
      '0' :: '.' :: (List.replicate (-point).toNat '0' ++ digits)
    else if digits.length ≤ point.toNat then
      digits ++ List.replicate (point.toNat - digits.length) '0' ++ ['.', '0']
    else
      digits.take point.toNat ++ '.' :: digits.drop point.toNat
  else
    let tail := match digits.drop 1 with
      | [] => []
      | rest => '.' :: rest
    digits.take 1 ++ tail ++ 'e' :: exponentText layout.exponentWidth (point - 1)

def Layout.write (layout : Layout) (x : Float) : String :=
  if x.isNaN then layout.notANumber
  else
    let bits := x.toBits.toNat
    let sign := if bits < signWeight then "" else "-"
    if x.isInf then sign ++ layout.infinity
    else
      let b := Binary.ofBits (bits % signWeight)
      let d := if b.mantissa = 0 then ⟨0, 0⟩ else b.shortest
      sign ++ String.ofList (layout.place d)

end Scriptlet.Decimal
