/-!
# Shortest decimal digits

Every finite binary floating-point number has a shortest decimal that reads back as the same
number.  The search runs over grids of one, two, … seventeen digits in exact integer arithmetic; on
each grid only the two neighbours of the number can read back.
-/

namespace Scriptlet.Decimal

/-- The decimal `digits · 10 ^ exponent`. -/
structure Digits where
  digits : Nat
  exponent : Int
deriving DecidableEq, Repr

/-- A positive binary number `mantissa · 2 ^ exponent`.  `narrow` marks the smallest mantissa of its
binade, whose lower neighbour is only half as far away as its upper one. -/
structure Binary where
  mantissa : Nat
  exponent : Int
  narrow : Bool
deriving DecidableEq, Repr

/-- The weight of the leading bit, which the pattern of a normal double leaves out. -/
def leadingWeight : Nat := Nat.pow 2 52

/-- The weight of the sign bit in the pattern of a double. -/
def signWeight : Nat := Nat.pow 2 63

/-- The parts of a finite double, from its sign-free bit pattern. -/
def Binary.ofBits (bits : Nat) : Binary :=
  let fraction : Nat := bits % leadingWeight
  let biased : Nat := bits / leadingWeight % 2048
  if biased = 0 then ⟨fraction, -1074, false⟩
  else ⟨leadingWeight + fraction, biased - 1075, fraction = 0 && biased != 1⟩

/-- Removes zeros at the end of a numeral; `fuel` bounds their number. -/
def Digits.trim : Nat → Digits → Digits
  | 0, d => d
  | fuel + 1, d =>
    if d.digits % 10 = 0 && d.digits != 0 then trim fuel ⟨d.digits / 10, d.exponent + 1⟩ else d

/-- A binary number on a decimal grid of step `10 ^ exponent`: four times the number is
`4 · mantissa · scale / unit` steps. -/
structure Grid where
  scale : Nat
  unit : Nat

def Binary.grid (b : Binary) (exponent : Int) : Grid where
  scale := Nat.pow 2 (b.exponent - 2).toNat * Nat.pow 10 (-exponent).toNat
  unit := Nat.pow 2 (2 - b.exponent).toNat * Nat.pow 10 exponent.toNat

/-- Whether the grid point `c` rounds to the number: it lies within half the distance to either
neighbour, ends included when the mantissa is even. -/
def Binary.accepts (b : Binary) (g : Grid) (c : Nat) : Bool :=
  let low := (4 * b.mantissa - if b.narrow then 1 else 2) * g.scale
  let high := (4 * b.mantissa + 2) * g.scale
  if b.mantissa % 2 = 0 then low ≤ c * g.unit && c * g.unit ≤ high
  else low < c * g.unit && c * g.unit < high

/-- The nearer of the two neighbours of the number on the grid that read back, if any; a tie goes
to the even one. -/
def Binary.onGrid? (b : Binary) (g : Grid) : Option Nat :=
  let exact := 4 * b.mantissa * g.scale
  let below := exact / g.unit
  let above := below + 1
  match b.accepts g below, b.accepts g above with
  | false, false => none
  | true, false => some below
  | false, true => some above
  | true, true =>
    let down := exact - below * g.unit
    let up := above * g.unit - exact
    if down < up || (down = up && below % 2 = 0) then some below else some above

/-- The exponent of the leading digit: the greatest `k` with `10 ^ k` at most the number, found by
stepping from an estimate that is too small by at most `fuel`. -/
def Binary.magnitude (b : Binary) : Nat → Int → Int
  | 0, k => k
  | fuel + 1, k =>
    let g := b.grid (k + 1)
    if g.unit ≤ 4 * b.mantissa * g.scale then magnitude b fuel (k + 1) else k

/-- Tries grids of `17 - fuel` digits and more; the last grid always reads back. -/
def Binary.search (b : Binary) (leading : Int) : Nat → Digits
  | 0 => ⟨0, 0⟩
  | fuel + 1 =>
    let exponent := leading - (17 - (fuel + 1) : Nat)
    match b.onGrid? (b.grid exponent) with
    | some c => ⟨c, exponent⟩
    | none => search b leading fuel

/-- The shortest digits that read back as the given positive number. -/
def Binary.shortest (b : Binary) : Digits :=
  let estimate := ((b.exponent + b.mantissa.log2) * 30103 / 100000) - 1
  (b.search (b.magnitude 4 estimate) 17).trim 17

end Scriptlet.Decimal
