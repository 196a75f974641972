/-!
# Sets of characters

A set of characters is a list of closed ranges of code points.  Of the tables of this folder, those
for names follow version 17 of the Unicode character database, and those for numbers and quoting
follow version 14.
-/

namespace Scriptlet.Text

/-- A set of characters, as closed ranges of code points in ascending order. -/
structure CharSet where
  ranges : List (Nat × Nat)

def CharSet.contains (set : CharSet) (c : Char) : Bool :=
  set.ranges.any fun range => range.1 ≤ c.toNat && c.toNat ≤ range.2

end Scriptlet.Text
