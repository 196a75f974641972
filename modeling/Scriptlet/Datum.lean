import Scriptlet.Decimal.Layout
import Scriptlet.Numeral
/-!
# Host data

Programs that embed the language hand it plain data: numbers, texts, truths and containers of
these.  Every datum has a written form and belongs to a named type.
-/

namespace Scriptlet

/-- Plain data of the embedding program. -/
inductive Datum where
  | null
  /-- The value that statements yield, handed over as it is. -/
  | nothing
  | truth (value : Bool)
  | integer (value : Int)
  | decimal (value : Float)
  | text (value : String)
  | bytes (value : String)
  | list (items : List Datum)
  | tuple (items : List Datum)
  | record (fields : List (String × Datum))
deriving Inhabited

namespace Datum

def textTypeName : String := "str"

def typeName : Datum → String
  | null => "NoneType"
  | nothing => "Value"
  | truth _ => "bool"
  | integer _ => "int"
  | decimal _ => "float"
  | text _ => textTypeName
  | bytes _ => "bytes"
  | list _ => "list"
  | tuple _ => "tuple"
  | record _ => "dict"

mutual

def written : Datum → String
  | null => "None"
  | nothing => "Value(payload=Nothing(), id=UUID('<id>'))"
  | truth value => if value then "True" else "False"
  | integer value => Numeral.text value
  | decimal value => Decimal.Layout.plain.write value
  | text value => Text.quoted value
  | bytes value => "b" ++ Text.quotedBytes value
  | list items => "[" ++ ", ".intercalate (writtenItems items) ++ "]"
  | tuple [item] => "(" ++ written item ++ ",)"
  | tuple items => "(" ++ ", ".intercalate (writtenItems items) ++ ")"
  | record fields => "\x7b" ++ ", ".intercalate (writtenFields fields) ++ "\x7d"

def writtenItems : List Datum → List String
  | [] => []
  | item :: items => written item :: writtenItems items

def writtenFields : List (String × Datum) → List String
  | [] => []
  | (name, item) :: fields => (Text.quoted name ++ ": " ++ written item) :: writtenFields fields

end

/-- The form in which a datum is shown on its own, where a text is not quoted. -/
def shown : Datum → Except Numeral.Error String
  | integer value => Numeral.write value
  | text value => .ok value
  | nothing => .ok "nothing"
  | datum => .ok (written datum)

/-- Whether a datum counts as true: zero, nothing and what is empty do not. -/
def isTrue : Datum → Bool
  | null => false
  | nothing => true
  | truth value => value
  | integer value => value != 0
  | decimal value => value != 0.0
  | text value | bytes value => value != ""
  | list items | tuple items => !items.isEmpty
  | record fields => !fields.isEmpty

def isInteger (x : Float) (n : Int) : Bool :=
  if x.isNaN || x.isInf then false
  else
    let bits := x.toBits.toNat
    let b := Decimal.Binary.ofBits (bits % Decimal.signWeight)
    let negative := Decimal.signWeight ≤ bits && b.mantissa != 0
    decide (b.mantissa * Nat.pow 2 b.exponent.toNat =
        n.natAbs * Nat.pow 2 (-b.exponent).toNat) &&
      negative == decide (n < 0)

/-- Whether two plain data are equal.  Truths count as the integers zero and one, and numbers are
compared exactly. -/
def equal : Datum → Datum → Bool
  | null, null | nothing, nothing => true
  | text a, text b => a = b
  | truth a, truth b => a = b
  | truth a, integer b | integer b, truth a => a.toInt = b
  | integer a, integer b => a = b
  | truth a, decimal b | decimal b, truth a => isInteger b a.toInt
  | integer a, decimal b | decimal b, integer a => isInteger b a
  | decimal a, decimal b => a == b
  | _, _ => false

end Datum

end Scriptlet
