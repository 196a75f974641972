import Scriptlet.Datum
import Scriptlet.Text.Escaped
/-!
# Primitive values

Integers, decimals, texts and truths: the values that literals denote and that host functions may
return.
-/

namespace Scriptlet

inductive Primitive.Kind where
  | integer
  | decimal
  | text
  | truth
deriving DecidableEq, Repr, Inhabited

namespace Primitive.Kind

def label : Primitive.Kind → String
  | integer => "int"
  | decimal => "dec"
  | text => "text"
  | truth => "truth"

def all : List Primitive.Kind :=
  [integer, decimal, text, truth]

def named? (name : String) : Option Primitive.Kind :=
  all.find? fun kind => kind.label = name

def render : Primitive.Kind → Datum → Except Numeral.Error String
  | truth, datum => .ok (if datum.isTrue then "truth true" else "truth false")
  | text, datum => datum.shown.map fun shown => "text " ++ Text.literal shown
  | kind, datum => datum.shown.map fun shown => kind.label ++ " " ++ shown

end Primitive.Kind

inductive Primitive where
  | integer (value : Int)
  | decimal (value : Float)
  | text (value : String)
  | truth (value : Bool)
deriving Inhabited

namespace Primitive

def kind : Primitive → Kind
  | integer _ => .integer
  | decimal _ => .decimal
  | text _ => .text
  | truth _ => .truth

def datum : Primitive → Datum
  | integer value => .integer value
  | decimal value => .decimal value
  | text value => .text value
  | truth value => .truth value

def render (primitive : Primitive) : Except Numeral.Error String :=
  primitive.kind.render primitive.datum

end Primitive

end Scriptlet
