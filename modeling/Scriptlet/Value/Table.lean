import Scriptlet.Value
/-!
# The table of values

Values in the order in which their identities were first stored.  Storing a value again keeps its
place; only a collection removes values.
-/

namespace Scriptlet

structure ValueTable (ν : Type) where
  values : List (Value ν)
deriving Inhabited

namespace ValueTable

variable {ν : Type}

def empty : ValueTable ν where
  values := []

def get? (table : ValueTable ν) (id : ValueId) : Option (Value ν) :=
  table.values.find? fun value => value.id = id

def contains (table : ValueTable ν) (id : ValueId) : Bool :=
  (table.get? id).isSome

def size (table : ValueTable ν) : Nat :=
  table.values.length

/-- Stores a value, in the place of the one that had its identity before. -/
def insert (table : ValueTable ν) (value : Value ν) : ValueTable ν where
  values :=
    if table.contains value.id then
      table.values.map fun old => if old.id = value.id then value else old
    else table.values ++ [value]

def collect (table : ValueTable ν) (live : List ValueId) : ValueTable ν where
  values := table.values.filter fun value => live.contains value.id

/-- How many values a collection removes. -/
def garbage (table : ValueTable ν) (live : List ValueId) : Nat :=
  table.size - (table.collect live).size

end ValueTable

end Scriptlet
