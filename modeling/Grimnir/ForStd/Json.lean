import Mathlib.Algebra.Group.Nat.Defs

/-!
# JSON documents

The documents that `json.loads` returns, with Python's numbers: an integer has any size,
a float is its 64-bit word.  An object is the list of its members, first match first.
-/

inductive Json where
  | null
  | bool (b : Bool)
  | int (n : Int)
  | float (word : UInt64)
  | str (s : String)
  | arr (items : List Json)
  | obj (members : List (String × Json))

namespace Json

/-- `d.get(key)` on the members of an object. -/
def lookup (members : List (String × Json)) (key : String) : Option Json :=
  members.lookup key

/-- Python's truth value of a document. -/
def truthy : Json → Bool
  | null => false
  | bool b => b
  | int n => n != 0
  | float word => word != 0 && word != 0x8000000000000000
  | str s => s != ""
  | arr items => !items.isEmpty
  | obj members => !members.isEmpty

/-- The integer part of a double, when it is finite. -/
def truncate (word : UInt64) : Option Int :=
  let exponent := (word.toNat / 2 ^ 52) % 2 ^ 11
  let fraction := word.toNat % 2 ^ 52
  if exponent = 2 ^ 11 - 1 then none
  else
    -- the value is `mantissa * 2 ^ (shift - 1075)`
    let mantissa := if exponent = 0 then fraction else 2 ^ 52 + fraction
    let shift := if exponent = 0 then 1 else exponent
    let magnitude : Nat := mantissa * 2 ^ (shift - 1075) / 2 ^ (1075 - shift)
    some (if word.toNat < 2 ^ 63 then (magnitude : Int) else -(magnitude : Int))

/-- `int(doc)`, with `int` of a string as a parameter; `none` where it raises. -/
def toInt (intOfStr : String → Option Int) : Json → Option Int
  | int n => some n
  | bool b => some (if b then 1 else 0)
  | float word => truncate word
  | str s => intOfStr s
  | _ => none

end Json
