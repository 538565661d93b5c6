/-!
# JSON values

The value that a JSON text stands for, as far as a reader of configurations needs it. Whole numbers
are told apart from other numerals, because counts are read from whole numbers only. A string may be
well formed as a text and yet denote nothing, when an escape in it is half of a surrogate pair; such
a string is `none`.
-/

namespace BulkSync

/-- A numeral: whole, or `± digits * 10 ^ exponent` if it was written with a point or an exponent. -/
inductive Numeral where
  | whole (negative : Bool) (magnitude : Nat)
  | decimal (negative : Bool) (digits : Nat) (exponent : Int)
  deriving DecidableEq

/-- A JSON value. Members of an object keep their order, and a key may occur more than once. -/
inductive Json where
  | null
  | bool (value : Bool)
  | number (numeral : Numeral)
  | string (text : Option String)
  | array (items : List Json)
  | object (members : List (Option String × Json))

namespace Json

instance : Inhabited Json := ⟨.null⟩

/-- The value of a text. -/
def text (s : String) : Json := .string (some s)

/-- The value of a count. -/
def nat (n : Nat) : Json := .number (.whole false n)

/-- The value of an integer. -/
def int (i : Int) : Json := .number (.whole (decide (i < 0)) i.natAbs)

/-- The value of a record with distinct keys. -/
def record (members : List (String × Json)) : Json :=
  .object (members.map fun (key, value) => (some key, value))

/-- The member under a key, if the value is an object that has one. -/
def get? (value : Json) (key : String) : Option Json :=
  match value with
  | .object members => (members.find? fun member => member.1 == some key).map (·.2)
  | _ => none

/-- The text of a string that denotes one. -/
def text? : Json → Option String
  | .string text => text
  | _ => none

/-- The count of a whole numeral without a sign. -/
def nat? : Json → Option Nat
  | .number (.whole false n) => some n
  | _ => none

/-- The items of an array. -/
def items? : Json → Option (List Json)
  | .array items => some items
  | _ => none

end Json
end BulkSync
