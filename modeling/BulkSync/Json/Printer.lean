import BulkSync.Json.Value

/-!
# Writing JSON texts

Values are written without blanks. In strings only quotes, backslashes and control characters are
escaped, the control characters by their short form where there is one.
-/

namespace BulkSync.Json

/-- The character of a digit. -/
def digitChar (d : Nat) : Char := Char.ofNat (48 + d)

/-- The decimal digits of a number. -/
def decimal (n : Nat) : List Char :=
  if n < 10 then [digitChar n] else decimal (n / 10) ++ [digitChar (n % 10)]

/-- The hexadecimal digit of a number below 16, in lower case. -/
def hexChar (d : Nat) : Char := if d < 10 then Char.ofNat (48 + d) else Char.ofNat (87 + d)

/-- A character as it stands in a string. -/
def escape (c : Char) : List Char :=
  if c = '"' then ['\\', '"']
  else if c = '\\' then ['\\', '\\']
  else if c = '\x08' then ['\\', 'b']
  else if c = '\x0c' then ['\\', 'f']
  else if c = '\n' then ['\\', 'n']
  else if c = '\r' then ['\\', 'r']
  else if c = '\t' then ['\\', 't']
  else if c.toNat < 32 then ['\\', 'u', '0', '0', hexChar (c.toNat / 16), hexChar (c.toNat % 16)]
  else [c]

/-- A string with its quotes. One that denotes nothing is written as half of a surrogate pair. -/
def quote : Option String → List Char
  | some s => '"' :: s.toList.flatMap escape ++ ['"']
  | none => ['"', '\\', 'u', 'd', '8', '0', '0', '"']

/-- A numeral. -/
def writeNumeral : Numeral → List Char
  | .whole negative n => (if negative then ['-'] else []) ++ decimal n
  | .decimal negative digits exponent =>
      (if negative then ['-'] else []) ++ decimal digits ++ 'e' ::
        (if exponent < 0 then ['-'] else []) ++ decimal exponent.natAbs

mutual

/-- The text of a value. -/
def write : Json → List Char
  | .null => ['n', 'u', 'l', 'l']
  | .bool true => ['t', 'r', 'u', 'e']
  | .bool false => ['f', 'a', 'l', 's', 'e']
  | .number numeral => writeNumeral numeral
  | .string text => quote text
  | .array items => '[' :: writeItems items
  | .object members => '\x7b' :: writeMembers members

/-- The items of an array and its closing bracket. -/
def writeItems : List Json → List Char
  | [] => [']']
  | [item] => write item ++ [']']
  | item :: items => write item ++ ',' :: writeItems items

/-- The members of an object and its closing brace. -/
def writeMembers : List (Option String × Json) → List Char
  | [] => ['\x7d']
  | [(key, value)] => quote key ++ ':' :: write value ++ ['\x7d']
  | (key, value) :: members => quote key ++ ':' :: write value ++ ',' :: writeMembers members

end

/-- The text of a value. -/
def render (value : Json) : String := String.ofList value.write

end BulkSync.Json
