import BulkSync.Json.Value

/-!
# Reading JSON texts

The reader works on a list of characters; each part returns what it read and the rest. Texts are read
strictly: no leading zeros, no trailing commas, no raw control characters in strings, and nothing but
blanks behind the value.
-/

namespace BulkSync.Json

/-! ## Blanks and digits -/

/-- The four characters that may stand between tokens. -/
def isBlank (c : Char) : Bool := c == ' ' || c == '\t' || c == '\n' || c == '\r'

/-- The rest behind leading blanks. -/
def skipBlanks (cs : List Char) : List Char := cs.dropWhile isBlank

/-- Whether a character is a decimal digit. -/
def isDigit (c : Char) : Bool := decide (48 ≤ c.toNat) && decide (c.toNat ≤ 57)

/-- The number that a run of digits denotes. -/
def digitsValue (ds : List Char) : Nat := ds.foldl (fun n d => 10 * n + (d.toNat - 48)) 0

/-- The value of a hexadecimal digit of either case. -/
def hexValue? (c : Char) : Option Nat :=
  let n := c.toNat
  if 48 ≤ n && n ≤ 57 then some (n - 48)
  else if 97 ≤ n && n ≤ 102 then some (n - 87)
  else if 65 ≤ n && n ≤ 70 then some (n - 55)
  else none

/-! ## Strings -/

/-- A part of a string: a character, or a 16-bit unit written as an escape. -/
inductive Piece where
  | char (c : Char)
  | unit (n : Nat)

/-- The character of an escape of two characters. -/
def simpleEscape? : Char → Option Char
  | '"' => some '"'
  | '\\' => some '\\'
  | '/' => some '/'
  | 'b' => some '\x08'
  | 'f' => some '\x0c'
  | 'n' => some '\n'
  | 'r' => some '\r'
  | 't' => some '\t'
  | _ => none

/-- The parts of a string up to its closing quote, and the rest behind it. -/
def pieces? : List Char → Option (List Piece × List Char)
  | [] => none
  | '"' :: rest => some ([], rest)
  | '\\' :: 'u' :: a :: b :: c :: d :: rest => do
      let unit := ((← hexValue? a) * 16 + (← hexValue? b)) * 256 +
        ((← hexValue? c) * 16 + (← hexValue? d))
      let (pieces, rest) ← pieces? rest
      return (.unit unit :: pieces, rest)
  | '\\' :: e :: rest => do
      let c ← simpleEscape? e
      let (pieces, rest) ← pieces? rest
      return (.char c :: pieces, rest)
  | c :: rest =>
      if c.toNat < 32 || c == '\\' then none
      else do
        let (pieces, rest) ← pieces? rest
        return (.char c :: pieces, rest)

/-- Whether a unit is the first half of a surrogate pair. -/
def isHighHalf (n : Nat) : Bool := decide (0xD800 ≤ n) && decide (n < 0xDC00)

/-- Whether a unit is the second half of a surrogate pair. -/
def isLowHalf (n : Nat) : Bool := decide (0xDC00 ≤ n) && decide (n < 0xE000)

/-- The characters of a string, unless half of a surrogate pair stands alone. -/
def chars? : List Piece → Option (List Char)
  | [] => some []
  | .char c :: rest => do return c :: (← chars? rest)
  | .unit n :: rest =>
      if isHighHalf n then
        match rest with
        | .unit m :: later =>
            if isLowHalf m then do
              return Char.ofNat (0x10000 + (n - 0xD800) * 0x400 + (m - 0xDC00)) :: (← chars? later)
            else none
        | _ => none
      else if isLowHalf n then none
      else do return Char.ofNat n :: (← chars? rest)

/-- A string behind its opening quote, and the rest. -/
def string? (cs : List Char) : Option (Option String × List Char) := do
  let (pieces, rest) ← pieces? cs
  return ((chars? pieces).map String.ofList, rest)

/-! ## Numerals -/

/-- The whole part of a numeral: a zero alone, or digits that start with another one. -/
def wholePart? (cs : List Char) : Option (Nat × List Char) :=
  let digits := cs.takeWhile isDigit
  let rest := cs.dropWhile isDigit
  match digits with
  | [] => none
  | '0' :: _ :: _ => none
  | _ => some (digitsValue digits, rest)

/-- A run of at least one digit, with its value and length. -/
def run? (cs : List Char) : Option (Nat × Nat × List Char) :=
  let digits := cs.takeWhile isDigit
  if digits.isEmpty then none
  else some (digitsValue digits, digits.length, cs.dropWhile isDigit)

/-- The exponent of a numeral behind its letter. -/
def exponent? : List Char → Option (Int × List Char)
  | '-' :: cs => do
      let (n, _, rest) ← run? cs
      return (-(n : Int), rest)
  | '+' :: cs => do
      let (n, _, rest) ← run? cs
      return ((n : Int), rest)
  | cs => do
      let (n, _, rest) ← run? cs
      return ((n : Int), rest)

/-- A numeral behind its sign. -/
def unsigned? (negative : Bool) (cs : List Char) : Option (Numeral × List Char) := do
  let (whole, rest) ← wholePart? cs
  let (digits, places, fractional, rest) ←
    match rest with
    | '.' :: rest => do
        let (fraction, places, rest) ← run? rest
        pure (whole * Nat.pow 10 places + fraction, places, true, rest)
    | rest => pure (whole, 0, false, rest)
  match rest with
  | c :: later =>
      if c == 'e' || c == 'E' then do
        let (exponent, rest) ← exponent? later
        return (.decimal negative digits (exponent - places), rest)
      else if fractional then return (.decimal negative digits (-(places : Int)), rest)
      else return (.whole negative whole, rest)
  | [] =>
      if fractional then return (.decimal negative digits (-(places : Int)), rest)
      else return (.whole negative whole, rest)

/-- A numeral. -/
def numeral? : List Char → Option (Numeral × List Char)
  | '-' :: cs => unsigned? true cs
  | cs => unsigned? false cs

/-! ## Values

The fuel bounds the depth of the calls; twice the number of characters is enough, since every second
call takes a character away. -/

mutual

/-- A value, and the rest behind it. -/
def value? : Nat → List Char → Option (Json × List Char)
  | 0, _ => none
  | fuel + 1, cs =>
      match skipBlanks cs with
      | 'n' :: 'u' :: 'l' :: 'l' :: rest => some (.null, rest)
      | 't' :: 'r' :: 'u' :: 'e' :: rest => some (.bool true, rest)
      | 'f' :: 'a' :: 'l' :: 's' :: 'e' :: rest => some (.bool false, rest)
      | '"' :: rest => do
          let (text, rest) ← string? rest
          return (.string text, rest)
      | '[' :: rest =>
          match skipBlanks rest with
          | ']' :: rest => some (.array [], rest)
          | rest => do
              let (items, rest) ← itemsFrom? fuel rest
              return (.array items, rest)
      | '\x7b' :: rest =>
          match skipBlanks rest with
          | '\x7d' :: rest => some (.object [], rest)
          | rest => do
              let (members, rest) ← membersFrom? fuel rest
              return (.object members, rest)
      | cs => do
          let (numeral, rest) ← numeral? cs
          return (.number numeral, rest)

/-- The items of an array from the next one on. -/
def itemsFrom? : Nat → List Char → Option (List Json × List Char)
  | 0, _ => none
  | fuel + 1, cs => do
      let (item, rest) ← value? fuel cs
      match skipBlanks rest with
      | ',' :: rest => do
          let (items, rest) ← itemsFrom? fuel rest
          return (item :: items, rest)
      | ']' :: rest => some ([item], rest)
      | _ => none

/-- The members of an object from the next one on. -/
def membersFrom? : Nat → List Char → Option (List (Option String × Json) × List Char)
  | 0, _ => none
  | fuel + 1, cs =>
      match skipBlanks cs with
      | '"' :: rest => do
          let (key, rest) ← string? rest
          match skipBlanks rest with
          | ':' :: rest => do
              let (value, rest) ← value? fuel rest
              match skipBlanks rest with
              | ',' :: rest => do
                  let (members, rest) ← membersFrom? fuel rest
                  return ((key, value) :: members, rest)
              | '\x7d' :: rest => some ([(key, value)], rest)
              | _ => none
          | _ => none
      | _ => none

end

/-- The value of a text that holds one value and nothing else. -/
def ofChars? (cs : List Char) : Option Json :=
  match value? (2 * cs.length + 2) cs with
  | some (value, rest) => if (skipBlanks rest).isEmpty then some value else none
  | none => none

/-- The value of a text that holds one value and nothing else. -/
def parse? (s : String) : Option Json := ofChars? s.toList

end BulkSync.Json
