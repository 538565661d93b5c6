import BulkSync.Json.Printer
import BulkSync.Json.Reader
import Mathlib.Data.List.Basic

/-! # Reading what was written

Every value is read back from its text (`parse?_render`). Each reader takes off a text what its writer has
put in front of it, whatever comes behind; only behind a numeral nothing may come that would go on with
it (`Ends`). -/

namespace BulkSync.Json

/-! ## Digits -/

/-- Nothing comes that would go on with a numeral. -/
def Ends (rest : List Char) : Prop :=
  ∀ c ∈ rest.head?, isDigit c = false ∧ c ≠ '.' ∧ c ≠ 'e' ∧ c ≠ 'E'

theorem isDigit_digitChar : ∀ d < 10, isDigit (digitChar d) = true := by decide

theorem toNat_digitChar : ∀ d < 10, (digitChar d).toNat - 48 = d := by decide

theorem isDigit_of_mem_decimal (n : Nat) : ∀ c ∈ decimal n, isDigit c = true := by
  fun_induction decimal n with
  | case1 n small => simpa using isDigit_digitChar n small
  | case2 n large inductionHypothesis =>
    intro c member
    rcases List.mem_append.mp member with front | last
    · exact inductionHypothesis c front
    · rw [List.mem_singleton.mp last]
      exact isDigit_digitChar (n % 10) (by omega)

theorem decimal_ne_nil (n : Nat) : decimal n ≠ [] := by
  rw [decimal]
  split <;> simp

theorem digitsValue_decimal (n : Nat) : digitsValue (decimal n) = n := by
  fun_induction decimal n with
  | case1 n small => simpa [digitsValue] using toNat_digitChar n small
  | case2 n large inductionHypothesis =>
    have front : (decimal (n / 10)).foldl (fun n d => 10 * n + (d.toNat - 48)) 0 = n / 10 :=
      inductionHypothesis
    have last := toNat_digitChar (n % 10) (by omega)
    simp only [digitsValue, List.foldl_append, front, List.foldl_cons, List.foldl_nil, last]
    omega

/-- The digits of a number start with a zero only if that is all. -/
theorem eq_nil_of_decimal_zero {n : Nat} {digits : List Char} (zero : decimal n = '0' :: digits) :
    digits = [] := by
  fun_induction decimal n generalizing digits with
  | case1 n small => exact (List.cons.inj zero).2.symm
  | case2 n large inductionHypothesis =>
    cases front : decimal (n / 10) with
    | nil => exact absurd front (decimal_ne_nil _)
    | cons first others =>
      rw [front, List.cons_append] at zero
      obtain ⟨rfl, -⟩ := List.cons.inj zero
      -- a number that is a single zero in front of its last digit is no larger than that digit
      have alone := inductionHypothesis front
      have value := digitsValue_decimal (n / 10)
      rw [front, alone] at value
      have none : n / 10 = 0 := value.symm
      omega

theorem takeWhile_decimal (n : Nat) {rest : List Char} (stops : ∀ c ∈ rest.head?, isDigit c = false) :
    (decimal n ++ rest).takeWhile isDigit = decimal n := by
  rw [List.takeWhile_append_of_pos (isDigit_of_mem_decimal n)]
  cases rest with
  | nil => simp
  | cons c rest => simp [stops c rfl]

theorem dropWhile_decimal (n : Nat) {rest : List Char} (stops : ∀ c ∈ rest.head?, isDigit c = false) :
    (decimal n ++ rest).dropWhile isDigit = rest := by
  rw [List.dropWhile_append_of_pos (isDigit_of_mem_decimal n)]
  cases rest with
  | nil => rfl
  | cons c rest => simp [stops c rfl]

theorem wholePart?_decimal (n : Nat) {rest : List Char} (stops : ∀ c ∈ rest.head?, isDigit c = false) :
    wholePart? (decimal n ++ rest) = some (n, rest) := by
  simp only [wholePart?, takeWhile_decimal n stops, dropWhile_decimal n stops]
  split
  · next none => exact absurd none (decimal_ne_nil n)
  · next second others zero => cases eq_nil_of_decimal_zero zero
  · rw [digitsValue_decimal]

theorem run?_decimal (n : Nat) {rest : List Char} (stops : ∀ c ∈ rest.head?, isDigit c = false) :
    run? (decimal n ++ rest) = some (n, (decimal n).length, rest) := by
  simp [run?, takeWhile_decimal n stops, dropWhile_decimal n stops, decimal_ne_nil, digitsValue_decimal]

/-! ## Numerals -/

theorem Ends.stops {rest : List Char} (ends : Ends rest) : ∀ c ∈ rest.head?, isDigit c = false :=
  fun c here => (ends c here).1

theorem unsigned?_whole (negative : Bool) (n : Nat) {rest : List Char} (ends : Ends rest) :
    unsigned? negative (decimal n ++ rest) = some (.whole negative n, rest) := by
  rw [unsigned?, wholePart?_decimal n ends.stops]
  cases rest with
  | nil => rfl
  | cons c rest =>
    obtain ⟨-, point, lower, upper⟩ := ends c rfl
    simp [point, lower, upper]

/-- A sign is no digit, so that one is never mistaken for the other. -/
theorem isDigit_of_decimal_cons {n : Nat} {rest later : List Char} {c : Char}
    (starts : decimal n ++ rest = c :: later) : isDigit c = true := by
  cases digits : decimal n with
  | nil => exact absurd digits (decimal_ne_nil n)
  | cons first others =>
    rw [digits, List.cons_append] at starts
    obtain ⟨rfl, -⟩ := List.cons.inj starts
    exact isDigit_of_mem_decimal n first (by simp [digits])

theorem exponent?_written (exponent : Int) {rest : List Char} (ends : Ends rest) :
    exponent? ((if exponent < 0 then ['-'] else []) ++ decimal exponent.natAbs ++ rest) =
      some (exponent, rest) := by
  have runs := run?_decimal exponent.natAbs ends.stops
  split
  · next negative =>
    have value : -(exponent.natAbs : Int) = exponent := by omega
    simp only [List.cons_append, List.nil_append, exponent?, runs]
    exact congrArg (fun read => some (read, rest)) value
  · next positive =>
    have value : (exponent.natAbs : Int) = exponent := by omega
    rw [List.nil_append, exponent?.eq_def]
    split
    · next later starts => cases isDigit_of_decimal_cons starts
    · next later starts => cases isDigit_of_decimal_cons starts
    · rw [runs]
      exact congrArg (fun read => some (read, rest)) value

theorem unsigned?_decimal (negative : Bool) (digits : Nat) (exponent : Int) {rest : List Char}
    (ends : Ends rest) :
    unsigned? negative (decimal digits ++ 'e' ::
      (if exponent < 0 then ['-'] else []) ++ decimal exponent.natAbs ++ rest) =
        some (.decimal negative digits exponent, rest) := by
  have whole : ∀ behind, wholePart? (decimal digits ++ 'e' :: behind) = some (digits, 'e' :: behind) :=
    fun behind => wholePart?_decimal digits (by simp [isDigit])
  have scale := exponent?_written exponent ends
  rw [List.append_assoc] at scale
  rw [unsigned?]
  simp [whole, scale]

theorem numeral?_write (numeral : Numeral) {rest : List Char} (ends : Ends rest) :
    numeral? (writeNumeral numeral ++ rest) = some (numeral, rest) := by
  -- digits are read without a sign unless there is one
  have bare : ∀ n later, numeral? (decimal n ++ later) = unsigned? false (decimal n ++ later) := by
    intro n later
    rw [numeral?.eq_def]
    split
    · next others starts => cases isDigit_of_decimal_cons starts
    · rfl
  cases numeral with
  | whole negative n =>
    have reads := unsigned?_whole negative n ends
    cases negative with
    | true => simpa [writeNumeral, numeral?] using reads
    | false => simpa [writeNumeral, bare] using reads
  | decimal negative digits exponent =>
    have reads := unsigned?_decimal negative digits exponent ends
    rw [List.append_assoc, List.append_assoc] at reads
    cases negative with
    | true => simpa [writeNumeral, numeral?] using reads
    | false => simpa [writeNumeral, bare] using reads

/-! ## Strings -/

theorem hexValue?_hexChar : ∀ d < 16, hexValue? (hexChar d) = some d := by decide

/-- A character stands for itself, or behind a backslash by a letter or by its number. -/
theorem escape_cases (c : Char) :
    (∃ e, escape c = ['\\', e] ∧ e ≠ 'u' ∧ simpleEscape? e = some c) ∨
    (c.toNat < 32 ∧
      escape c = ['\\', 'u', '0', '0', hexChar (c.toNat / 16), hexChar (c.toNat % 16)]) ∨
    (32 ≤ c.toNat ∧ c ≠ '"' ∧ c ≠ '\\' ∧ escape c = [c]) := by
  by_cases short : c ∈ ['"', '\\', '\x08', '\x0c', '\n', '\r', '\t']
  · simp only [List.mem_cons, List.not_mem_nil, or_false] at short
    left
    rcases short with rfl | rfl | rfl | rfl | rfl | rfl | rfl
    · exact ⟨'"', rfl, by decide, rfl⟩
    · exact ⟨'\\', rfl, by decide, rfl⟩
    · exact ⟨'b', rfl, by decide, rfl⟩
    · exact ⟨'f', rfl, by decide, rfl⟩
    · exact ⟨'n', rfl, by decide, rfl⟩
    · exact ⟨'r', rfl, by decide, rfl⟩
    · exact ⟨'t', rfl, by decide, rfl⟩
  · simp only [List.mem_cons, List.not_mem_nil, or_false, not_or] at short
    obtain ⟨quote, backslash, b, f, n, r, t⟩ := short
    rcases Nat.lt_or_ge c.toNat 32 with control | printable
    · exact .inr (.inl ⟨control, by simp [escape, *]⟩)
    · have bound : ¬ c.toNat < 32 := by omega
      exact .inr (.inr ⟨printable, quote, backslash, by simp [escape, *]⟩)

theorem pieces?_letter {e c : Char} (letter : e ≠ 'u') (denotes : simpleEscape? e = some c)
    (rest : List Char) :
    pieces? ('\\' :: e :: rest) = (pieces? rest).map fun (pieces, rest) => (.char c :: pieces, rest) := by
  rw [pieces?.eq_def]
  split
  · next nothing => cases nothing
  · next quote => cases quote
  · next unit => exact absurd (List.cons.inj (List.cons.inj unit).2).1 letter
  · next other later _ escaped =>
    obtain ⟨rfl, rfl⟩ := List.cons.inj (List.cons.inj escaped).2
    rw [denotes]
    cases pieces? rest <;> rfl
  · next first others _ _ noEscape starts =>
    obtain ⟨rfl, rfl⟩ := List.cons.inj starts
    exact absurd rfl (noEscape e rest rfl)

theorem pieces?_number {c : Char} (control : c.toNat < 32) (rest : List Char) :
    pieces? ('\\' :: 'u' :: '0' :: '0' :: hexChar (c.toNat / 16) :: hexChar (c.toNat % 16) :: rest) =
      (pieces? rest).map fun (pieces, rest) => (.unit c.toNat :: pieces, rest) := by
  have high := hexValue?_hexChar (c.toNat / 16) (by omega)
  have low := hexValue?_hexChar (c.toNat % 16) (by omega)
  have zero : hexValue? '0' = some 0 := by decide
  have whole : c.toNat / 16 * 16 + c.toNat % 16 = c.toNat := by omega
  rw [pieces?]
  cases pieces? rest <;> simp [high, low, zero, whole]

theorem pieces?_itself {c : Char} (printable : 32 ≤ c.toNat) (quote : c ≠ '"') (backslash : c ≠ '\\')
    (rest : List Char) :
    pieces? (c :: rest) = (pieces? rest).map fun (pieces, rest) => (.char c :: pieces, rest) := by
  have bound : ¬ c.toNat < 32 := by omega
  rw [pieces?.eq_def]
  split
  · next nothing => cases nothing
  · next starts => exact absurd (List.cons.inj starts).1 quote
  · next starts => exact absurd (List.cons.inj starts).1 backslash
  · next starts => exact absurd (List.cons.inj starts).1 backslash
  · next first others _ _ _ starts =>
    obtain ⟨rfl, rfl⟩ := List.cons.inj starts
    cases pieces? rest <;> simp [bound, backslash]

theorem chars?_char (c : Char) (pieces : List Piece) :
    chars? (.char c :: pieces) = (chars? pieces).map (c :: ·) := by
  rw [chars?]
  cases chars? pieces <;> rfl

theorem chars?_unit {c : Char} (control : c.toNat < 32) (pieces : List Piece) :
    chars? (.unit c.toNat :: pieces) = (chars? pieces).map (c :: ·) := by
  have high : isHighHalf c.toNat = false := by
    simp only [isHighHalf, Bool.and_eq_false_iff, decide_eq_false_iff_not]
    omega
  have low : isLowHalf c.toNat = false := by
    simp only [isLowHalf, Bool.and_eq_false_iff, decide_eq_false_iff_not]
    omega
  rw [chars?.eq_def]
  simp only [high, low, Char.ofNat_toNat, Bool.false_eq_true, if_false]
  cases chars? pieces <;> rfl

/-- The escape of a character is one part of a string, and that part denotes the character. -/
theorem pieces?_escape (c : Char) : ∃ piece, (∀ rest, pieces? (escape c ++ rest) =
      (pieces? rest).map fun (pieces, rest) => (piece :: pieces, rest)) ∧
    ∀ pieces, chars? (piece :: pieces) = (chars? pieces).map (c :: ·) := by
  rcases escape_cases c with ⟨e, written, letter, denotes⟩ | ⟨control, written⟩ |
    ⟨printable, quote, backslash, written⟩
  · exact ⟨.char c, fun rest => written ▸ pieces?_letter letter denotes rest, chars?_char c⟩
  · exact ⟨.unit c.toNat, fun rest => written ▸ pieces?_number control rest, chars?_unit control⟩
  · exact ⟨.char c, fun rest => written ▸ pieces?_itself printable quote backslash rest, chars?_char c⟩

theorem pieces?_escapes (cs rest : List Char) : ∃ pieces,
    pieces? (cs.flatMap escape ++ '"' :: rest) = some (pieces, rest) ∧ chars? pieces = some cs := by
  induction cs with
  | nil => exact ⟨[], by simp [pieces?], rfl⟩
  | cons c cs inductionHypothesis =>
    obtain ⟨pieces, reads, denotes⟩ := inductionHypothesis
    obtain ⟨piece, first, denotesFirst⟩ := pieces?_escape c
    refine ⟨piece :: pieces, ?_, ?_⟩
    · rw [List.flatMap_cons, List.append_assoc, first, reads]
      rfl
    · rw [denotesFirst, denotes]
      rfl

/-- What stands between the quotes is read back, also where it denotes nothing. -/
theorem string?_quote (text : Option String) (rest : List Char) : ∃ later,
    quote text ++ rest = '"' :: later ∧ string? later = some (text, rest) := by
  cases text with
  | none => exact ⟨_, rfl, by simp [string?, pieces?, hexValue?, chars?, isHighHalf]⟩
  | some s =>
    obtain ⟨pieces, reads, denotes⟩ := pieces?_escapes s.toList rest
    refine ⟨s.toList.flatMap escape ++ '"' :: rest, by simp [quote], ?_⟩
    simp [string?, reads, denotes]

/-! ## Values -/

theorem skipBlanks_cons {c : Char} (visible : isBlank c = false) (later : List Char) :
    skipBlanks (c :: later) = c :: later := by
  simp [skipBlanks, visible]

theorem ends_cons {c : Char} (other : isDigit c = false ∧ c ≠ '.' ∧ c ≠ 'e' ∧ c ≠ 'E') (later : List Char) :
    Ends (c :: later) := by
  intro d here
  cases here
  exact other

theorem numeral_head (numeral : Numeral) :
    ∃ c later, writeNumeral numeral = c :: later ∧ (isDigit c = true ∨ c = '-') := by
  have digits_head : ∀ n, ∃ c later, decimal n = c :: later ∧ isDigit c = true := fun n => by
    obtain ⟨c, later, starts⟩ := List.exists_cons_of_ne_nil (decimal_ne_nil n)
    exact ⟨c, later, starts, isDigit_of_mem_decimal n c (by simp [starts])⟩
  cases numeral with
  | whole negative n =>
    obtain ⟨c, later, starts, digit⟩ := digits_head n
    cases negative with
    | true => exact ⟨_, _, rfl, .inr rfl⟩
    | false => exact ⟨c, later, starts, .inl digit⟩
  | decimal negative digits exponent =>
    obtain ⟨c, later, starts, digit⟩ := digits_head digits
    cases negative with
    | true => exact ⟨_, _, rfl, .inr rfl⟩
    | false => exact ⟨c, _, by rw [writeNumeral, starts]; rfl, .inl digit⟩

/-- The text of a value starts with no blank, and with no bracket that would close an array. -/
theorem write_head (value : Json) : ∃ c later, value.write = c :: later ∧ isBlank c = false ∧ c ≠ ']' := by
  cases value with
  | null => exact ⟨_, _, rfl, by decide⟩
  | bool value => cases value <;> exact ⟨_, _, rfl, by decide⟩
  | number numeral =>
    obtain ⟨c, later, starts, head⟩ := numeral_head numeral
    refine ⟨c, later, starts, ?_, ?_⟩
    · rw [Bool.eq_false_iff]
      intro blank
      simp only [isBlank, Bool.or_eq_true, beq_iff_eq] at blank
      rcases blank with ((rfl | rfl) | rfl) | rfl <;> revert head <;> decide
    · rintro rfl
      revert head
      decide
  | string text => cases text <;> exact ⟨_, _, rfl, by decide⟩
  | array items => exact ⟨_, _, rfl, by decide⟩
  | object members => exact ⟨_, _, rfl, by decide⟩

theorem value?_numeral (numeral : Numeral) (fuel : Nat) {rest : List Char} (ends : Ends rest) :
    value? (fuel + 1) (writeNumeral numeral ++ rest) = some (.number numeral, rest) := by
  obtain ⟨c, later, starts, visible, -⟩ := write_head (.number numeral)
  obtain ⟨_, _, same, head⟩ := numeral_head numeral
  have reads := numeral?_write numeral ends
  obtain ⟨rfl, rfl⟩ := List.cons.inj (starts.symm.trans same)
  rw [write] at starts
  rw [starts, List.cons_append] at reads ⊢
  -- nothing but a numeral starts with a digit or a minus sign
  have other : ∀ d, isDigit d = false → d ≠ '-' → c ≠ d := by
    rintro d noDigit noSign rfl
    rcases head with digit | sign
    · rw [noDigit] at digit
      cases digit
    · exact noSign sign
  rw [value?.eq_def]
  simp only [skipBlanks_cons visible]
  split
  · next starts => exact absurd (List.cons.inj starts).1 (other 'n' (by decide) (by decide))
  · next starts => exact absurd (List.cons.inj starts).1 (other 't' (by decide) (by decide))
  · next starts => exact absurd (List.cons.inj starts).1 (other 'f' (by decide) (by decide))
  · next starts => exact absurd (List.cons.inj starts).1 (other '"' (by decide) (by decide))
  · next starts => exact absurd (List.cons.inj starts).1 (other '[' (by decide) (by decide))
  · next starts => exact absurd (List.cons.inj starts).1 (other '\x7b' (by decide) (by decide))
  · rw [reads]
    rfl

/-! ### Items and members -/

theorem itemsFrom?_last {item : Json} {fuel : Nat} {rest : List Char}
    (reads : value? fuel (item.write ++ ']' :: rest) = some (item, ']' :: rest)) :
    itemsFrom? (fuel + 1) (writeItems [item] ++ rest) = some ([item], rest) := by
  have closes := skipBlanks_cons (c := ']') (by decide) rest
  simp [itemsFrom?, writeItems, reads, closes]

theorem itemsFrom?_cons {item next : Json} {items : List Json} {fuel : Nat} {rest : List Char}
    (reads : value? fuel (item.write ++ ',' :: (writeItems (next :: items) ++ rest)) =
      some (item, ',' :: (writeItems (next :: items) ++ rest)))
    (later : itemsFrom? fuel (writeItems (next :: items) ++ rest) = some (next :: items, rest)) :
    itemsFrom? (fuel + 1) (writeItems (item :: next :: items) ++ rest) =
      some (item :: next :: items, rest) := by
  have goesOn := skipBlanks_cons (c := ',') (by decide) (writeItems (next :: items) ++ rest)
  have text : writeItems (item :: next :: items) ++ rest =
      item.write ++ ',' :: (writeItems (next :: items) ++ rest) := by simp [writeItems]
  rw [itemsFrom?, text, reads]
  simp [goesOn, later]

/-- A member is read up to what comes behind its value. -/
theorem membersFrom?_eq (key : Option String) {value : Json} {fuel : Nat} {rest : List Char}
    (reads : value? fuel (value.write ++ rest) = some (value, rest)) :
    membersFrom? (fuel + 1) (quote key ++ ':' :: (value.write ++ rest)) =
      match skipBlanks rest with
      | ',' :: rest => (membersFrom? fuel rest).map fun (members, rest) => ((key, value) :: members, rest)
      | '\x7d' :: rest => some ([(key, value)], rest)
      | _ => none := by
  obtain ⟨later, starts, named⟩ := string?_quote key (':' :: (value.write ++ rest))
  have opens := skipBlanks_cons (c := '"') (by decide) later
  have colon := skipBlanks_cons (c := ':') (by decide) (value.write ++ rest)
  rw [membersFrom?, starts, opens]
  simp only [named, Option.bind_eq_bind, Option.bind_some, colon, reads]
  cases skipBlanks rest with
  | nil => rfl
  | cons c behind =>
    by_cases comma : c = ','
    · subst comma
      simp only [Option.map_eq_bind]
      rfl
    · by_cases brace : c = '\x7d'
      · subst brace
        rfl
      · simp [comma, brace]

theorem membersFrom?_last {key : Option String} {value : Json} {fuel : Nat} {rest : List Char}
    (reads : value? fuel (value.write ++ '\x7d' :: rest) = some (value, '\x7d' :: rest)) :
    membersFrom? (fuel + 1) (writeMembers [(key, value)] ++ rest) = some ([(key, value)], rest) := by
  have member := membersFrom?_eq key reads
  rw [skipBlanks_cons (by decide)] at member
  simpa [writeMembers] using member

theorem membersFrom?_cons {key : Option String} {value : Json} {next : Option String × Json}
    {members : List (Option String × Json)} {fuel : Nat} {rest : List Char}
    (reads : value? fuel (value.write ++ ',' :: (writeMembers (next :: members) ++ rest)) =
      some (value, ',' :: (writeMembers (next :: members) ++ rest)))
    (later : membersFrom? fuel (writeMembers (next :: members) ++ rest) = some (next :: members, rest)) :
    membersFrom? (fuel + 1) (writeMembers ((key, value) :: next :: members) ++ rest) =
      some ((key, value) :: next :: members, rest) := by
  have member := membersFrom?_eq key reads
  rw [skipBlanks_cons (by decide)] at member
  simpa [writeMembers, later] using member

/-! ### The whole -/

theorem value?_array {item : Json} {items : List Json} {fuel : Nat} {rest : List Char}
    (reads : itemsFrom? fuel (writeItems (item :: items) ++ rest) = some (item :: items, rest)) :
    value? (fuel + 1) ((Json.array (item :: items)).write ++ rest) =
      some (.array (item :: items), rest) := by
  obtain ⟨c, later, starts, visible, opens⟩ : ∃ c later, writeItems (item :: items) ++ rest = c :: later ∧
      isBlank c = false ∧ c ≠ ']' := by
    obtain ⟨c, later, starts, head⟩ := write_head item
    cases items with
    | nil => exact ⟨c, _, by rw [writeItems, starts]; rfl, head⟩
    | cons next items => exact ⟨c, _, by rw [writeItems.eq_3 _ _ (by simp), starts]; rfl, head⟩
  have bracket := skipBlanks_cons (c := '[') (by decide) (c :: later)
  rw [write, List.cons_append, starts, value?, bracket]
  rw [starts] at reads
  simp [skipBlanks_cons visible, opens, reads]

theorem value?_object {member : Option String × Json} {members : List (Option String × Json)} {fuel : Nat}
    {rest : List Char}
    (reads : membersFrom? fuel (writeMembers (member :: members) ++ rest) = some (member :: members, rest)) :
    value? (fuel + 1) ((Json.object (member :: members)).write ++ rest) =
      some (.object (member :: members), rest) := by
  obtain ⟨later, starts⟩ : ∃ later, writeMembers (member :: members) ++ rest = '"' :: later := by
    obtain ⟨key, value⟩ := member
    cases members with
    | nil => cases key <;> exact ⟨_, rfl⟩
    | cons next members => cases key <;> exact ⟨_, rfl⟩
  have brace := skipBlanks_cons (c := '\x7b') (by decide) ('"' :: later)
  have opens := skipBlanks_cons (c := '"') (by decide) later
  rw [write, List.cons_append, starts, value?, brace]
  rw [starts] at reads
  simp [opens, reads]

theorem length_write_pos (value : Json) : 0 < value.write.length := by
  obtain ⟨c, later, starts, -⟩ := write_head value
  simp [starts]

/-- With so much fuel texts are read: every second call takes a character away, so that twice as much as
there are characters is enough. -/
structure Reads (fuel : Nat) : Prop where
  value : ∀ (value : Json) {rest : List Char}, 2 * value.write.length ≤ fuel → Ends rest →
    value? fuel (value.write ++ rest) = some (value, rest)
  items : ∀ (item : Json) (items : List Json) {rest : List Char},
    2 * (writeItems (item :: items)).length < fuel →
      itemsFrom? fuel (writeItems (item :: items) ++ rest) = some (item :: items, rest)
  members : ∀ (member : Option String × Json) (members : List (Option String × Json)) {rest : List Char},
    2 * (writeMembers (member :: members)).length < fuel →
      membersFrom? fuel (writeMembers (member :: members) ++ rest) = some (member :: members, rest)

theorem reads_write (fuel : Nat) : Reads fuel := by
  induction fuel with
  | zero =>
    refine ⟨fun value rest enough => ?_, fun item items rest enough => by omega,
      fun member members rest enough => by omega⟩
    have some := length_write_pos value
    omega
  | succ fuel inductionHypothesis =>
    obtain ⟨readsValue, readsItems, readsMembers⟩ := inductionHypothesis
    refine ⟨fun value rest enough ends => ?_, fun item items rest enough => ?_,
      fun (key, value) members rest enough => ?_⟩
    · match value with
      | .null => simp [write, value?, skipBlanks_cons (c := 'n') (by decide)]
      | .bool true => simp [write, value?, skipBlanks_cons (c := 't') (by decide)]
      | .bool false => simp [write, value?, skipBlanks_cons (c := 'f') (by decide)]
      | .number numeral => exact value?_numeral numeral fuel ends
      | .string text =>
        obtain ⟨later, starts, reads⟩ := string?_quote text rest
        simp [write, starts, value?, skipBlanks_cons (c := '"') (by decide), reads]
      | .array [] =>
        simp [write, writeItems, value?, skipBlanks_cons (c := '[') (by decide),
          skipBlanks_cons (c := ']') (by decide)]
      | .array (item :: items) =>
        rw [write, List.length_cons] at enough
        exact value?_array (readsItems item items (by omega))
      | .object [] =>
        simp [write, writeMembers, value?, skipBlanks_cons (c := '\x7b') (by decide),
          skipBlanks_cons (c := '\x7d') (by decide)]
      | .object (member :: members) =>
        rw [write, List.length_cons] at enough
        exact value?_object (readsMembers member members (by omega))
    · cases items with
      | nil =>
        simp only [writeItems, List.length_append, List.length_cons] at enough
        exact itemsFrom?_last (readsValue item (by omega) (ends_cons (by decide) _))
      | cons next items =>
        simp only [writeItems, List.length_append, List.length_cons] at enough
        exact itemsFrom?_cons (readsValue item (by omega) (ends_cons (by decide) _))
          (readsItems next items (by omega))
    · cases members with
      | nil =>
        simp only [writeMembers, List.length_append, List.length_cons] at enough
        exact membersFrom?_last (readsValue value (by omega) (ends_cons (by decide) _))
      | cons next members =>
        simp only [writeMembers, List.length_append, List.length_cons] at enough
        exact membersFrom?_cons (readsValue value (by omega) (ends_cons (by decide) _))
          (readsMembers next members (by omega))

/-- Every value is read back from its text. -/
theorem parse?_render (value : Json) : parse? value.render = some value := by
  have reads : value? (2 * value.write.length + 2) (value.write ++ []) = some (value, []) :=
    (reads_write _).value value (by omega) fun c here => by cases here
  rw [List.append_nil] at reads
  simp [parse?, render, ofChars?, reads, skipBlanks]

end BulkSync.Json
