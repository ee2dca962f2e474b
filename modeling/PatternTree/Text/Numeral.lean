/-!
# Numerals

Reading a run of digits in base ten or sixteen.  `value` is the number a run of digits
denotes; `read?` accepts a numeral only if it has digits, all of them digits of the base, and
does not exceed a limit.
-/

namespace PatternTree.Numeral

/-- The value of a digit; hexadecimal letters count in either case. -/
def digitValue? (c : Char) : Option Nat :=
  if '0' ≤ c ∧ c ≤ '9' then some (c.toNat - '0'.toNat)
  else if 'a' ≤ c ∧ c ≤ 'f' then some (c.toNat - 'a'.toNat + 10)
  else if 'A' ≤ c ∧ c ≤ 'F' then some (c.toNat - 'A'.toNat + 10)
  else none

/-- Whether a character is a digit in the given base. -/
def isDigit (base : Nat) (c : Char) : Bool :=
  (digitValue? c).any (· < base)

/-- The number that a run of digits denotes, the most significant digit first. -/
def value (base : Nat) (digits : List Char) : Nat :=
  digits.foldl (fun total c => total * base + (digitValue? c).getD 0) 0

/-- A numeral without its leading plus sign, if it has one. -/
def unsigned : List Char → List Char
  | '+' :: digits => digits
  | digits => digits

/-- The value of a numeral, one leading plus sign allowed, provided it is at most `limit`. -/
def read? (base limit : Nat) (numeral : List Char) : Option Nat :=
  let digits := unsigned numeral
  if digits ≠ [] ∧ digits.all (isDigit base) ∧ value base digits ≤ limit then
    some (value base digits)
  else
    none

/-- The largest scalar value a code may name; surrogates are not excluded. -/
def largestCodePoint : Nat := 0x10ffff

/-- The largest count a repetition may name. -/
def largestCount : Nat := UInt64.size - 1

/-- The code point that a hexadecimal numeral names. -/
def codePoint? : List Char → Option Nat :=
  read? 16 largestCodePoint

/-- The count that a decimal numeral names. -/
def count? : List Char → Option Nat :=
  read? 10 largestCount

/-- A number in decimal, without leading zeros. -/
def decimal (n : Nat) : List Char :=
  Nat.toDigits 10 n

/-- A numeral that starts with a digit has no sign to drop. -/
theorem unsigned_of_isDigit {base : Nat} {c : Char} {rest : List Char}
    (h : isDigit base c = true) : unsigned (c :: rest) = c :: rest := by
  unfold unsigned
  split
  · next heq =>
    obtain ⟨rfl, rfl⟩ := List.cons.inj heq
    simp [isDigit, digitValue?] at h
  · rfl

end PatternTree.Numeral
