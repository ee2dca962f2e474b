import PatternTree.Text.Numeral

/-!
# The values of numerals

A run of digits denotes a number below the corresponding power of its base (`value_lt_pow`), and
reading a run of digits gives just this number wherever it is within the limit
(`read?_eq_some_iff`).
-/

namespace PatternTree.Numeral

/-- A digit of a base denotes a number below the base. -/
theorem digitValue_lt {base : Nat} {c : Char} (h : isDigit base c = true) :
    (digitValue? c).getD 0 < base := by
  unfold isDigit at h
  cases hvalue : digitValue? c with
  | none => simp [hvalue] at h
  | some n => simpa [hvalue] using h

/-- The decimal digits are those of ASCII. -/
theorem isDigit_ten (c : Char) : isDigit 10 c = c.isDigit := by
  have hascii : c.isDigit = decide ('0' ≤ c ∧ c ≤ '9') := by
    rw [Char.isDigit, Bool.decide_and]
    rfl
  rw [hascii, isDigit, digitValue?]
  by_cases hdigit : '0' ≤ c ∧ c ≤ '9'
  · have hle : c.toNat ≤ '9'.toNat := hdigit.2
    have hlt : c.toNat - '0'.toNat < 10 := by
      have hnine : '9'.toNat = 57 := rfl
      have hzero : '0'.toNat = 48 := rfl
      omega
    rw [if_pos hdigit, decide_eq_true hdigit]
    exact decide_eq_true hlt
  · rw [if_neg hdigit]
    split
    · simp [hdigit]
    · split <;> simp [hdigit]

/-- A run of digits denotes a number below the corresponding power of the base. -/
theorem value_lt_pow {base : Nat} {digits : List Char}
    (h : digits.all (isDigit base) = true) : value base digits < Nat.pow base digits.length := by
  have hstep : ∀ (digits : List Char) (total bound : Nat),
      digits.all (isDigit base) = true → total < bound →
      digits.foldl (fun total c => total * base + (digitValue? c).getD 0) total
        < bound * Nat.pow base digits.length := by
    intro digits
    induction digits with
    | nil =>
        intro total bound _ hlt
        change total < bound * 1
        rwa [Nat.mul_one]
    | cons c rest ih =>
        intro total bound hall hlt
        obtain ⟨hc, hrest⟩ : isDigit base c = true ∧ rest.all (isDigit base) = true := by
          simpa using hall
        have hdigit := digitValue_lt hc
        have hnext : total * base + (digitValue? c).getD 0 < bound * base := by
          calc total * base + (digitValue? c).getD 0
              < total * base + base := Nat.add_lt_add_left hdigit _
            _ = (total + 1) * base := (Nat.succ_mul total base).symm
            _ ≤ bound * base := Nat.mul_le_mul_right base hlt
        calc (c :: rest).foldl (fun total c => total * base + (digitValue? c).getD 0) total
            < bound * base * Nat.pow base rest.length := ih _ _ hrest hnext
          _ = bound * (Nat.pow base rest.length * base) := by
            rw [Nat.mul_assoc, Nat.mul_comm base]
  have hvalue := hstep digits 0 1 h Nat.zero_lt_one
  rw [Nat.one_mul] at hvalue
  exact hvalue

/-- Reading a run of digits gives its value, provided that the limit allows it. -/
theorem read?_eq_some_iff {base limit n : Nat} {digits : List Char} (hne : digits ≠ [])
    (hall : digits.all (isDigit base) = true) :
    read? base limit digits = some n ↔ n = value base digits ∧ value base digits ≤ limit := by
  have hunsigned : unsigned digits = digits := by
    cases digits with
    | nil => exact absurd rfl hne
    | cons c rest =>
        have hc : isDigit base c = true := by
          simp only [List.all_cons, Bool.and_eq_true] at hall
          exact hall.1
        exact unsigned_of_isDigit hc
  simp only [read?, hunsigned, hall]
  by_cases hlimit : value base digits ≤ limit
  · simp [hne, hlimit, eq_comm]
  · simp [hlimit]

end PatternTree.Numeral
