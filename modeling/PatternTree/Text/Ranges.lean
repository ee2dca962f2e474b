/-!
# Tables of character ranges

A property of characters that a standard lists rather than defines is kept as a table of
inclusive ranges of scalar values in ascending order.  The order lets a search stop at the
first range beyond the character; `Ranges.contains_iff` says that nothing is missed by that.
-/

namespace PatternTree.Text

/-- Whether each range is in order and ends before the next one begins. -/
def ascending : List (Nat × Nat) → Bool
  | [] => true
  | [(low, high)] => low ≤ high
  | (low, high) :: (next, last) :: rest =>
    low ≤ high && high < next && ascending ((next, last) :: rest)

/-- A set of characters given by inclusive ranges of scalar values. -/
structure Ranges where
  bounds : List (Nat × Nat)
  /-- The ranges do not overlap and come in order. -/
  isAscending : ascending bounds = true

/-- Looks for a number in ascending ranges. -/
def search (n : Nat) : List (Nat × Nat) → Bool
  | [] => false
  | (low, high) :: rest => low ≤ n && (n ≤ high || search n rest)

/-- Whether a character lies in one of the ranges. -/
def Ranges.contains (table : Ranges) (c : Char) : Bool :=
  search c.toNat table.bounds

/-- Dropping the first range leaves the others in order. -/
theorem ascending_tail {r : Nat × Nat} {rest : List (Nat × Nat)}
    (h : ascending (r :: rest) = true) : ascending rest = true := by
  cases rest with
  | nil => rfl
  | cons s rest =>
    simp only [ascending, Bool.and_eq_true] at h
    exact h.2

/-- In ascending ranges no later range begins before the first one does. -/
theorem low_le_of_mem {r s : Nat × Nat} {rest : List (Nat × Nat)}
    (h : ascending (r :: rest) = true) (hs : s ∈ rest) : r.1 ≤ s.1 := by
  induction rest generalizing r with
  | nil => simp at hs
  | cons q rest ih =>
    have hfirst : r.1 ≤ r.2 ∧ r.2 < q.1 := by
      simp only [ascending, Bool.and_eq_true, decide_eq_true_eq] at h
      exact h.1
    have htail := ascending_tail h
    rcases List.mem_cons.mp hs with rfl | hs
    · omega
    · have hq := ih htail hs
      omega

/-- The search finds a number just if it lies in one of the ranges. -/
theorem search_iff {n : Nat} {bounds : List (Nat × Nat)} (h : ascending bounds = true) :
    search n bounds = true ↔ ∃ r ∈ bounds, r.1 ≤ n ∧ n ≤ r.2 := by
  induction bounds with
  | nil => simp [search]
  | cons r rest ih =>
    have hrest := ih (ascending_tail h)
    simp only [search, Bool.and_eq_true, Bool.or_eq_true, decide_eq_true_eq, hrest,
      List.mem_cons, exists_eq_or_imp]
    constructor
    · rintro ⟨hlow, hhigh | hlater⟩
      · exact Or.inl ⟨hlow, hhigh⟩
      · exact Or.inr hlater
    · rintro (⟨hlow, hhigh⟩ | ⟨s, hs, hlow, hhigh⟩)
      · exact ⟨hlow, Or.inl hhigh⟩
      · have hle := low_le_of_mem h hs
        exact ⟨by omega, Or.inr ⟨s, hs, hlow, hhigh⟩⟩

/-- The characters of a table are those of its ranges. -/
theorem Ranges.contains_iff {table : Ranges} {c : Char} :
    table.contains c = true ↔ ∃ r ∈ table.bounds, r.1 ≤ c.toNat ∧ c.toNat ≤ r.2 :=
  search_iff table.isAscending

end PatternTree.Text
