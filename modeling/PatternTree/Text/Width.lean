/-!
# The width of a text in bytes

Every position in this library is a byte offset into the UTF-8 form of a text, while the
text itself is handled as its list of characters.  `byteLength` is the bridge between the
two: it is additive over concatenation (`byteLength_append`), and it vanishes on the empty
text only (`byteLength_eq_zero`).
-/

namespace PatternTree.Text

/-- The number of bytes a text takes in UTF-8. -/
def byteLength (text : List Char) : Nat :=
  text.foldr (fun c total => c.utf8Size + total) 0

@[simp] theorem byteLength_nil : byteLength [] = 0 := rfl

@[simp] theorem byteLength_cons (c : Char) (text : List Char) :
    byteLength (c :: text) = c.utf8Size + byteLength text := rfl

@[simp] theorem byteLength_append (front back : List Char) :
    byteLength (front ++ back) = byteLength front + byteLength back := by
  induction front with
  | nil => simp
  | cons c front ih => rw [List.cons_append, byteLength_cons, byteLength_cons, ih, Nat.add_assoc]

/-- Only the empty text has no bytes. -/
@[simp] theorem byteLength_eq_zero {text : List Char} : byteLength text = 0 ↔ text = [] := by
  cases text with
  | nil => simp
  | cons c rest =>
    have := c.utf8Size_pos
    simp
    omega

/-- A text of characters of one byte each has as many bytes as characters. -/
theorem byteLength_eq_length {text : List Char} (h : ∀ c ∈ text, c.utf8Size = 1) :
    byteLength text = text.length := by
  induction text with
  | nil => rfl
  | cons c rest ih =>
    obtain ⟨hsize, hrest⟩ := List.forall_mem_cons.mp h
    rw [byteLength_cons, hsize, ih hrest, List.length_cons, Nat.add_comm]

end PatternTree.Text
