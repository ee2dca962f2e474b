import PatternTree.Text.Width
import PatternTree.Token

/-!
# Slices of a text

A span names bytes, a text is a list of characters.  `slice?` cuts a span out of a text; there is
no slice where the span ends within a character or behind the text.  What stands between two
other parts is the slice at its bytes (`slice?_append`).
-/

namespace PatternTree.Text

/-- The text behind a number of bytes. -/
def dropBytes? : Nat → List Char → Option (List Char)
  | 0, text => some text
  | _ + 1, [] => none
  | count + 1, c :: rest =>
    if c.utf8Size ≤ count + 1 then dropBytes? (count + 1 - c.utf8Size) rest else none
termination_by structural _ text => text

/-- The text within a number of bytes. -/
def takeBytes? : Nat → List Char → Option (List Char)
  | 0, _ => some []
  | _ + 1, [] => none
  | count + 1, c :: rest =>
    if c.utf8Size ≤ count + 1 then (takeBytes? (count + 1 - c.utf8Size) rest).map (c :: ·)
    else none
termination_by structural _ text => text

/-- The part of a text that a span names. -/
def slice? (text : List Char) (span : Span) : Option (List Char) :=
  (dropBytes? span.start text).bind (takeBytes? (span.stop - span.start))

/-- The bytes of a text that begins with a character are those of the character and of the
rest. -/
theorem byteLength_cons_eq_succ (c : Char) (text : List Char) :
    ∃ count, byteLength (c :: text) = count + 1 ∧ c.utf8Size ≤ count + 1 ∧
      count + 1 - c.utf8Size = byteLength text := by
  have hpos := c.utf8Size_pos
  refine ⟨c.utf8Size + byteLength text - 1, ?_, ?_, ?_⟩
  · rw [byteLength_cons]
    omega
  · omega
  · omega

theorem dropBytes?_append (front rest : List Char) :
    dropBytes? (byteLength front) (front ++ rest) = some rest := by
  induction front with
  | nil => simp [dropBytes?]
  | cons c front ih =>
      obtain ⟨count, hcount, hle, hrest⟩ := byteLength_cons_eq_succ c front
      rw [hcount, List.cons_append, dropBytes?, if_pos hle, hrest, ih]

theorem takeBytes?_append (front rest : List Char) :
    takeBytes? (byteLength front) (front ++ rest) = some front := by
  induction front with
  | nil => simp [takeBytes?]
  | cons c front ih =>
      obtain ⟨count, hcount, hle, hrest⟩ := byteLength_cons_eq_succ c front
      rw [hcount, List.cons_append, takeBytes?, if_pos hle, hrest, ih]
      rfl

/-- What stands between two other parts of a text is the slice at its bytes. -/
theorem slice?_append (front middle back : List Char) :
    slice? (front ++ middle ++ back)
      ⟨byteLength front, byteLength front + byteLength middle⟩ = some middle := by
  rw [slice?, List.append_assoc, dropBytes?_append, Nat.add_sub_cancel_left]
  exact takeBytes?_append middle back

/-- Bytes in the middle of a character name no slice. -/
example : slice? ['a', 'é', 'b'] ⟨1, 3⟩ = some ['é'] ∧ slice? ['a', 'é', 'b'] ⟨1, 2⟩ = none := by
  decide

end PatternTree.Text
