/-!
# Laying out printed trees

The two pieces of punctuation that printed trees are made of: the indentation of a line and a
list of entries between braces.
-/

namespace PatternTree.Text

/-- Two spaces for each level. -/
def indentation (depth : Nat) : List Char :=
  List.replicate (2 * depth) ' '

/-- Entries between braces, separated by commas, after a space; nothing if there are none. -/
def braced (entries : List (List Char)) : List Char :=
  if entries.isEmpty then []
  else [' ', '{', ' '] ++ [',', ' '].intercalate entries ++ [' ', '}']

@[simp] theorem braced_nil : braced [] = [] := rfl

end PatternTree.Text
