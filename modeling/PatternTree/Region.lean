/-!
# Regions of a pattern

A region decides which characters may follow a backslash to stand for themselves.  A pattern
literal is one `pattern` region; bracket expressions and the insides of escapes are regions of
their own.
-/

namespace PatternTree

/-- The context a stretch of a pattern literal is read in. -/
inductive Region where
  /-- Between the slashes, outside bracket expressions. -/
  | pattern
  /-- Inside a bracket expression. -/
  | characterClass
  /-- Between a backslash and the end of its escape. -/
  | escape
  deriving DecidableEq, Repr

namespace Region

def all : List Region :=
  [pattern, characterClass, escape]

/-- The name a region is printed by. -/
def name : Region → String
  | pattern => "Pattern"
  | characterClass => "CharacterClass"
  | escape => "Escape"

def ofName? (name : String) : Option Region :=
  all.find? (·.name == name)

/-- The characters that a backslash makes literal.  Escapes do not nest, so the escape region
has no such set. -/
def specials? : Region → Option (List Char)
  | pattern => some
      ['*', '+', '?', '{', '}', '[', ']', '(', ')', '.', '^', '$', '|', '\n', '\\', '<', '>']
  | characterClass => some [']', '\\', '-', '^']
  | escape => none

theorem mem_all (region : Region) : region ∈ all := by
  cases region <;> simp [all]

end Region

end PatternTree
