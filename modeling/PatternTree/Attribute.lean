import PatternTree.Text.Numeral
import PatternTree.Text.Quoted

/-!
# Attributes

An attribute is a fact that was worked out while a node was read: a truth value, a number, a
text, or the explicit statement that there is none.
-/

namespace PatternTree

/-- The value of an attribute. -/
inductive Attribute where
  | bool (value : Bool)
  | integer (value : Nat)
  | text (value : List Char)
  /-- Explicitly not set. -/
  | absent
  deriving DecidableEq, Repr

namespace Attribute

def bool? : Attribute → Option Bool
  | bool value => some value
  | _ => none

def integer? : Attribute → Option Nat
  | integer value => some value
  | _ => none

def text? : Attribute → Option (List Char)
  | text value => some value
  | _ => none

def isAbsent : Attribute → Bool
  | absent => true
  | _ => false

/-- The bound of a repetition as an attribute: zero is not set. -/
def ofBound : Nat → Attribute
  | 0 => absent
  | n + 1 => integer (n + 1)

/-- The printed form of an attribute. -/
def print (glyphs : Text.Glyphs) : Attribute → List Char
  | bool true => "true".toList
  | bool false => "false".toList
  | integer value => Numeral.decimal value
  | text value => Text.quoted (Text.showText glyphs value)
  | absent => "null".toList

end Attribute

end PatternTree
