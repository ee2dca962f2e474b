import PatternTree.Text.Unprintable
import PatternTree.Text.GraphemeExtender

/-!
# Texts between quotation marks

Printed trees and error messages show source text between quotation marks.  A few characters
have a two-character form (`shorthand?`), characters that cannot be shown are spelled by their
number (`numbered`), and all others stand for themselves.  Which characters cannot be shown is
a matter of two tables, gathered in a `Glyphs` record; `Glyphs.standard` holds the tables in
use.
-/

namespace PatternTree.Text

/-- What has to be known about characters beyond ASCII in order to show them. -/
structure Glyphs where
  /-- The character has no printed form. -/
  unprintable : Char → Bool
  /-- The character attaches to the one before it. -/
  extender : Char → Bool

/-- The tables of unprintable characters and of grapheme extenders. -/
def Glyphs.standard : Glyphs where
  unprintable := Text.unprintable.contains
  extender := graphemeExtender.contains

/-- The character that stands for `c` after a backslash. -/
def shorthand? (c : Char) : Option Char :=
  if c = '\x00' then some '0'
  else if c = '\t' then some 't'
  else if c = '\r' then some 'r'
  else if c = '\n' then some 'n'
  else if c = '\x27' ∨ c = '\x22' ∨ c = '\\' then some c
  else none

/-- A character spelled by its scalar value, in lower-case hexadecimal without padding. -/
def numbered (c : Char) : List Char :=
  '\\' :: 'u' :: '{' :: (Nat.toDigits 16 c.toNat ++ ['}'])

/-- The control characters of ASCII. -/
def isControl (c : Char) : Bool :=
  c.toNat < 0x20 || c.toNat == 0x7f

/-- The shown form of a character, spelled by its number where `hidden` holds. -/
def shown (hidden : Char → Bool) (c : Char) : List Char :=
  match shorthand? c with
  | some s => ['\\', s]
  | none => if isControl c || hidden c then numbered c else [c]

/-- The shown form of a character that follows another one. -/
def showInner (glyphs : Glyphs) : Char → List Char :=
  shown glyphs.unprintable

/-- The shown form of a character right after the opening quotation mark. -/
def showFirst (glyphs : Glyphs) : Char → List Char :=
  shown fun c => glyphs.unprintable c || glyphs.extender c

/-- The shown form of a text, without its quotation marks. -/
def showText (glyphs : Glyphs) : List Char → List Char
  | [] => []
  | c :: rest => showFirst glyphs c ++ rest.flatMap (showInner glyphs)

/-- A shown text between single quotation marks. -/
def quoted (shownText : List Char) : List Char :=
  '\x27' :: (shownText ++ ['\x27'])

/-- A single character between quotation marks.  Unlike in a text, the other sort of quotation mark
stands for itself. -/
def quotedChar (glyphs : Glyphs) (c : Char) : List Char :=
  quoted (if c = '\x22' then [c] else showFirst glyphs c)

@[simp] theorem showText_nil (glyphs : Glyphs) : showText glyphs [] = [] := rfl

@[simp] theorem showText_singleton (glyphs : Glyphs) (c : Char) :
    showText glyphs [c] = showFirst glyphs c := by
  simp [showText]

end PatternTree.Text
