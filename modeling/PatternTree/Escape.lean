/-!
# Escapes

What may follow a backslash in every region: the letters of the fixed escapes, and the letters
that introduce the code of a character.
-/

namespace PatternTree.Escape

/-- The character that a fixed escape denotes. -/
def fixed? : Char → Option Char
  | '\\' => some '\\'
  | '/' => some '/'
  | 'n' => some '\n'
  | 'r' => some '\r'
  | 't' => some '\t'
  | '0' => some '\x00'
  | _ => none

/-- The letters that introduce a character code. -/
def codeLetters : List Char := ['u', 'x']

/-- The largest number of hexadecimal digits in a braced character code. -/
def longestBracedCode : Nat := 6

end PatternTree.Escape
