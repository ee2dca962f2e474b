import PatternTree.Region
import PatternTree.Text.Quoted

/-!
# Errors

Reading stops at the first error, which names the byte position it was found at and its cause.
-/

namespace PatternTree

/-- What is wrong with a text that was rejected. -/
inductive ErrorKind where
  /-- A cause without a kind of its own, in words. -/
  | general (detail : String)
  /-- A flag letter appears for the second time. -/
  | duplicateFlag (letter : Char)
  /-- A delimiter is not closed by the expected character. -/
  | unbalancedDelimiter (closer : Char)
  /-- A quantifier has no element before it, or its bounds are malformed. -/
  | malformedQuantifier
  /-- An escape has no meaning in its region. -/
  | unrecognizedEscape (escape : List Char)
  /-- An escape stands in a region that has no special characters. -/
  | unknownRegion (region : Region)
  /-- A character code has the wrong digits. -/
  | invalidHex
  /-- A character code is beyond the last code point. -/
  | invalidCodePoint
  /-- Groups are nested too deeply. -/
  | recursionExceeded
  deriving DecidableEq, Repr

/-- An error and the byte position it was found at. -/
structure Error where
  position : Nat
  kind : ErrorKind
  deriving DecidableEq, Repr

namespace ErrorKind

/-- Something certain had to come. -/
def expected (what : String) : ErrorKind :=
  general ("expected " ++ what)

/-- A character that may not stand unescaped. -/
def unexpected (c : Char) : ErrorKind :=
  general ("unexpected character " ++ String.ofList (Text.quotedChar .standard c))

/-- The text ends where a character had to come. -/
def unexpectedEnd : ErrorKind :=
  general "unexpected end of pattern"

/-- There is text left behind the end. -/
def trailingText : ErrorKind :=
  general "end of pattern not reached"

/-- The text a cause is reported with. -/
def message : ErrorKind → String
  | general detail => "General parsing error: " ++ detail
  | duplicateFlag letter => "Duplicate flag: " ++ letter.toString
  | unbalancedDelimiter closer =>
    "Unbalanced delimiter, expected "
      ++ String.ofList (Text.quoted (Text.showFirst .standard closer))
  | malformedQuantifier => "Malformed quantifier"
  | unrecognizedEscape escape => "Unrecognized escape: " ++ String.ofList escape
  | unknownRegion region => "No special characters defined for span " ++ region.name
  | invalidHex => "Invalid hex escape"
  | invalidCodePoint => "Invalid codepoint for hex or unicode escape"
  | recursionExceeded => "Pattern too deeply nested"

end ErrorKind

/-- The text an error is reported with. -/
def Error.message (error : Error) : String :=
  "Parsing error at position " ++ toString error.position ++ ": " ++ error.kind.message

end PatternTree
