import PatternTree.Escape
import PatternTree.Production.Basic

/-!
# Escape sequences

A backslash followed by what it makes of it: a fixed escape, a special character of the
surrounding region, or a character code.  The cooked value of an escape is recorded as an
attribute: the character that it denotes, or the number of the code in decimal.
-/

namespace PatternTree.Production

/-- A fixed number of digits without braces.  The digits are returned next to the draft that
records them. -/
def blockDigits (terminal : Terminal) (draft : Builder) (scanner : Scanner) :
    Attempt (List Char × Builder × Scanner) :=
  match scanner.take? .literal terminal with
  | none => reject scanner.position .invalidHex
  | some (digits, after) => do
    let opened ← record draft .openToken .null
    let filled ← record opened .value (.token digits)
    let closed ← record filled .closeToken .null
    return (digits.text, closed, after)

/-- The digits after an opening brace, and the closing brace.  All digits that come are taken
before they are counted. -/
def bracedDigits (opening : Token) (draft : Builder) (scanner : Scanner) :
    Attempt (List Char × Builder × Scanner) := do
  let opened ← record draft .openToken (.token opening)
  match scanner.take? .literal .hexRun with
  | none => reject scanner.position .invalidHex
  | some (digits, behind) =>
    if Escape.longestBracedCode < digits.text.length then
      reject behind.position .invalidHex
    else
      match behind.take? .punctuator (.char '}') with
      | none => reject behind.position .invalidHex
      | some (closing, after) => do
        let filled ← record opened .value (.token digits)
        let closed ← record filled .closeToken (.token closing)
        return (digits.text, closed, after)

/-- The digits after the letter of a character code. -/
def codeDigits (letter : Token) (draft : Builder) (scanner : Scanner) :
    Attempt (List Char × Builder × Scanner) :=
  if letter.text = ['u'] then
    match scanner.take? .punctuator (.char '{') with
    | some (opening, inside) => bracedDigits opening draft inside
    | none => blockDigits .hexQuad draft scanner
  else
    blockDigits .hexPair draft scanner

/-- The code of a character after a backslash, in one of three spellings, with its value. -/
def escapeCode (scanner : Scanner) : Attempt ((Node × Nat) × Scanner) := do
  let (letter, after) ← expect .keyword (.oneOf Escape.codeLetters) "'u' or 'x'" scanner
  let begun ← record (.new .escapeCode scanner.position) .type (.token letter)
  let (digits, spelled, behind) ← codeDigits letter begun after
  match Numeral.codePoint? digits with
  | none => reject scanner.position .invalidCodePoint
  | some code =>
    let noted ← note spelled .cooked (.text (Numeral.decimal code))
    let (node, last) := complete noted behind
    return ((node, code), last)

/-- An escape has no meaning where it stands; the scanner is behind its backslash. -/
def unrecognized (scanner : Scanner) : ErrorKind :=
  .unrecognizedEscape ('\\' :: scanner.next?.toList)

/-- The escape of a single character, in a sequence that began at `start`.  What it denotes is
returned next to the draft that records it. -/
def singleEscape (start : Nat) (c cooked : Char) (draft : Builder) (scanner : Scanner) :
    Attempt (List Char × Builder × Scanner) :=
  match scanner.leave? .keyword (.char c) .escape with
  | none => reject start (unrecognized scanner)
  | some (token, after) => do
    let coded ← record draft .code (.token token)
    return ([cooked], coded, after)

/-- What follows the backslash of an escape sequence that began at `start` in region `region`.
A fixed escape is tried first, then a special character of the region, then a code. -/
def escapeBody (start : Nat) (region : Region) (draft : Builder) (scanner : Scanner) :
    Attempt (List Char × Builder × Scanner) :=
  match scanner.next?.bind fun c => (Escape.fixed? c).map fun cooked => (c, cooked) with
  | some (c, cooked) => singleEscape start c cooked draft scanner
  | none =>
    match region.specials? with
    | none => reject scanner.position (.unknownRegion region)
    | some specials =>
      match scanner.next? with
      | none => reject start (unrecognized scanner)
      | some c =>
        if c ∈ specials then
          singleEscape start c c draft scanner
        else if c ∈ Escape.codeLetters then do
          let ((node, code), after) ← escapeCode scanner
          let coded ← record draft .code (.node node)
          return (Numeral.decimal code, coded, after.leave .escape)
        else
          reject start (unrecognized scanner)

/-- A backslash and what it escapes. -/
def escapeSequence (scanner : Scanner) : Attempt (Node × Scanner) :=
  match scanner.enter? .punctuator (.char '\\') .escape with
  | none => reject scanner.position (.expected "'\\'")
  | some (backslash, inside) => do
    let begun ← record (.new .escapeSequence scanner.position) .escape (.token backslash)
    let (cooked, coded, after) ← escapeBody scanner.position scanner.region begun inside
    let noted ← note coded .cooked (.text cooked)
    return complete noted after

end PatternTree.Production
