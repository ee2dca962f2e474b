import PatternTree.Production.Escape

/-!
# Characters and character sets

The productions that a pattern and a bracket expression share: a letter escaped into a keyword,
a set of characters, and a single character, plain or escaped.
-/

namespace PatternTree.Production

/-! ## Letters with a meaning after a backslash -/

def wordBoundaryLetters : List Char := ['b', 'B']

def gapLetters : List Char := ['g']

def digitLetters : List Char := ['d', 'D']

def spaceLetters : List Char := ['s', 'S']

def wordLetters : List Char := ['w', 'W']

/-- The letters of all character sets. -/
def setLetters : List Char := digitLetters ++ spaceLetters ++ wordLetters

/-! ## Productions -/

/-- A backslash and a letter that names the node.  A kind of node that can be negated is
negated by an upper-case letter. -/
def escapedKeyword (kind : NodeKind) (letters : List Char) (scanner : Scanner) :
    Attempt (Node × Scanner) := do
  let (backslash, inside) ← expect .punctuator (.char '\\') "'\\'" scanner
  let begun ← record (.new kind scanner.position) .escapeToken (.token backslash)
  let (letter, after) ← expect .keyword (.oneOf letters) "escape letter" inside
  let noted ←
    if AttributeName.negate ∈ kind.attributeNames then
      note begun .negate (.bool (letter.text.all Char.isUpper))
    else
      pure begun
  let filled ← record noted .value (.token letter)
  return complete filled after

/-- A node that consists of a single keyword. -/
def sigil (kind : NodeKind) (terminal : Terminal) (what : String) (scanner : Scanner) :
    Attempt (Node × Scanner) := do
  let (token, after) ← expect .keyword terminal what scanner
  let filled ← record (.new kind scanner.position) .sigilToken (.token token)
  return complete filled after

/-- An escaped character set. -/
def escapedSet (scanner : Scanner) : Attempt (Node × Scanner) :=
  if seesEscaped digitLetters scanner then
    escapedKeyword .digitCharacterSet digitLetters scanner
  else if seesEscaped spaceLetters scanner then
    escapedKeyword .spaceCharacterSet spaceLetters scanner
  else
    escapedKeyword .wordCharacterSet wordLetters scanner

/-- A single character: an escape sequence, or any plain character. -/
def character (scanner : Scanner) : Attempt (Node × Scanner) :=
  if scanner.sees (.char '\\') then do
    let (escape, after) ← escapeSequence scanner
    let filled ← record (.new .character scanner.position) .escape (.node escape)
    return complete filled after
  else
    match scanner.take? .literal .plain with
    | some (value, after) => do
      let filled ← record (.new .character scanner.position) .value (.token value)
      return complete filled after
    | none =>
      match scanner.next? with
      | some c => reject scanner.position (.unexpected c)
      | none => reject scanner.position .unexpectedEnd

end PatternTree.Production
