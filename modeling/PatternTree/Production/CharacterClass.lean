import PatternTree.Production.Character

/-!
# Bracket expressions

A bracket expression lists characters, ranges of characters, character sets and gaps.  Between
two characters a hyphen makes a range; everywhere else it stands for itself.
-/

namespace PatternTree.Production

/-- Whether a hyphen comes next that has a character behind it to end a range. -/
def seesRange (scanner : Scanner) : Bool :=
  match scanner.rest with
  | '-' :: '\\' :: c :: _ => !(setLetters.contains c || gapLetters.contains c)
  | '-' :: c :: _ => c != ']'
  | _ => false

/-- A range whose lower end has been read. -/
def classRange (lower : Node) (scanner : Scanner) : Attempt (Node × Scanner) := do
  let begun ← record (.new .characterClassRange lower.span.start) .min (.node lower)
  let (hyphen, behind) ← expect .punctuator (.char '-') "'-'" scanner
  let joined ← record begun .sigilToken (.token hyphen)
  let (upper, after) ← character behind
  let filled ← record joined .max (.node upper)
  return complete filled after

/-- A character set, a gap or a character. -/
def classAtom (scanner : Scanner) : Attempt (Node × Scanner) :=
  if seesEscaped setLetters scanner then escapedSet scanner
  else if seesEscaped gapLetters scanner then escapedKeyword .gap gapLetters scanner
  else character scanner

/-- An element of a bracket expression.  Only a character can begin a range. -/
def classElement (scanner : Scanner) : Attempt (Node × Scanner) := do
  let (atom, after) ← classAtom scanner
  if atom.kind = .character ∧ seesRange after then
    classRange atom after
  else
    return (atom, after)

/-- The next element of a bracket expression, unless it ends here. -/
def nextClassElement : Step := fun draft scanner =>
  if scanner.atEnd || scanner.sees (.char ']') then
    .ok none
  else do
    let (element, after) ← classElement scanner
    let extended ← record draft .elements (.node element)
    return some (extended, after)

/-- The mark that negates a bracket expression, if it has one. -/
def negation (scanner : Scanner) : Option Token × Scanner :=
  match scanner.take? .keyword (.char '^') with
  | some (mark, after) => (some mark, after)
  | none => (none, scanner)

/-- A bracket expression. -/
def characterClass (scanner : Scanner) : Attempt (Node × Scanner) :=
  match scanner.open? .punctuator (.char '[') ']' (some .characterClass) with
  | none => reject scanner.position (.expected "'['")
  | some (opening, inside) => do
    let opened ← record (.new .characterClass scanner.position) .openToken (.token opening)
    let (mark, listed) := negation inside
    let noted ← note opened .negate (.bool mark.isSome)
    let marked ← record noted .negateToken (.ofToken? mark)
    let (filled, behind) ← collect nextClassElement marked listed
    let (closing, after) ← expectClosing ']' behind
    let closed ← record filled .closeToken (.token closing)
    return complete closed after

end PatternTree.Production
