import PatternTree.Production.CharacterClass
import PatternTree.Production.Quantifier

/-!
# Alternations

The inside of a pattern or a group is an alternation: alternatives with bars between them, each
a sequence of elements.  Elements may be groups, which hold alternations again.  The depth to
which groups may nest is limited, so an alternation is read by recursion on the number of
levels that are left.
-/

namespace PatternTree.Production

/-- Reads an alternation as children of a draft. -/
abbrev AlternationReader := Builder → Scanner → Attempt (Builder × Scanner)

/-- A group with the given opener.  `inner` reads what is inside; without it the groups are
nested too deeply. -/
def group (inner : Option AlternationReader) (kind : NodeKind) (opener : String)
    (scanner : Scanner) : Attempt (Node × Scanner) :=
  match inner with
  | none => reject scanner.position .recursionExceeded
  | some alternation =>
    match scanner.open? .punctuator (.word opener.toList) ')' none with
    | none => reject scanner.position (.expected ("'" ++ opener ++ "'"))
    | some (opening, inside) => do
      let opened ← record (.new kind scanner.position) .openToken (.token opening)
      let (filled, behind) ← alternation opened inside
      let (closing, after) ← expectClosing ')' behind
      let closed ← record filled .closeToken (.token closing)
      return complete closed after

/-- An element without its quantifier. -/
def atom (inner : Option AlternationReader) (scanner : Scanner) : Attempt (Node × Scanner) :=
  if scanner.sees (.char '[') then
    characterClass scanner
  else if scanner.sees (.word "(?:".toList) then
    group inner .group "(?:" scanner
  else if scanner.sees (.char '(') then
    group inner .capturingGroup "(" scanner
  else if scanner.sees (.char '^') then
    sigil .startOfInputAssertion (.char '^') "'^'" scanner
  else if scanner.sees (.char '$') then
    sigil .endOfInputAssertion (.char '$') "'$'" scanner
  else if seesEscaped wordBoundaryLetters scanner then
    escapedKeyword .wordBoundaryAssertion wordBoundaryLetters scanner
  else if seesEscaped gapLetters scanner then
    escapedKeyword .gap gapLetters scanner
  else if scanner.sees (.char '.') then
    sigil .anyCharacterSet (.char '.') "'.'" scanner
  else if seesEscaped setLetters scanner then
    escapedSet scanner
  else
    character scanner

/-- Whether bounds between braces begin here: an opening brace with a digit behind it. -/
def seesBounds (scanner : Scanner) : Bool :=
  match scanner.rest with
  | '{' :: c :: _ => Numeral.isDigit 10 c
  | _ => false

/-- An element with its quantifier, if it has one.  Neither an element nor a second quantifier
may begin with a sigil; a brace begins a second quantifier only if a digit follows it. -/
def element (inner : Option AlternationReader) (scanner : Scanner) : Attempt (Node × Scanner) :=
  if scanner.sees (.oneOf quantifierSigils) then
    reject scanner.position .malformedQuantifier
  else do
    let (operand, behind) ← atom inner scanner
    if behind.sees (.oneOf quantifierStarts) then
      let (quantified, after) ← quantifier operand behind
      if seesBounds after then
        reject after.position .malformedQuantifier
      else
        return (quantified, after)
    else
      return (operand, behind)

/-- Whether an alternative ends here: at a bar, a parenthesis or a closer that is awaited. -/
def alternativeEnds (scanner : Scanner) : Bool :=
  match scanner.next? with
  | none => true
  | some c => c == '|' || c == ')' || scanner.awaits c

/-- The next element of an alternative, unless it ends here. -/
def nextElement (inner : Option AlternationReader) : Step := fun draft scanner =>
  if alternativeEnds scanner then
    .ok none
  else do
    let (node, after) ← element inner scanner
    let extended ← record draft .elements (.node node)
    return some (extended, after)

/-- A sequence of elements, possibly empty. -/
def alternative (inner : Option AlternationReader) (scanner : Scanner) :
    Attempt (Node × Scanner) := do
  let (filled, after) ← collect (nextElement inner) (.new .alternative scanner.position) scanner
  return complete filled after

/-- A bar and the alternative behind it, unless there is none. -/
def nextAlternative (inner : Option AlternationReader) : Step := fun draft scanner =>
  match scanner.take? .punctuator (.char '|') with
  | none => .ok none
  | some (bar, behind) => do
    let separated ← record draft .separatorTokens (.token bar)
    let (node, after) ← alternative inner behind
    let extended ← record separated .alternatives (.node node)
    return some (extended, after)

/-- Alternatives with bars between them. -/
def alternatives (inner : Option AlternationReader) : AlternationReader := fun draft scanner => do
  let (first, behind) ← alternative inner scanner
  let begun ← record draft .alternatives (.node first)
  collect (nextAlternative inner) begun behind

/-- Alternatives in which groups may nest to the given number of levels. -/
def alternation : Nat → AlternationReader
  | 0 => alternatives none
  | levels + 1 => alternatives (some (alternation levels))

end PatternTree.Production
