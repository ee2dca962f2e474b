import PatternTree.Parse

/-!
# Productions as scripts of calls

A production calls others, and these call it again in the end: an alternative is read element by
element, and an element may be a group of alternatives.  The productions of this library are defined
by recursion on the levels of groups that are left and on a bound for every repetition.  This file
writes down what each of them does between its calls, and leaves open what the calls are answered:
a `Script` either is done or makes a call and goes on with the answer.  A repetition is a task of
its own that calls itself behind every entry, and the number of open groups is counted up and down
as they are entered and left, so neither levels nor bounds occur in a script.

* `Task`, `Task.run` — productions with their arguments, and what they give;
* `Task.script`, `literalScript` — what they do between calls;
* `Script.answer` — the outcome of a script whose calls are answered in a given way;
* `Script.Asks` — which calls are made when productions answer them.
-/

namespace PatternTree

/-- A scanner and the number of groups that are open there. -/
structure Place where
  scanner : Scanner
  depth : Nat
  deriving DecidableEq, Repr

/-- The repetitions inside productions, by what is repeated. -/
inductive Loop where
  /-- Bars with an alternative behind each. -/
  | alternatives
  /-- The elements of an alternative. -/
  | elements
  /-- The digits of a number. -/
  | digits
  /-- The elements of a bracket expression. -/
  | classElements
  deriving DecidableEq, Repr

/-- A production with the arguments it is called with. -/
inductive Task where
  | flags
  | alternatives (draft : Builder)
  | alternative
  | element
  | atom
  | group (kind : NodeKind) (opener : String)
  | quantifier (element : Node)
  | bracedBounds (draft : Builder)
  | unsignedInteger
  | digit
  | characterClass
  | classElement
  | classRange (lower : Node)
  | character
  | escapedKeyword (kind : NodeKind) (letters : List Char)
  | sigil (kind : NodeKind) (terminal : Terminal) (what : String)
  | escapedSet
  | escapeSequence
  | escapeCode
  | blockDigits (terminal : Terminal) (draft : Builder)
  /-- What is left of a repetition that has filled a draft so far. -/
  | repeated (loop : Loop) (draft : Builder)

/-- What a production gives, next to where it ends. -/
@[reducible] def Task.Result : Task → Type
  | alternatives _ | repeated _ _ => Builder
  | bracedBounds _ => Bounds × Builder
  | unsignedInteger => Option (Node × Nat)
  | digit => Option Node
  | escapeCode => Node × Nat
  | blockDigits _ _ => List Char × Builder
  | _ => Node

/-! ## What productions give -/

namespace Production

variable {α β : Type}

/-- What reads the inside of a group that is opened where the given number of groups are open. -/
def readerAt (depth : Nat) : Option AlternationReader :=
  match deepestNesting - depth with
  | 0 => none
  | levels + 1 => some (alternation levels)

/-- The step of a repetition where the given number of groups are open. -/
def stepAt (depth : Nat) : Loop → Step
  | .alternatives => nextAlternative (readerAt depth)
  | .elements => nextElement (readerAt depth)
  | .digits => nextDigit
  | .classElements => nextClassElement

/-- A result that may be missing, next to the scanner behind it. -/
def optionally (scanner : Scanner) : Option (α × Scanner) → Option α × Scanner
  | none => (none, scanner)
  | some (result, after) => (some result, after)

/-- A result that consists of two parts, next to the scanner behind it. -/
def paired (taken : α × β × Scanner) : (α × β) × Scanner :=
  ((taken.1, taken.2.1), taken.2.2)

end Production

open Production

/-- What a production gives where the given number of groups are open. -/
def Task.run : (task : Task) → Nat → Scanner → Attempt (task.Result × Scanner)
  | flags, _, scanner => Production.flags scanner
  | alternatives draft, depth, scanner => Production.alternatives (readerAt depth) draft scanner
  | alternative, depth, scanner => Production.alternative (readerAt depth) scanner
  | element, depth, scanner => Production.element (readerAt depth) scanner
  | atom, depth, scanner => Production.atom (readerAt depth) scanner
  | group kind opener, depth, scanner => Production.group (readerAt depth) kind opener scanner
  | quantifier operand, _, scanner => Production.quantifier operand scanner
  | bracedBounds draft, _, scanner => (Production.bracedBounds draft scanner).map paired
  | unsignedInteger, _, scanner => (Production.unsignedInteger scanner).map (optionally scanner)
  | digit, _, scanner => (Production.digit scanner).map (optionally scanner)
  | characterClass, _, scanner => Production.characterClass scanner
  | classElement, _, scanner => Production.classElement scanner
  | classRange lower, _, scanner => Production.classRange lower scanner
  | character, _, scanner => Production.character scanner
  | escapedKeyword kind letters, _, scanner => Production.escapedKeyword kind letters scanner
  | sigil kind terminal what, _, scanner => Production.sigil kind terminal what scanner
  | escapedSet, _, scanner => Production.escapedSet scanner
  | escapeSequence, _, scanner => Production.escapeSequence scanner
  | escapeCode, _, scanner => Production.escapeCode scanner
  | blockDigits terminal draft, _, scanner =>
    (Production.blockDigits terminal draft scanner).map paired
  | repeated loop draft, depth, scanner => collect (stepAt depth loop) draft scanner

/-- A result at the scanner behind it, with the given number of groups open. -/
def settle {α : Type} (depth : Nat) (taken : α × Scanner) : α × Place :=
  (taken.1, ⟨taken.2, depth⟩)

/-- The production at work at a place: as many groups are open behind it as before. -/
def Task.perform (task : Task) (place : Place) : Attempt (task.Result × Place) :=
  (task.run place.depth place.scanner).map (settle place.depth)

/-! ## Scripts -/

/-- A way to answer calls. -/
abbrev Handler := (task : Task) → Place → Attempt (task.Result × Place)

/-- What is left to do: nothing, or a call and what is to be done with its answer. -/
inductive Script (α : Type) where
  | done (attempt : Attempt α)
  | call (task : Task) (place : Place) (next : task.Result × Place → Script α)

namespace Script

variable {α β : Type}

/-- One script after the other. -/
def bind : Script α → (α → Script β) → Script β
  | done (.ok a), next => next a
  | done (.error failure), _ => done (.error failure)
  | call task place further, next => call task place fun answer => (further answer).bind next

instance : Monad Script where
  pure a := done (.ok a)
  bind := bind

instance : MonadLift Attempt Script where
  monadLift := done

/-- A call whose answer is the outcome. -/
def ask (task : Task) (place : Place) : Script (task.Result × Place) :=
  call task place fun answer => done (.ok answer)

/-- The outcome of a script whose calls are answered in the given way. -/
def answer (handler : Handler) : Script α → Attempt α
  | done attempt => attempt
  | call task place next => handler task place >>= fun answer => (next answer).answer handler

/-- The calls that a script makes when each of them is answered by its production. -/
inductive Asks {α : Type} : Script α → Task → Place → Prop
  | here {task : Task} {place : Place} {next : task.Result × Place → Script α} :
      Asks (call task place next) task place
  | later {task called : Task} {place at' : Place} {next : task.Result × Place → Script α}
      {answer : task.Result × Place} (answered : task.perform place = .ok answer)
      (further : Asks (next answer) called at') : Asks (call task place next) called at'

end Script

/-! ## What productions do between calls -/

namespace Place

/-- The node of a draft that is complete here. -/
def complete (place : Place) (draft : Builder) : Node × Place :=
  (draft.finish place.scanner.position, place)

end Place

namespace Production

open Script

/-- Reads one entry of a repetition, unless there is none. -/
def stepScript : Loop → Builder → Place → Script (Option (Builder × Place))
  | .alternatives, draft, place =>
    match place.scanner.take? .punctuator (.char '|') with
    | none => return none
    | some (bar, behind) => do
      let separated ← record draft .separatorTokens (.token bar)
      let (node, after) ← ask .alternative ⟨behind, place.depth⟩
      let extended ← record separated .alternatives (.node node)
      return some (extended, after)
  | .elements, draft, place =>
    if alternativeEnds place.scanner then
      return none
    else do
      let (node, after) ← ask .element place
      let extended ← record draft .elements (.node node)
      return some (extended, after)
  | .digits, draft, place => do
    let (found, after) ← ask .digit place
    match found with
    | none => return none
    | some node =>
      let extended ← record draft .digits (.node node)
      return some (extended, after)
  | .classElements, draft, place =>
    if place.scanner.atEnd || place.scanner.sees (.char ']') then
      return none
    else do
      let (element, after) ← ask .classElement place
      let extended ← record draft .elements (.node element)
      return some (extended, after)

def alternativesScript (draft : Builder) (place : Place) : Script (Builder × Place) := do
  let (first, behind) ← ask .alternative place
  let begun ← record draft .alternatives (.node first)
  ask (.repeated .alternatives begun) behind

def alternativeScript (place : Place) : Script (Node × Place) := do
  let (filled, after) ←
    ask (.repeated .elements (.new .alternative place.scanner.position)) place
  return after.complete filled

def elementScript (place : Place) : Script (Node × Place) :=
  if place.scanner.sees (.oneOf quantifierSigils) then
    done (reject place.scanner.position .malformedQuantifier)
  else do
    let (operand, behind) ← ask .atom place
    if behind.scanner.sees (.oneOf quantifierStarts) then
      let (quantified, after) ← ask (.quantifier operand) behind
      if seesBounds after.scanner then
        done (reject after.scanner.position .malformedQuantifier)
      else
        return (quantified, after)
    else
      return (operand, behind)

def atomScript (place : Place) : Script (Node × Place) :=
  if place.scanner.sees (.char '[') then
    ask .characterClass place
  else if place.scanner.sees (.word "(?:".toList) then
    ask (.group .group "(?:") place
  else if place.scanner.sees (.char '(') then
    ask (.group .capturingGroup "(") place
  else if place.scanner.sees (.char '^') then
    ask (.sigil .startOfInputAssertion (.char '^') "'^'") place
  else if place.scanner.sees (.char '$') then
    ask (.sigil .endOfInputAssertion (.char '$') "'$'") place
  else if seesEscaped wordBoundaryLetters place.scanner then
    ask (.escapedKeyword .wordBoundaryAssertion wordBoundaryLetters) place
  else if seesEscaped gapLetters place.scanner then
    ask (.escapedKeyword .gap gapLetters) place
  else if place.scanner.sees (.char '.') then
    ask (.sigil .anyCharacterSet (.char '.') "'.'") place
  else if seesEscaped setLetters place.scanner then
    ask .escapedSet place
  else
    ask .character place

/-- The number of open groups is counted up for the inside of the group, and down behind it. -/
def groupScript (kind : NodeKind) (opener : String) (place : Place) : Script (Node × Place) :=
  if deepestNesting ≤ place.depth then
    done (reject place.scanner.position .recursionExceeded)
  else
    match place.scanner.open? .punctuator (.word opener.toList) ')' none with
    | none => done (reject place.scanner.position (.expected ("'" ++ opener ++ "'")))
    | some (opening, inside) => do
      let opened ← record (.new kind place.scanner.position) .openToken (.token opening)
      let (filled, behind) ← ask (.alternatives opened) ⟨inside, place.depth + 1⟩
      let (closing, after) ← expectClosing ')' behind.scanner
      let closed ← record filled .closeToken (.token closing)
      return (⟨after, behind.depth - 1⟩ : Place).complete closed

def quantifierBoundsScript (draft : Builder) (place : Place) :
    Script ((Bounds × Builder) × Place) :=
  match place.scanner.take? .keyword (.oneOf quantifierSigils) with
  | some (sigil, after) => do
    let filled ← record draft .sigilToken (.token sigil)
    return ((sigilBounds sigil.text, filled), ⟨after, place.depth⟩)
  | none => ask (.bracedBounds draft) place

def quantifierScript (element : Node) (place : Place) : Script (Node × Place) := do
  let begun ← record (.new .quantifier element.span.start) .element (.node element)
  let ((bounds, filled), after) ← quantifierBoundsScript begun place
  let noted ← noteAll filled bounds.attributes
  return after.complete noted

def upperBoundScript (least : Nat) (draft : Builder) (place : Place) :
    Script ((Bounds × Builder) × Place) :=
  match place.scanner.take? .punctuator (.char ',') with
  | none => do
    let separated ← record draft .separator .null
    let bounded ← record separated .max .null
    return ((⟨least, some least⟩, bounded), place)
  | some (comma, behind) => do
    let separated ← record draft .separator (.token comma)
    let (found, after) ← ask .unsignedInteger ⟨behind, place.depth⟩
    match found with
    | none =>
      let bounded ← record separated .max .null
      return ((⟨least, none⟩, bounded), after)
    | some (node, most) =>
      let bounded ← record separated .max (.node node)
      return ((⟨least, some most⟩, bounded), after)

def bracedBoundsScript (draft : Builder) (place : Place) : Script ((Bounds × Builder) × Place) :=
  match place.scanner.open? .punctuator (.char '{') '}' none with
  | none => done (reject place.scanner.position .malformedQuantifier)
  | some (opening, inside) => do
    let opened ← record draft .openToken (.token opening)
    let (found, behind) ← ask .unsignedInteger ⟨inside, place.depth⟩
    match found with
    | none => done (reject behind.scanner.position .malformedQuantifier)
    | some (node, least) =>
      let begun ← record opened .min (.node node)
      let ((bounds, bounded), last) ← upperBoundScript least begun behind
      if bounds.most.any (· < least) then
        done (reject last.scanner.position .malformedQuantifier)
      else
        match last.scanner.close? .punctuator '}' with
        | none => done (reject last.scanner.position .malformedQuantifier)
        | some (closing, after) =>
          let closed ← record bounded .closeToken (.token closing)
          return ((bounds, closed), ⟨after, last.depth⟩)

def unsignedIntegerScript (place : Place) : Script (Option (Node × Nat) × Place) := do
  let (draft, after) ← ask (.repeated .digits (.new .unsignedInteger place.scanner.position)) place
  if draft.properties.isEmpty then
    -- without digits nothing has been read
    return (none, place)
  else
    let (node, last) := after.complete draft
    match Numeral.count? node.sourceText with
    | some value => return (some (node, value), last)
    | none => done (reject place.scanner.position .malformedQuantifier)

def characterClassScript (place : Place) : Script (Node × Place) :=
  match place.scanner.open? .punctuator (.char '[') ']' (some .characterClass) with
  | none => done (reject place.scanner.position (.expected "'['"))
  | some (opening, inside) => do
    let opened ← record (.new .characterClass place.scanner.position) .openToken (.token opening)
    let (mark, listed) := negation inside
    let noted ← note opened .negate (.bool mark.isSome)
    let marked ← record noted .negateToken (.ofToken? mark)
    let (filled, behind) ← ask (.repeated .classElements marked) ⟨listed, place.depth⟩
    let (closing, after) ← expectClosing ']' behind.scanner
    let closed ← record filled .closeToken (.token closing)
    return (⟨after, behind.depth⟩ : Place).complete closed

def classAtomScript (place : Place) : Script (Node × Place) :=
  if seesEscaped setLetters place.scanner then
    ask .escapedSet place
  else if seesEscaped gapLetters place.scanner then
    ask (.escapedKeyword .gap gapLetters) place
  else
    ask .character place

def classElementScript (place : Place) : Script (Node × Place) := do
  let (atom, after) ← classAtomScript place
  if atom.kind = .character ∧ seesRange after.scanner then
    ask (.classRange atom) after
  else
    return (atom, after)

def classRangeScript (lower : Node) (place : Place) : Script (Node × Place) := do
  let begun ← record (.new .characterClassRange lower.span.start) .min (.node lower)
  let (hyphen, behind) ← expect .punctuator (.char '-') "'-'" place.scanner
  let joined ← record begun .sigilToken (.token hyphen)
  let (upper, after) ← ask .character ⟨behind, place.depth⟩
  let filled ← record joined .max (.node upper)
  return after.complete filled

def characterScript (place : Place) : Script (Node × Place) :=
  if place.scanner.sees (.char '\\') then do
    let (escape, after) ← ask .escapeSequence place
    let filled ← record (.new .character place.scanner.position) .escape (.node escape)
    return after.complete filled
  else
    match place.scanner.take? .literal .plain with
    | some (value, after) => do
      let filled ← record (.new .character place.scanner.position) .value (.token value)
      return (⟨after, place.depth⟩ : Place).complete filled
    | none =>
      match place.scanner.next? with
      | some c => done (reject place.scanner.position (.unexpected c))
      | none => done (reject place.scanner.position .unexpectedEnd)

def escapedSetScript (place : Place) : Script (Node × Place) :=
  if seesEscaped digitLetters place.scanner then
    ask (.escapedKeyword .digitCharacterSet digitLetters) place
  else if seesEscaped spaceLetters place.scanner then
    ask (.escapedKeyword .spaceCharacterSet spaceLetters) place
  else
    ask (.escapedKeyword .wordCharacterSet wordLetters) place

/-- An escape of a single character is read without further calls. -/
def escapeBodyScript (start : Nat) (region : Region) (draft : Builder) (place : Place) :
    Script ((List Char × Builder) × Place) :=
  match place.scanner.next?.bind fun c => (Escape.fixed? c).map fun cooked => (c, cooked) with
  | some (c, cooked) =>
    done ((singleEscape start c cooked draft place.scanner).map (settle place.depth ∘ paired))
  | none =>
    match region.specials? with
    | none => done (reject place.scanner.position (.unknownRegion region))
    | some specials =>
      match place.scanner.next? with
      | none => done (reject start (unrecognized place.scanner))
      | some c =>
        if c ∈ specials then
          done ((singleEscape start c c draft place.scanner).map (settle place.depth ∘ paired))
        else if c ∈ Escape.codeLetters then do
          let ((node, code), after) ← ask .escapeCode place
          let coded ← record draft .code (.node node)
          return ((Numeral.decimal code, coded), ⟨after.scanner.leave .escape, after.depth⟩)
        else
          done (reject start (unrecognized place.scanner))

def escapeSequenceScript (place : Place) : Script (Node × Place) :=
  match place.scanner.enter? .punctuator (.char '\\') .escape with
  | none => done (reject place.scanner.position (.expected "'\\'"))
  | some (backslash, inside) => do
    let begun ← record (.new .escapeSequence place.scanner.position) .escape (.token backslash)
    let ((cooked, coded), after) ←
      escapeBodyScript place.scanner.position place.scanner.region begun ⟨inside, place.depth⟩
    let noted ← note coded .cooked (.text cooked)
    return after.complete noted

/-- The digits between braces are read without further calls. -/
def codeDigitsScript (letter : Token) (draft : Builder) (place : Place) :
    Script ((List Char × Builder) × Place) :=
  if letter.text = ['u'] then
    match place.scanner.take? .punctuator (.char '{') with
    | some (opening, inside) =>
      done ((bracedDigits opening draft inside).map (settle place.depth ∘ paired))
    | none => ask (.blockDigits .hexQuad draft) place
  else
    ask (.blockDigits .hexPair draft) place

def escapeCodeScript (place : Place) : Script ((Node × Nat) × Place) := do
  let (letter, after) ← expect .keyword (.oneOf Escape.codeLetters) "'u' or 'x'" place.scanner
  let begun ← record (.new .escapeCode place.scanner.position) .type (.token letter)
  let ((digits, spelled), behind) ← codeDigitsScript letter begun ⟨after, place.depth⟩
  match Numeral.codePoint? digits with
  | none => done (reject place.scanner.position .invalidCodePoint)
  | some code =>
    let noted ← note spelled .cooked (.text (Numeral.decimal code))
    let (node, last) := behind.complete noted
    return ((node, code), last)

/-- One entry of a repetition, and what is left of the repetition behind it. -/
def repeatedScript (loop : Loop) (draft : Builder) (place : Place) : Script (Builder × Place) := do
  match ← stepScript loop draft place with
  | none => return (draft, place)
  | some (extended, after) => ask (.repeated loop extended) after

end Production

open Production Script

/-- What a production does between its calls.  Those that make no calls are done at once. -/
def Task.script : (task : Task) → Place → Script (task.Result × Place)
  | flags, place => done (perform flags place)
  | alternatives draft, place => alternativesScript draft place
  | alternative, place => alternativeScript place
  | element, place => elementScript place
  | atom, place => atomScript place
  | group kind opener, place => groupScript kind opener place
  | quantifier operand, place => quantifierScript operand place
  | bracedBounds draft, place => bracedBoundsScript draft place
  | unsignedInteger, place => unsignedIntegerScript place
  | digit, place => done (perform digit place)
  | characterClass, place => characterClassScript place
  | classElement, place => classElementScript place
  | classRange lower, place => classRangeScript lower place
  | character, place => characterScript place
  | escapedKeyword kind letters, place => done (perform (escapedKeyword kind letters) place)
  | sigil kind terminal what, place => done (perform (sigil kind terminal what) place)
  | escapedSet, place => escapedSetScript place
  | escapeSequence, place => escapeSequenceScript place
  | escapeCode, place => escapeCodeScript place
  | blockDigits terminal draft, place => done (perform (blockDigits terminal draft) place)
  | repeated loop draft, place => repeatedScript loop draft place

/-- A pattern literal from a scanner on: no group is open in front of it. -/
def literalScript (scanner : Scanner) : Script (Node × Place) :=
  match scanner.open? .punctuator (.char '/') '/' (some .pattern) with
  | none => done (reject scanner.position (.expected "'/'"))
  | some (opening, inside) => do
    let opened ← record (.new .pattern scanner.position) .openToken (.token opening)
    let (filled, behind) ← ask (.alternatives opened) ⟨inside, 0⟩
    let (closing, outside) ← expectClosing '/' behind.scanner
    let closed ← record filled .closeToken (.token closing)
    let (flagsNode, after) ← ask .flags ⟨outside, behind.depth⟩
    let flagged ← record closed .flags (.node flagsNode)
    return after.complete flagged

/-- A whole text, of which nothing may be left. -/
def wholeScript (script : Scanner → Script (Node × Place)) (text : List Char) : Script Node := do
  let (node, last) ← script (.new text)
  if last.scanner.atEnd then
    return node
  else
    done (reject last.scanner.position .trailingText)

/-- The script of `parse`. -/
def parseScript : List Char → Script Node :=
  wholeScript literalScript

/-- The script of `parseFlags`. -/
def parseFlagsScript : List Char → Script Node :=
  wholeScript fun scanner => ask .flags ⟨scanner, 0⟩

end PatternTree
