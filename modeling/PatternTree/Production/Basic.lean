import PatternTree.Builder.Basic
import PatternTree.Error
import PatternTree.Scanner.Basic

/-!
# Productions

A production reads one kind of node.  It starts from a scanner and yields either the node
together with the scanner behind it, or the reason why it stopped: the text was rejected, or
the parts that were read do not fit the schema of the node.  The second never happens in a
production of this library, but nothing in the type says so.
-/

namespace PatternTree

/-- Why a production stopped. -/
inductive Failure where
  /-- The text is not of the expected form. -/
  | rejected (error : Error)
  /-- The parts of a node do not fit its schema. -/
  | misfit (cause : Misfit)
  deriving DecidableEq, Repr

/-- The text a failure is reported with. -/
def Failure.message : Failure → String
  | rejected error => error.message
  | misfit cause => cause.message

/-- A result or the reason why there is none. -/
abbrev Attempt := Except Failure

namespace Production

variable {α : Type}

/-- Stops with an error at the given position. -/
def reject (position : Nat) (kind : ErrorKind) : Attempt α :=
  .error (.rejected ⟨position, kind⟩)

/-- Records a child of the node that is being read. -/
def record (draft : Builder) (slot : Slot) (child : Child Node) : Attempt Builder :=
  (draft.addChild slot child).mapError .misfit

/-- Records an attribute of the node that is being read. -/
def note (draft : Builder) (name : AttributeName) (value : Attribute) : Attempt Builder :=
  (draft.addAttribute name value).mapError .misfit

/-- Records several attributes in turn. -/
def noteAll (draft : Builder) (attributes : List (AttributeName × Attribute)) : Attempt Builder :=
  attributes.foldlM (fun noted (name, value) => note noted name value) draft

/-- Completes a node that ends where the scanner stands. -/
def complete (draft : Builder) (scanner : Scanner) : Node × Scanner :=
  (draft.finish scanner.position, scanner)

/-- Takes a terminal that has to come here. -/
def expect (kind : Token.Kind) (terminal : Terminal) (what : String) (scanner : Scanner) :
    Attempt (Token × Scanner) :=
  match scanner.take? kind terminal with
  | some taken => .ok taken
  | none => reject scanner.position (.expected what)

/-- Takes the closer of the innermost delimiter. -/
def expectClosing (closer : Char) (scanner : Scanner) : Attempt (Token × Scanner) :=
  match scanner.close? .punctuator closer with
  | some taken => .ok taken
  | none => reject scanner.position (.unbalancedDelimiter closer)

/-- Whether a backslash and one of the given letters come next. -/
def seesEscaped (letters : List Char) (scanner : Scanner) : Bool :=
  match scanner.rest with
  | '\\' :: c :: _ => letters.contains c
  | _ => false

/-! ## Repetition -/

/-- A production that records one more child of a node, unless there is none. -/
abbrev Step := Builder → Scanner → Attempt (Option (Builder × Scanner))

/-- At most `bound` steps, one after the other, until there is no further child. -/
def collectUpTo (step : Step) : Nat → Builder → Scanner → Attempt (Builder × Scanner)
  | 0, draft, scanner => .ok (draft, scanner)
  | bound + 1, draft, scanner => do
    match ← step draft scanner with
    | none => return (draft, scanner)
    | some (extended, after) => collectUpTo step bound extended after

/-- Steps, one after the other, until there is no further child.  A step takes some text, so
there are no more of them than characters ahead. -/
def collect (step : Step) (draft : Builder) (scanner : Scanner) : Attempt (Builder × Scanner) :=
  collectUpTo step (scanner.rest.length + 1) draft scanner

end Production

end PatternTree
