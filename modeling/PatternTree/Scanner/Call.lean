import PatternTree.Scanner.Basic

/-!
# Calls on a scanner

The operations of a scanner as data, so that a whole session can be given as a list of calls.
-/

namespace PatternTree.Scanner

/-- A request to a scanner. -/
inductive Call where
  /-- The text ahead. -/
  | rest
  /-- The next character. -/
  | next
  /-- Whether a terminal matches. -/
  | sees (terminal : Terminal)
  /-- What a terminal would take. -/
  | matched (terminal : Terminal)
  /-- Takes a terminal. -/
  | take (kind : Token.Kind) (terminal : Terminal)
  /-- Takes a delimiter. -/
  | opening (kind : Token.Kind) (terminal : Terminal) (closer : Char) (inside : Option Region)
  /-- Takes a closer. -/
  | closing (kind : Token.Kind) (closer : Char)
  /-- Takes a token that opens a region. -/
  | entering (kind : Token.Kind) (terminal : Terminal) (inside : Region)
  /-- Takes a token that ends a region. -/
  | leaving (kind : Token.Kind) (terminal : Terminal) (inside : Region)
  /-- Leaves a region. -/
  | leave (inside : Region)
  /-- Whether a closer is awaited. -/
  | awaits (c : Char)
  deriving Repr

/-- The answer to a call. -/
inductive Reply where
  | text (text : Option (List Char))
  | truth (value : Bool)
  | token (token : Option Token)
  | done
  deriving DecidableEq, Repr

/-- The answer of an operation that takes a token, and the scanner after it. -/
def reply (scanner : Scanner) : Option (Token × Scanner) → Reply × Scanner
  | some (token, after) => (.token (some token), after)
  | none => (.token none, scanner)

/-- Carries out one call. -/
def perform (scanner : Scanner) : Call → Reply × Scanner
  | .rest => (.text (some scanner.rest), scanner)
  | .next => (.text (scanner.next?.map fun c => [c]), scanner)
  | .sees terminal => (.truth (scanner.sees terminal), scanner)
  | .matched terminal => (.text (scanner.matched? terminal), scanner)
  | .take kind terminal => scanner.reply (scanner.take? kind terminal)
  | .opening kind terminal closer inside =>
    scanner.reply (scanner.open? kind terminal closer inside)
  | .closing kind closer => scanner.reply (scanner.close? kind closer)
  | .entering kind terminal inside => scanner.reply (scanner.enter? kind terminal inside)
  | .leaving kind terminal inside => scanner.reply (scanner.leave? kind terminal inside)
  | .leave inside => (.done, scanner.leave inside)
  | .awaits c => (.truth (scanner.awaits c), scanner)

/-- Carries out calls in turn; each answer comes with the scanner after its call. -/
def run : Scanner → List Call → List (Reply × Scanner)
  | _, [] => []
  | scanner, call :: calls =>
    let outcome := scanner.perform call
    outcome :: run outcome.2 calls

end PatternTree.Scanner
