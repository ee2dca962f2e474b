import PatternTree.Node.Printer
import PatternTree.Parse

/-!
# The command line

Three commands show what the library makes of a text: the printed tree of a pattern, its tokens
with their spans, or flags as attributes.  A run is a function from the arguments to a report;
only the program around it touches the outside world.
-/

namespace PatternTree.Cli

/-- What a run prints, and the code it exits with. -/
structure Report where
  output : List Char
  diagnostics : List Char
  exitCode : Nat
  deriving DecidableEq, Repr

/-- The line that lists the commands. -/
def usage : String := "commands: parse|tokens <pattern>, flags <flags>"

/-- A text moved to the right end of a column. -/
def padLeft (width : Nat) (text : List Char) : List Char :=
  List.replicate (width - text.length) ' ' ++ text

/-- A text moved to the left end of a column. -/
def padRight (width : Nat) (text : List Char) : List Char :=
  text ++ List.replicate (width - text.length) ' '

/-- A text as a line of its own. -/
def line (text : List Char) : List Char :=
  text ++ ['\n']

/-- A token with its span in front of it. -/
def tokenLine (token : Token) : List Char :=
  line (padLeft 3 (Numeral.decimal token.span.start) ++ ['.', '.']
    ++ padRight 3 (Numeral.decimal token.span.stop) ++ ' ' :: token.print .standard)

/-- An attribute behind its name. -/
def attributeLine (name : AttributeName) (value : Attribute) : List Char :=
  line (name.name.toList ++ [':', ' '] ++ value.print .standard)

/-- Reports what is shown of a tree, or why there is no tree. -/
def report (shown : Node → List Char) : Attempt Node → Report
  | .ok tree => ⟨shown tree, [], 0⟩
  | .error failure => ⟨[], line failure.message.toList, 1⟩

/-- Runs the command that the arguments name; further arguments are ignored. -/
def run : List String → Report
  | "parse" :: text :: _ => report (fun tree => line tree.display) (parse text.toList)
  | "tokens" :: text :: _ => report (fun tree => tree.tokens.flatMap tokenLine) (parse text.toList)
  | "flags" :: text :: _ =>
    report (fun tree => tree.attributes.flatMap fun (name, value) => attributeLine name value)
      (parseFlags text.toList)
  | _ => ⟨line usage.toList, [], 0⟩

end PatternTree.Cli
