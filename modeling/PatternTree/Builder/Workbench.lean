import PatternTree.Builder.Basic
import PatternTree.Node.Outline
import PatternTree.Node.Printer

/-!
# A workbench for building trees

A workbench holds two stacks, the builders that are still open and the nodes that are finished.
Trees are built bottom up by calls on it; a call that cannot be carried out is answered with
the reason, and the builders stay as they were.
-/

namespace PatternTree

/-- The open builders and the finished nodes, the most recent first. -/
structure Workbench where
  builders : List Builder
  finished : List Node
  deriving Repr

namespace Workbench

/-- A request to a workbench.  Slots and attributes are given by name and may be unknown. -/
inductive Call where
  /-- Opens a builder. -/
  | new (kind : NodeKind) (start : Nat)
  /-- Adds a token to the top builder. -/
  | token (slot : String) (token : Token)
  /-- Adds an explicit null to the top builder. -/
  | null (slot : String)
  /-- Adds an attribute to the top builder. -/
  | bind (name : String) (value : Attribute)
  /-- Takes the top finished node and adds it to the top builder. -/
  | node (slot : String)
  /-- Closes the top builder and puts its node on the finished ones. -/
  | finish (stop : Nat)
  /-- Outlines the top finished node. -/
  | outline
  /-- Prints the top finished node. -/
  | display
  /-- Spells the top finished node. -/
  | sourceText
  deriving Repr

/-- The answer to a call. -/
inductive Reply where
  | done
  | node (node : Node)
  | outline (entries : List Outline.Entry)
  | text (text : List Char)
  | misfit (cause : Misfit)
  /-- There is no builder, or no finished node, where one is needed. -/
  | empty
  deriving Repr

/-- A workbench with nothing on it. -/
def clear : Workbench := ⟨[], []⟩

/-- Changes the top builder, unless the change is refused. -/
def change (bench : Workbench) (step : Builder → Except Misfit Builder) : Reply × Workbench :=
  match bench.builders with
  | [] => (.empty, bench)
  | top :: others =>
    match step top with
    | .ok changed => (.done, { bench with builders := changed :: others })
    | .error cause => (.misfit cause, bench)

/-- Answers from the top finished node. -/
def inspect (bench : Workbench) (view : Node → Reply) : Reply × Workbench :=
  match bench.finished with
  | [] => (.empty, bench)
  | top :: _ => (view top, bench)

/-- Carries out one call. -/
def perform (bench : Workbench) : Call → Reply × Workbench
  | .new kind start => (.done, { bench with builders := Builder.new kind start :: bench.builders })
  | .token slot token => bench.change (·.addNamedChild slot (.token token))
  | .null slot => bench.change (·.addNamedChild slot .null)
  | .bind name value => bench.change (·.addNamedAttribute name value)
  | .node slot =>
    match bench.finished with
    | [] => (.empty, bench)
    | node :: others =>
      { bench with finished := others }.change (·.addNamedChild slot (.node node))
  | .finish stop =>
    match bench.builders with
    | [] => (.empty, bench)
    | top :: others =>
      let node := top.finish stop
      (.node node, { builders := others, finished := node :: bench.finished })
  | .outline => bench.inspect fun node => .outline node.outline
  | .display => bench.inspect fun node => .text node.display
  | .sourceText => bench.inspect fun node => .text node.sourceText

/-- Carries out calls in turn and lists the answers. -/
def run : Workbench → List Call → List Reply × Workbench
  | bench, [] => ([], bench)
  | bench, call :: calls =>
    let (reply, next) := bench.perform call
    let (replies, last) := run next calls
    (reply :: replies, last)

end Workbench

end PatternTree
