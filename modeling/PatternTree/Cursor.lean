import PatternTree.Node.Equality
import PatternTree.Node.Printer
import PatternTree.Parse

/-!
# Walking through a tree

A cursor is a place in a tree, reached by a path of nodes from the root.  Steps move it and ask
about the node it stands on.  Slots and attributes are asked for by name, and an unknown name
finds nothing.
-/

namespace PatternTree

/-- A node of a tree and the way to it. -/
structure Cursor where
  root : Node
  /-- The nodes below the root that lead to the current one, the current one first. -/
  path : List Node
  deriving Repr

namespace Cursor

/-- A cursor at the root of a tree. -/
def new (root : Node) : Cursor :=
  ⟨root, []⟩

/-- The node the cursor stands on. -/
def focus (cursor : Cursor) : Node :=
  cursor.path.headD cursor.root

/-- The cursor one node closer to the root, where it stays at the root. -/
def up (cursor : Cursor) : Cursor :=
  { cursor with path := cursor.path.tail }

/-- A move of the cursor, or a question about its node. -/
inductive Step where
  /-- Moves to the root. -/
  | root
  /-- Moves one node up. -/
  | up
  /-- Moves to the first child of a slot, if it is a node. -/
  | node (slot : String)
  /-- Moves to one of the nodes of a slot, counted from zero. -/
  | nth (slot : String) (index : Nat)
  | nodes (slot : String)
  | child (slot : String)
  | children (slot : String)
  | token (slot : String)
  | tokenDisplay (slot : String)
  | attr (name : String)
  | attributes
  | slots
  | tokens
  | sourceText
  | display
  | kind
  | span
  /-- Whether the first element of another pattern is equal to the current node. -/
  | equals (text : List Char)
  deriving Repr

/-- The answer to a step. -/
inductive Answer where
  | node (node : Option Node)
  | nodes (nodes : List Node)
  | child (child : Option (Child Node))
  | children (children : List (Child Node))
  | token (token : Option Token)
  | tokens (tokens : List Token)
  | attr (value : Option Attribute)
  | attributes (attributes : List (AttributeName × Attribute))
  | slots (slots : List Slot)
  | text (text : Option (List Char))
  | kind (kind : NodeKind)
  | span (span : Span)
  | truth (value : Bool)
  deriving Repr

/-- Moves to a node below the current one, or stays if there is none. -/
def descend (cursor : Cursor) : Option Node → Answer × Cursor
  | some node => (.node (some node), { cursor with path := node :: cursor.path })
  | none => (.node none, cursor)

/-- The first element of the first alternative of a pattern. -/
def firstElement? (pattern : Node) : Option Node :=
  (pattern.nodes .alternatives).head?.bind fun alternative => (alternative.nodes .elements).head?

/-- Carries out one step. -/
def perform (cursor : Cursor) : Step → Attempt (Answer × Cursor)
  | .root => .ok (.node (some cursor.root), new cursor.root)
  | .up => .ok (.node (some cursor.up.focus), cursor.up)
  | .node slot => .ok (cursor.descend ((Slot.ofName? slot).bind cursor.focus.node?))
  | .nth slot index =>
    .ok (cursor.descend ((Slot.ofName? slot).bind fun s => (cursor.focus.nodes s)[index]?))
  | .nodes slot => .ok (.nodes ((Slot.ofName? slot).elim [] cursor.focus.nodes), cursor)
  | .child slot => .ok (.child ((Slot.ofName? slot).bind cursor.focus.child?), cursor)
  | .children slot => .ok (.children ((Slot.ofName? slot).elim [] cursor.focus.children), cursor)
  | .token slot => .ok (.token ((Slot.ofName? slot).bind cursor.focus.token?), cursor)
  | .tokenDisplay slot =>
    .ok (.text (((Slot.ofName? slot).bind cursor.focus.token?).map (·.print .standard)), cursor)
  | .attr name => .ok (.attr ((AttributeName.ofName? name).bind cursor.focus.attribute?), cursor)
  | .attributes => .ok (.attributes cursor.focus.attributes, cursor)
  | .slots => .ok (.slots (cursor.focus.properties.map Prod.fst), cursor)
  | .tokens => .ok (.tokens cursor.focus.tokens, cursor)
  | .sourceText => .ok (.text (some cursor.focus.sourceText), cursor)
  | .display => .ok (.text (some cursor.focus.display), cursor)
  | .kind => .ok (.kind cursor.focus.kind, cursor)
  | .span => .ok (.span cursor.focus.span, cursor)
  | .equals text => do
    let other ← parse text
    return (.truth (decide (firstElement? other = some cursor.focus)), cursor)

/-- Carries out steps in turn and lists the answers. -/
def run : Cursor → List Step → Attempt (List Answer)
  | _, [] => .ok []
  | cursor, step :: steps => do
    let (answer, next) ← cursor.perform step
    let answers ← run next steps
    return answer :: answers

end Cursor

end PatternTree
