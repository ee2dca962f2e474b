import PatternTree.Node.Basic

/-!
# The printed form of a tree

A tree is printed over several lines, two spaces to the level.  Each child stands on a line of
its own behind the name of its slot; entries of a repeated slot are marked by a pair of
brackets.  A child node with children of its own starts on the next line, all else follows on
the line of the name.
-/

namespace PatternTree.Node

/-- The recorded attributes as `name: value` entries. -/
def attributeEntries (glyphs : Text.Glyphs) (attributes : List (AttributeName × Attribute)) :
    List (List Char) :=
  attributes.map fun (name, value) => name.name.toList ++ [':', ' '] ++ value.print glyphs

/-- The name of a slot with a mark behind it if the slot is a repeated one. -/
def slotLabel (kind : NodeKind) (slot : Slot) : List Char :=
  slot.name.toList ++ (if kind.multiplicity? slot = some .many then ['[', ']'] else []) ++ [':']

mutual
/-- The printed form of a node at the given level. -/
def printAt (glyphs : Text.Glyphs) (depth : Nat) : Node → List Char
  | ⟨kind, _, attributes, properties⟩ =>
    '<' :: kind.name.toList ++ Text.braced (attributeEntries glyphs attributes)
      ++ (if properties.isEmpty then " />".toList
        else ['>', '\n'] ++ printProperties glyphs kind (depth + 1) properties
          ++ Text.indentation depth ++ "</>".toList)
/-- The lines of a node's children, at the level of the children. -/
def printProperties (glyphs : Text.Glyphs) (kind : NodeKind) (depth : Nat) :
    List Property → List Char
  | [] => []
  | (slot, child) :: rest =>
    Text.indentation depth ++ slotLabel kind slot ++ printChild glyphs depth child
      ++ '\n' :: printProperties glyphs kind depth rest
/-- What follows the name of a slot. -/
def printChild (glyphs : Text.Glyphs) (depth : Nat) : Child Node → List Char
  | .node child =>
    (if child.properties.isEmpty then [' '] else '\n' :: Text.indentation depth)
      ++ printAt glyphs depth child
  | .token token => ' ' :: token.print glyphs
  | .null => " null".toList
end

/-- The printed form of a tree. -/
def print (glyphs : Text.Glyphs) (node : Node) : List Char :=
  node.printAt glyphs 0

/-- The printed form of a tree under the standard tables. -/
def display (node : Node) : List Char :=
  node.print .standard

end PatternTree.Node
