import PatternTree.Node.Basic

/-!
# The outline of a tree

The outline lists a tree in preorder, one entry for each node, token and explicit null, with
its depth below the root and the slot it is recorded under.
-/

namespace PatternTree

/-- One entry of an outline. -/
structure Outline.Entry where
  /-- The distance from the root. -/
  depth : Nat
  /-- The slot the entry is recorded under; the root has none. -/
  slot : Option Slot
  item : Child Node
  deriving Repr

namespace Node

mutual
/-- The entries below a node at the given depth. -/
def entriesBelow (depth : Nat) : Node → List Outline.Entry
  | ⟨_, _, _, properties⟩ => entriesOf (depth + 1) properties
/-- The entries of a list of properties and of all that is below them. -/
def entriesOf (depth : Nat) : List Property → List Outline.Entry
  | [] => []
  | (slot, .node child) :: rest =>
    ⟨depth, some slot, .node child⟩ :: (entriesBelow depth child ++ entriesOf depth rest)
  | (slot, .token token) :: rest => ⟨depth, some slot, .token token⟩ :: entriesOf depth rest
  | (slot, .null) :: rest => ⟨depth, some slot, .null⟩ :: entriesOf depth rest
end

/-- The entries of a tree in preorder, the root first. -/
def outline (node : Node) : List Outline.Entry :=
  ⟨0, none, .node node⟩ :: entriesBelow 0 node

end Node

end PatternTree
