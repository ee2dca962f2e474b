import PatternTree.Attribute
import PatternTree.Schema
import PatternTree.Token

/-!
# Trees

A node records its children under slots, in source order, next to the attributes worked out
from them.  Every character of the source lies in exactly one token, so the tokens of a tree,
read from left to right, spell the source again (`Node.sourceText`).
-/

namespace PatternTree

/-- What a slot holds: a subtree, a token, or the record that nothing was found. -/
inductive Child (ν : Type) where
  | node (node : ν)
  | token (token : Token)
  | null
  deriving DecidableEq, Repr

namespace Child

variable {ν : Type}

def node? : Child ν → Option ν
  | node n => some n
  | _ => none

def token? : Child ν → Option Token
  | token t => some t
  | _ => none

/-- An optional token, its absence recorded explicitly. -/
def ofToken? : Option Token → Child ν
  | some t => token t
  | none => null

end Child

/-- A finished node. -/
structure Node where
  kind : NodeKind
  span : Span
  /-- The attributes, in the order they were recorded in. -/
  attributes : List (AttributeName × Attribute)
  /-- The children with their slots, in source order. -/
  properties : List (Slot × Child Node)
  deriving Repr

/-- A child together with the slot it is recorded under. -/
abbrev Property := Slot × Child Node

namespace Node

/-- To show a fact of all nodes, show it of a node whose child nodes have it. -/
theorem induction {motive : Node → Prop}
    (step : ∀ node : Node, (∀ slot child, (slot, .node child) ∈ node.properties → motive child) →
      motive node)
    (node : Node) : motive node :=
  @Node.rec motive
    (fun properties => ∀ slot child, (slot, .node child) ∈ properties → motive child)
    (fun property => ∀ child, property.2 = .node child → motive child)
    (fun entry => ∀ child, entry = .node child → motive child)
    (fun kind span attributes properties ih => step ⟨kind, span, attributes, properties⟩ ih)
    (fun _ _ h => nomatch h)
    (fun _ _ ihHead ihTail slot child h => by
      rcases List.mem_cons.mp h with h | h
      · exact ihHead child (congrArg Prod.snd h).symm
      · exact ihTail slot child h)
    (fun _ _ ih => ih)
    (fun _ ih _ h => Child.node.inj h ▸ ih)
    (fun _ _ h => nomatch h)
    (fun _ h => nomatch h)
    node

/-! ## Looking up children and attributes -/

/-- All children recorded under a slot, in source order. -/
def children (node : Node) (slot : Slot) : List (Child Node) :=
  (node.properties.filter (·.1 == slot)).map Prod.snd

/-- The first child recorded under a slot. -/
def child? (node : Node) (slot : Slot) : Option (Child Node) :=
  (node.properties.find? (·.1 == slot)).map Prod.snd

/-- The nodes recorded under a slot. -/
def nodes (node : Node) (slot : Slot) : List Node :=
  (node.children slot).filterMap Child.node?

/-- The first child recorded under a slot, if it is a node. -/
def node? (node : Node) (slot : Slot) : Option Node :=
  (node.child? slot).bind Child.node?

/-- The first child recorded under a slot, if it is a token. -/
def token? (node : Node) (slot : Slot) : Option Token :=
  (node.child? slot).bind Child.token?

/-- The first value recorded for an attribute. -/
def attribute? (node : Node) (name : AttributeName) : Option Attribute :=
  (node.attributes.find? (·.1 == name)).map Prod.snd

/-- The first child recorded under a slot is the first of all of them. -/
theorem child?_eq_head? (node : Node) (slot : Slot) :
    node.child? slot = (node.children slot).head? := by
  simp [child?, children, List.head?_filter]

/-! ## Tokens -/

mutual
/-- The tokens of a tree, from left to right. -/
def tokens : Node → List Token
  | ⟨_, _, _, properties⟩ => tokensOf properties
/-- The tokens of a list of properties, from left to right. -/
def tokensOf : List Property → List Token
  | [] => []
  | (_, .node child) :: rest => child.tokens ++ tokensOf rest
  | (_, .token token) :: rest => token :: tokensOf rest
  | (_, .null) :: rest => tokensOf rest
end

/-- The source text of a tree, spelled by its tokens. -/
def sourceText (node : Node) : List Char :=
  node.tokens.flatMap Token.text

/-- The tokens of a node are those of its properties. -/
theorem tokens_eq (node : Node) : node.tokens = tokensOf node.properties := by
  cases node
  rw [tokens]

@[simp] theorem tokensOf_append (front back : List Property) :
    tokensOf (front ++ back) = tokensOf front ++ tokensOf back := by
  induction front with
  | nil => simp [tokensOf]
  | cons property rest ih =>
    obtain ⟨slot, child⟩ := property
    cases child <;> simp [tokensOf, ih]

end Node

end PatternTree
