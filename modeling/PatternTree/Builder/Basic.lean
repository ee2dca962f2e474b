import PatternTree.Node.Basic

/-!
# Building nodes

A builder collects the children and attributes of one node and checks each of them against
the schema: a child needs a slot that its kind of node has and that is still free, an
attribute needs a name that its kind of node has.  What does not fit is refused with a
`Misfit` and leaves nothing behind.
-/

namespace PatternTree

/-- Why a builder refuses a child or an attribute. -/
inductive Misfit where
  /-- The kind of node lacks the slot, or the slot has been filled. -/
  | noFreeSlot (kind : NodeKind) (slot : String)
  /-- The kind of node lacks the attribute. -/
  | noAttribute (kind : NodeKind) (name : String)
  deriving DecidableEq, Repr

/-- The text a misfit is reported with.  That of an attribute is the condition that fails. -/
def Misfit.message : Misfit → String
  | noFreeSlot kind slot => kind.name ++ " has no free slot " ++ slot
  | noAttribute _ _ => "assertion failed: self.ty.attribute_names().contains(&name)"

/-- A node under construction. -/
structure Builder where
  kind : NodeKind
  start : Nat
  attributes : Array (AttributeName × Attribute)
  properties : Array Property
  deriving Repr

namespace Builder

/-- A builder without children and attributes. -/
def new (kind : NodeKind) (start : Nat) : Builder where
  kind := kind
  start := start
  attributes := #[]
  properties := #[]

/-- Whether a further child may be recorded under a slot. -/
def isFree (builder : Builder) (slot : Slot) : Bool :=
  match builder.kind.multiplicity? slot with
  | none => false
  | some .many => true
  | some _ => builder.properties.toList.all (·.1 != slot)

/-- Records a child under a slot. -/
def addChild (builder : Builder) (slot : Slot) (child : Child Node) : Except Misfit Builder :=
  if builder.isFree slot then
    .ok { builder with properties := builder.properties.push (slot, child) }
  else
    .error (.noFreeSlot builder.kind slot.name)

/-- Records a child under the slot of a given name. -/
def addNamedChild (builder : Builder) (name : String) (child : Child Node) :
    Except Misfit Builder :=
  match Slot.ofName? name with
  | some slot => builder.addChild slot child
  | none => .error (.noFreeSlot builder.kind name)

/-- Records an attribute.  An attribute may be recorded again; both values are kept. -/
def addAttribute (builder : Builder) (name : AttributeName) (value : Attribute) :
    Except Misfit Builder :=
  if name ∈ builder.kind.attributeNames then
    .ok { builder with attributes := builder.attributes.push (name, value) }
  else
    .error (.noAttribute builder.kind name.name)

/-- Records the attribute of a given name. -/
def addNamedAttribute (builder : Builder) (name : String) (value : Attribute) :
    Except Misfit Builder :=
  match AttributeName.ofName? name with
  | some known => builder.addAttribute known value
  | none => .error (.noAttribute builder.kind name)

/-- The node that has been built, ending at the given position. -/
def finish (builder : Builder) (stop : Nat) : Node where
  kind := builder.kind
  span := ⟨builder.start, stop⟩
  attributes := builder.attributes.toList
  properties := builder.properties.toList

/-! ## What building does -/

/-- Recording a child puts it behind the others and touches nothing else. -/
theorem addChild_eq_ok {builder next : Builder} {slot : Slot} {child : Child Node} :
    builder.addChild slot child = .ok next ↔
      builder.isFree slot = true ∧
        next = { builder with properties := builder.properties.push (slot, child) } := by
  unfold addChild
  split
  · next hfree => simp [hfree, eq_comm]
  · next hfree => simp [hfree]

/-- Recording an attribute puts it behind the others and touches nothing else. -/
theorem addAttribute_eq_ok {builder next : Builder} {name : AttributeName} {value : Attribute} :
    builder.addAttribute name value = .ok next ↔
      name ∈ builder.kind.attributeNames ∧
        next = { builder with attributes := builder.attributes.push (name, value) } := by
  unfold addAttribute
  split
  · next hname => simp [hname, eq_comm]
  · next hname => simp [hname]

end Builder

end PatternTree
