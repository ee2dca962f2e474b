import PatternTree.Builder.Workbench
import PatternTree.Proofs.Drafting

/-!
# Calls on a workbench

What an accepted call has to record is an entry, a child or an attribute, and it goes to the top
builder.  Apart from that a call can open a builder, finish one, or use up a finished node for
nothing.  All of this is said once (`Workbench.Outcome`).

A workbench holds the nodes of its finished trees, and those of the trees that open builders have
taken as children.  The only new node among them after a call is the one that the call has
finished (`Workbench.Outcome.holds`).
-/

namespace PatternTree

/-- Something that is recorded in a builder. -/
inductive Entry where
  | child (property : Property)
  | binding (binding : AttributeName × Attribute)

namespace Entry

def child? : Entry → Option Property
  | child property => some property
  | binding _ => none

def binding? : Entry → Option (AttributeName × Attribute)
  | child _ => none
  | binding named => some named

end Entry

namespace Builder

/-- The builder with one more entry, behind the others of its sort. -/
def record (builder : Builder) : Entry → Builder
  | .child property => builder.extend [property]
  | .binding named => builder.annotate [named]

@[simp] theorem record_kind (builder : Builder) (entry : Entry) :
    (builder.record entry).kind = builder.kind := by
  cases entry <;> rfl

@[simp] theorem record_start (builder : Builder) (entry : Entry) :
    (builder.record entry).start = builder.start := by
  cases entry <;> rfl

@[simp] theorem record_properties (builder : Builder) (entry : Entry) :
    (builder.record entry).properties.toList
      = builder.properties.toList ++ entry.child?.toList := by
  cases entry <;> simp [record, extend, annotate, Entry.child?]

@[simp] theorem record_attributes (builder : Builder) (entry : Entry) :
    (builder.record entry).attributes.toList
      = builder.attributes.toList ++ entry.binding?.toList := by
  cases entry <;> simp [record, extend, annotate, Entry.binding?]

/-- The schema allows for the entry. -/
def Admits (builder : Builder) : Entry → Prop
  | .child property => builder.isFree property.1 = true
  | .binding named => named.1 ∈ builder.kind.attributeNames

/-- A child is recorded under a known slot that is free, or refused. -/
theorem addNamedChild_cases (builder : Builder) (name : String) (child : Child Node) :
    (∃ slot, Slot.ofName? name = some slot ∧ builder.Admits (.child (slot, child)) ∧
      builder.addNamedChild name child = .ok (builder.record (.child (slot, child)))) ∨
    ∃ cause, builder.addNamedChild name child = .error cause := by
  rw [addNamedChild]
  cases hslot : Slot.ofName? name with
  | none => exact .inr ⟨_, rfl⟩
  | some slot =>
      by_cases hfree : builder.isFree slot = true
      · exact .inl ⟨slot, rfl, hfree, addChild_eq_ok_iff.mpr ⟨hfree, rfl⟩⟩
      · exact .inr ⟨_, if_neg hfree⟩

/-- An attribute of a known name that the schema lists is recorded, or it is refused. -/
theorem addNamedAttribute_cases (builder : Builder) (text : String) (value : Attribute) :
    (∃ name, AttributeName.ofName? text = some name ∧ builder.Admits (.binding (name, value)) ∧
      builder.addNamedAttribute text value = .ok (builder.record (.binding (name, value)))) ∨
    ∃ cause, builder.addNamedAttribute text value = .error cause := by
  rw [addNamedAttribute]
  cases hname : AttributeName.ofName? text with
  | none => exact .inr ⟨_, rfl⟩
  | some name =>
      by_cases hlisted : name ∈ builder.kind.attributeNames
      · exact .inl ⟨name, rfl, hlisted, addAttribute_eq_ok_iff.mpr ⟨hlisted, rfl⟩⟩
      · exact .inr ⟨_, if_neg hlisted⟩

end Builder

namespace Workbench

/-! ## One call -/

/-- What a call is to record: something under a known name, and for a node the top finished one. -/
def Call.recorded? (finished : List Node) : Call → Option Entry
  | .token name found => (Slot.ofName? name).map fun slot => .child (slot, .token found)
  | .null name => (Slot.ofName? name).map fun slot => .child (slot, .null)
  | .node name => (Slot.ofName? name).bind fun slot =>
    finished.head?.map fun node => .child (slot, .node node)
  | .bind text value => (AttributeName.ofName? text).map fun name => .binding (name, value)
  | _ => none

/-- The finished nodes that a call does not use up. -/
def Call.spares (finished : List Node) : Call → List Node
  | .node _ => finished.tail
  | _ => finished

variable {bench bench' : Workbench} {call : Call} {reply : Reply}

/-- What a call may be answered with, and the workbench behind it. -/
inductive Outcome (bench : Workbench) : Call → Reply → Workbench → Prop
  /-- A builder is opened. -/
  | opened {kind : NodeKind} {start : Nat} : Outcome bench (.new kind start) .done
    ⟨.new kind start :: bench.builders, bench.finished⟩
  /-- The top builder records what the call names. -/
  | recorded {call : Call} {entry : Entry} {top : Builder} {others : List Builder}
    (builders : bench.builders = top :: others) (named : call.recorded? bench.finished = some entry)
    (admitted : top.Admits entry) :
    Outcome bench call .done ⟨top.record entry :: others, call.spares bench.finished⟩
  /-- The top builder is finished. -/
  | finished {stop : Nat} {top : Builder} {others : List Builder}
    (builders : bench.builders = top :: others) : Outcome bench (.finish stop)
      (.node (top.finish stop)) ⟨others, top.finish stop :: bench.finished⟩
  /-- Nothing happens to the builders. -/
  | idle {call : Call} {reply : Reply} (undone : reply ≠ .done)
    (unfinished : ∀ node, reply ≠ .node node) :
    Outcome bench call reply ⟨bench.builders, call.spares bench.finished⟩

/-- A call that makes the top builder record what the call names. -/
theorem outcome_of_change (step : Builder → Except Misfit Builder)
    (hperform : bench.perform call
      = (⟨bench.builders, call.spares bench.finished⟩ : Workbench).change step)
    (hstep : ∀ top, (∃ entry, call.recorded? bench.finished = some entry ∧ top.Admits entry ∧
        step top = .ok (top.record entry)) ∨ ∃ cause, step top = .error cause) :
    Outcome bench call (bench.perform call).1 (bench.perform call).2 := by
  rw [hperform]
  obtain ⟨builders, finished⟩ := bench
  cases builders with
  | nil => exact .idle nofun nofun
  | cons top others =>
      rcases hstep top with ⟨entry, hnamed, hadmitted, hok⟩ | ⟨cause, herror⟩
      · simp only [change, hok]
        exact .recorded rfl hnamed hadmitted
      · simp only [change, herror]
        exact .idle nofun nofun

/-- A call that makes the top builder record a child. -/
theorem outcome_of_child (name : String) (child : Child Node)
    (hperform : bench.perform call = (⟨bench.builders, call.spares bench.finished⟩ :
      Workbench).change (·.addNamedChild name child))
    (hrecorded : call.recorded? bench.finished
      = (Slot.ofName? name).map fun slot => .child (slot, child)) :
    Outcome bench call (bench.perform call).1 (bench.perform call).2 := by
  refine outcome_of_change _ hperform fun top => ?_
  rcases top.addNamedChild_cases name child with ⟨slot, hslot, hfits⟩ | hmisfit
  · exact .inl ⟨.child (slot, child), by rw [hrecorded, hslot]; rfl, hfits⟩
  · exact .inr hmisfit

/-- A call that looks at the top finished node. -/
theorem outcome_of_inspect (view : Node → Reply)
    (hperform : bench.perform call = bench.inspect view)
    (hspares : call.spares bench.finished = bench.finished) (hview : ∀ node, view node ≠ .done)
    (hnode : ∀ node other, view node ≠ .node other) :
    Outcome bench call (bench.perform call).1 (bench.perform call).2 := by
  have hidle : ∀ reply : Reply, reply ≠ .done → (∀ node, reply ≠ .node node) →
      Outcome bench call reply bench := by
    intro reply hundone hunfinished
    have houtcome : Outcome bench call reply ⟨bench.builders, call.spares bench.finished⟩ :=
      .idle hundone hunfinished
    rwa [hspares] at houtcome
  rw [hperform, inspect]
  cases bench.finished with
  | nil => exact hidle _ nofun nofun
  | cons top others => exact hidle _ (hview top) (hnode top)

/-- Every call has one of the outcomes. -/
theorem outcome_perform (bench : Workbench) (call : Call) :
    Outcome bench call (bench.perform call).1 (bench.perform call).2 := by
  cases call with
  | new kind start => exact .opened
  | token name token => exact outcome_of_child name (.token token) rfl rfl
  | null name => exact outcome_of_child name .null rfl rfl
  | node name =>
      obtain ⟨builders, finished⟩ := bench
      cases finished with
      | nil => exact .idle nofun nofun
      | cons node others =>
          refine outcome_of_child name (.node node) rfl ?_
          rw [Call.recorded?]
          cases Slot.ofName? name <;> rfl
  | bind text value =>
      refine outcome_of_change (·.addNamedAttribute text value) rfl fun top => ?_
      rcases top.addNamedAttribute_cases text value with ⟨name, hname, hfits⟩ | hmisfit
      · exact .inl ⟨.binding (name, value), by rw [Call.recorded?, hname]; rfl, hfits⟩
      · exact .inr hmisfit
  | finish stop =>
      obtain ⟨builders, finished⟩ := bench
      cases builders with
      | nil => exact .idle nofun nofun
      | cons top others => exact .finished rfl
  | outline => exact outcome_of_inspect (fun node => .outline node.outline) rfl rfl nofun nofun
  | display => exact outcome_of_inspect (fun node => .text node.display) rfl rfl nofun nofun
  | sourceText => exact outcome_of_inspect (fun node => .text node.sourceText) rfl rfl nofun nofun

/-- What does not fit leaves the builders as they are. -/
theorem Outcome.builders_of_misfit (h : Outcome bench call reply bench') {cause : Misfit}
    (hmisfit : reply = .misfit cause) : bench'.builders = bench.builders := by
  cases h with
  | idle undone unfinished => rfl
  | _ => exact nomatch hmisfit

/-! ## The nodes on a workbench -/

/-- The node belongs to a finished tree, or to one that an open builder has taken as a child. -/
def Holds (bench : Workbench) (node : Node) : Prop :=
  (∃ tree ∈ bench.finished, tree.Contains node) ∨
    ∃ builder ∈ bench.builders, ∃ slot child,
      (slot, .node child) ∈ builder.properties.toList ∧ child.Contains node

/-- What a tree contains is its root or contained in a child of the root. -/
theorem eq_or_below_of_contains {root node : Node} (h : root.Contains node) :
    node = root ∨ ∃ slot child, (slot, .node child) ∈ root.properties ∧ child.Contains node := by
  induction h with
  | self => exact .inl rfl
  | @step parent slot child above recorded ih =>
      rcases ih with rfl | ⟨rootSlot, rootChild, hmem, hbelow⟩
      · exact .inr ⟨slot, child, recorded, .self⟩
      · exact .inr ⟨rootSlot, rootChild, hmem, hbelow.step recorded⟩

/-- Calls spare finished nodes only. -/
theorem Call.mem_of_mem_spares {finished : List Node} {node : Node}
    (h : node ∈ call.spares finished) : node ∈ finished := by
  cases call with
  | node name => exact List.mem_of_mem_tail h
  | _ => exact h

/-- A node that is to be recorded is a finished one. -/
theorem Call.mem_of_recorded? {finished : List Node} {slot : Slot} {node : Node}
    (h : call.recorded? finished = some (.child (slot, .node node))) : node ∈ finished := by
  cases call with
  | node name =>
      obtain ⟨slot, -, hentry⟩ := Option.bind_eq_some_iff.mp h
      obtain ⟨head, hhead, heq⟩ := Option.map_eq_some_iff.mp hentry
      obtain ⟨-, hchild⟩ := Prod.mk.inj (Entry.child.inj heq)
      rw [← Child.node.inj hchild]
      exact List.mem_of_mem_head? hhead
  | token name found => simp [recorded?] at h
  | null name => simp [recorded?] at h
  | bind text value => simp [recorded?] at h
  | _ => exact nomatch h

/-- All nodes on the workbench have been there before, but for the one that is finished. -/
theorem Outcome.holds (h : Outcome bench call reply bench') {node : Node}
    (hnode : bench'.Holds node) : bench.Holds node ∨ reply = .node node := by
  cases h with
  | opened =>
      rcases hnode with hfinished | ⟨builder, hbuilder, slot, child, hmem, hbelow⟩
      · exact .inl (.inl hfinished)
      · rcases List.mem_cons.mp hbuilder with rfl | hbuilder
        · exact nomatch hmem
        · exact .inl (.inr ⟨builder, hbuilder, slot, child, hmem, hbelow⟩)
  | @recorded _ entry top others builders named admitted =>
      left
      rcases hnode with ⟨tree, htree, hbelow⟩ | ⟨builder, hbuilder, slot, child, hmem, hbelow⟩
      · exact .inl ⟨tree, Call.mem_of_mem_spares htree, hbelow⟩
      · rcases List.mem_cons.mp hbuilder with rfl | hbuilder
        · rw [Builder.record_properties, List.mem_append] at hmem
          rcases hmem with hmem | hentry
          · exact .inr ⟨top, by simp [builders], slot, child, hmem, hbelow⟩
          · -- the child is the top finished node
            cases entry with
            | child property =>
                obtain rfl : (slot, .node child) = property := by simpa [Entry.child?] using hentry
                exact .inl ⟨child, Call.mem_of_recorded? named, hbelow⟩
            | binding named => exact nomatch hentry
        · exact .inr ⟨builder, by simp [builders, hbuilder], slot, child, hmem, hbelow⟩
  | @finished stop top others builders =>
      rcases hnode with ⟨tree, htree, hbelow⟩ | ⟨builder, hbuilder, hchild⟩
      · rcases List.mem_cons.mp htree with rfl | htree
        · rcases eq_or_below_of_contains hbelow with rfl | ⟨slot, child, hmem, hbelow⟩
          · exact .inr rfl
          · exact .inl (.inr ⟨top, by simp [builders], slot, child, hmem, hbelow⟩)
        · exact .inl (.inl ⟨tree, htree, hbelow⟩)
      · exact .inl (.inr ⟨builder, by simp [builders, hbuilder], hchild⟩)
  | idle undone unfinished =>
      rcases hnode with ⟨tree, htree, hbelow⟩ | hbuilder
      · exact .inl (.inl ⟨tree, Call.mem_of_mem_spares htree, hbelow⟩)
      · exact .inl (.inr hbuilder)

end Workbench

end PatternTree
