import PatternTree.Proofs.Layout
import PatternTree.Proofs.Workbench.Step

/-!
# Nodes on a workbench

The schema is checked against one entry at a time, and what it demands of a node as a whole follows
(`Node.Conforms`): a slot that may be filled but once is asked for in vain a second time.

What is read off a node needs no schema.  Its text is that of its children in their order, whether
the tokens are gathered child by child or handed through the tree in one list, and the children
under a name are those under the slot of that name (`Node.Spelled`).

* `Outcome.conforming` — a call puts nothing on the workbench that does not agree with the schema;
* `Node.spelled` — texts and names of any node.
-/

namespace PatternTree

/-! ## Agreement with the schema -/

namespace Node

/-- The node has only slots and attributes that its kind has, and no slot but those for many
children is filled twice. -/
structure Conforms (node : Node) : Prop where
  slots : ∀ property ∈ node.properties, property.1 ∈ node.kind.slots.map Prod.fst
  single : ∀ slot, node.kind.multiplicity? slot ≠ some .many → (node.children slot).length ≤ 1
  attributes : ∀ binding ∈ node.attributes, binding.1 ∈ node.kind.attributeNames

end Node

namespace Builder

variable {builder : Builder} {slot : Slot} {child : Child Node} {stop : Nat}

/-- A builder that has not recorded anything agrees with the schema. -/
theorem conforms_new (kind : NodeKind) (start stop : Nat) :
    ((new kind start).finish stop).Conforms where
  slots := fun _ h => absurd h List.not_mem_nil
  single := fun _ _ => Nat.zero_le 1
  attributes := fun _ h => absurd h List.not_mem_nil

/-- A slot that is free is one of the kind, and for many children or not yet filled. -/
theorem isFree_cases (h : builder.isFree slot = true) :
    slot ∈ builder.kind.slots.map Prod.fst ∧
      (builder.kind.multiplicity? slot ≠ some .many →
        ∀ property ∈ builder.properties.toList, property.1 ≠ slot) := by
  rw [isFree] at h
  cases hslot : builder.kind.multiplicity? slot with
  | none =>
      rw [hslot] at h
      exact absurd h Bool.false_ne_true
  | some multiplicity =>
      rw [hslot] at h
      obtain ⟨front, back, hsplit, -⟩ := List.lookup_eq_some_iff.mp hslot
      refine ⟨by simp [hsplit], fun hmany property hproperty => ?_⟩
      cases multiplicity with
      | many => exact absurd rfl hmany
      | _ => exact bne_iff_ne.mp (List.all_eq_true.mp h property hproperty)

/-- A builder that agrees with the schema still does after an entry that is admitted. -/
theorem conforms_record {entry : Entry} (h : (builder.finish stop).Conforms)
    (hadmitted : builder.Admits entry) : ((builder.record entry).finish stop).Conforms := by
  cases entry with
  | binding named =>
      refine ⟨h.slots, h.single, fun other hother => ?_⟩
      have hmem : other ∈ builder.attributes.toList ++ [named] := by
        simpa [finish, record, annotate] using hother
      rcases List.mem_append.mp hmem with hold | hnew
      · exact h.attributes other hold
      · rw [List.mem_singleton.mp hnew]
        exact hadmitted
  | child property =>
      obtain ⟨hlisted, hunfilled⟩ := isFree_cases hadmitted
      have hproperties : ((builder.record (.child property)).finish stop).properties
          = (builder.finish stop).properties ++ [property] := by
        simp [finish, record, extend]
      refine ⟨fun other hother => ?_, fun slot hmany => ?_, h.attributes⟩
      · rw [hproperties] at hother
        rcases List.mem_append.mp hother with hold | hnew
        · exact h.slots other hold
        · rw [List.mem_singleton.mp hnew]
          exact hlisted
      · rw [Node.children, hproperties, List.filter_append, List.map_append]
        by_cases hslot : property.1 = slot
        · -- nothing has been recorded under the slot before
          have hnone : (builder.finish stop).properties.filter (·.1 == slot) = [] := by
            rw [List.filter_eq_nil_iff]
            intro other hother hsame
            subst hslot
            exact hunfilled hmany other hother (eq_of_beq hsame)
          rw [hnone]
          simp [hslot]
        · have hother : [property].filter (·.1 == slot) = [] := by simp [hslot]
          rw [hother]
          simpa [Node.children] using h.single slot hmany

end Builder

namespace Workbench

variable {bench bench' : Workbench} {call : Call} {reply : Reply}

/-- Whatever is on the workbench agrees with the schema. -/
structure Conforming (bench : Workbench) : Prop where
  builders : ∀ builder ∈ bench.builders, ∀ stop, (builder.finish stop).Conforms
  nodes : ∀ node, bench.Holds node → node.Conforms

theorem conforming_clear : clear.Conforming where
  builders := nofun
  nodes := by
    intro node hnode
    rcases hnode with ⟨tree, htree, -⟩ | ⟨builder, hbuilder, -⟩
    · exact nomatch htree
    · exact nomatch hbuilder

/-- No call puts anything on the workbench that does not agree with the schema. -/
theorem Outcome.conforming (houtcome : Outcome bench call reply bench') (h : bench.Conforming) :
    bench'.Conforming := by
  constructor
  · cases houtcome with
    | @opened kind start =>
        exact List.forall_mem_cons.mpr ⟨Builder.conforms_new kind start, h.builders⟩
    | recorded builders named admitted =>
        obtain ⟨htop, hothers⟩ := List.forall_mem_cons.mp (builders ▸ h.builders)
        exact List.forall_mem_cons.mpr
          ⟨fun stop => Builder.conforms_record (htop stop) admitted, hothers⟩
    | finished builders =>
        exact (List.forall_mem_cons.mp (builders ▸ h.builders)).2
    | idle undone unfinished => exact h.builders
  · intro node hnode
    rcases houtcome.holds hnode with hbefore | hreply
    · exact h.nodes node hbefore
    · cases houtcome with
      | @finished stop top others builders =>
          obtain rfl := Reply.node.inj hreply
          exact h.builders top (by simp [builders]) stop
      | opened => exact nomatch hreply
      | recorded builders named admitted => exact nomatch hreply
      | idle undone unfinished => exact absurd hreply (unfinished node)

/-- All that is ever on the workbench agrees with the schema. -/
theorem Conforming.run (h : bench.Conforming) (calls : List Call) :
    (bench.run calls).2.Conforming := by
  induction calls generalizing bench with
  | nil => exact h
  | cons call calls ih => exact ih ((bench.outcome_perform call).conforming h)

end Workbench

/-! ## Texts and names -/

namespace Slot

/-- A slot is found by its name. -/
theorem ofName?_name (slot : Slot) : ofName? slot.name = some slot := by
  cases slot <;> rfl

/-- What is found by a name bears it. -/
theorem ofName?_eq_some_iff {name : String} {slot : Slot} :
    ofName? name = some slot ↔ slot.name = name := by
  constructor
  · intro h
    rw [ofName?] at h
    have hfound := List.find?_some h
    exact eq_of_beq hfound
  · intro h
    rw [← h, ofName?_name]

end Slot

namespace Node

mutual
/-- Hands a list of tokens through a tree, which puts its own behind them. -/
def pushTokens (found : List Token) : Node → List Token
  | ⟨_, _, _, properties⟩ => pushTokensOf found properties
/-- Hands a list of tokens through properties. -/
def pushTokensOf (found : List Token) : List Property → List Token
  | [] => found
  | (_, .node child) :: rest => pushTokensOf (child.pushTokens found) rest
  | (_, .token token) :: rest => pushTokensOf (found ++ [token]) rest
  | (_, .null) :: rest => pushTokensOf found rest
end

/-- Properties push their tokens if the nodes among them do. -/
theorem pushTokensOf_eq {found : List Token} {properties : List Property}
    (h : ∀ slot child, (slot, .node child) ∈ properties →
      ∀ found, child.pushTokens found = found ++ child.tokens) :
    pushTokensOf found properties = found ++ tokensOf properties := by
  induction properties generalizing found with
  | nil => exact (List.append_nil found).symm
  | cons property rest ih =>
      obtain ⟨slot, entry⟩ := property
      have hrest : ∀ found, pushTokensOf found rest = found ++ tokensOf rest :=
        fun found => ih fun slot child hchild => h slot child (List.mem_cons_of_mem _ hchild)
      cases entry with
      | node child =>
          rw [pushTokensOf, hrest, h slot child List.mem_cons_self, tokensOf, List.append_assoc]
      | token token => rw [pushTokensOf, hrest, tokensOf, List.append_assoc, List.singleton_append]
      | null => rw [pushTokensOf, hrest, tokensOf]

/-- A tree puts its tokens from left to right behind those that it is handed. -/
theorem pushTokens_eq (found : List Token) (node : Node) :
    node.pushTokens found = found ++ node.tokens := by
  induction node using Node.induction generalizing found with
  | step node ih =>
      obtain ⟨kind, span, attributes, properties⟩ := node
      rw [pushTokens, tokens]
      exact pushTokensOf_eq fun slot child recorded found => ih slot child recorded found

/-- The text of properties is that of one after the other. -/
theorem spell_eq_flatMap (properties : List Property) :
    spell properties = properties.flatMap fun property => childText property.2 := by
  induction properties with
  | nil => rfl
  | cons property rest ih =>
      obtain ⟨slot, child⟩ := property
      rw [spell_cons, ih, List.flatMap_cons]

/-- The children under a name, in source order. -/
def named (node : Node) (name : String) : List (Child Node) :=
  (node.properties.filter (·.1.name == name)).map Prod.snd

/-- A slot and its name stand for the same children. -/
theorem named_of_ofName? {name : String} {slot : Slot} (node : Node)
    (h : Slot.ofName? name = some slot) : node.named name = node.children slot := by
  have hname := Slot.ofName?_eq_some_iff.mp h
  have hsame : ∀ property : Property, (property.1.name == name) = (property.1 == slot) := by
    intro property
    by_cases hslot : property.1 = slot
    · simp [hslot, hname]
    · have hother : property.1.name ≠ name := by
        intro heq
        have hfound := Slot.ofName?_eq_some_iff.mpr heq
        exact hslot (Option.some.inj (hfound.symm.trans h))
      rw [beq_false_of_ne hother, beq_false_of_ne hslot]
  rw [named, children, funext hsame]

/-- No child stands under a name that is not the name of a slot. -/
theorem named_of_unknown {name : String} (node : Node) (h : Slot.ofName? name = none) :
    node.named name = [] := by
  rw [named, List.map_eq_nil_iff, List.filter_eq_nil_iff]
  intro property _ hname
  rw [Slot.ofName?_eq_some_iff.mpr (eq_of_beq hname)] at h
  exact nomatch h

/-- What the text of a node is made of, and what is found in the node by name. -/
structure Spelled (node : Node) : Prop where
  /-- The text of a subtree is its own, that of a token is the token, and a null has none. -/
  children : node.sourceText = node.properties.flatMap fun property => childText property.2
  tokens : node.sourceText = (node.pushTokens []).flatMap Token.text
  all : ∀ name, (Slot.ofName? name).elim [] node.children = node.named name
  first : ∀ name, (Slot.ofName? name).bind node.child? = (node.named name).head?

theorem spelled (node : Node) : node.Spelled where
  children := by rw [sourceText_eq_spell, spell_eq_flatMap]
  tokens := by rw [pushTokens_eq, List.nil_append, sourceText]
  all := by
    intro name
    cases hslot : Slot.ofName? name with
    | none => exact (node.named_of_unknown hslot).symm
    | some slot => exact (node.named_of_ofName? hslot).symm
  first := by
    intro name
    cases hslot : Slot.ofName? name with
    | none => rw [node.named_of_unknown hslot]; rfl
    | some slot => rw [node.named_of_ofName? hslot]; exact node.child?_eq_head? slot

end Node

end PatternTree
