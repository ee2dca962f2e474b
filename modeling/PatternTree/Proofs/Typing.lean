import PatternTree.Proofs.Acceptance.Literal
import PatternTree.Proofs.Fitting
import PatternTree.Proofs.Grammar.Part

/-!
# Trees are well typed

The schema says which slots a kind of node has, how often each may be filled and which
attributes are recorded.  While a text is read nothing is ever recorded that the schema forbids,
and the nodes of the tree in the end have everything that the schema demands.  On top of that,
every slot holds children of certain sorts only, and some kinds of node come in certain forms
only.

* `NodeKind.Allows` — children agree with the schema and are of the right sorts;
* `NodeKind.Forms` — what some kinds of node keep to beyond that;
* `Node.WellTyped` — both, and the attributes are those of the schema;
* `parse_well_typed` — reading never misfits, and every node of a tree is well typed.
-/

namespace PatternTree

/-! ## Sorts of children -/

/-- What stands in a slot: a node of some kind, a token, or the record that nothing was found. -/
inductive ChildSort where
  | node (kind : NodeKind)
  | token
  | null
  deriving DecidableEq

/-- The sort of a child. -/
def Child.sort : Child Node → ChildSort
  | .node inner => .node inner.kind
  | .token _ => .token
  | .null => .null

/-- The slots of a node in the order they are recorded in, with the sorts of their children. -/
abbrev Signature := List (Slot × ChildSort)

/-- The slots of a list of properties with the sorts of their children. -/
def Node.sortsOf (properties : List Property) : Signature :=
  properties.map fun property => (property.1, property.2.sort)

/-- The signature of a node. -/
def Node.signature (node : Node) : Signature :=
  sortsOf node.properties

/-! ## Well-typed nodes -/

namespace NodeKind

open Grammar in
/-- The sorts of children that a slot of a kind of node may hold. -/
def sorts : NodeKind → Slot → List ChildSort
  | .pattern, .alternatives => [.node .alternative]
  | .pattern, .flags => [.node .flags]
  | .group, .alternatives => [.node .alternative]
  | .capturingGroup, .alternatives => [.node .alternative]
  | .alternative, .elements => .node .quantifier :: atomKinds.map .node
  | .character, .escape => [.node .escapeSequence]
  | .characterClass, .negateToken => [.token, .null]
  | .characterClass, .elements => classElementKinds.map .node
  | .characterClassRange, .min => [.node .character]
  | .characterClassRange, .max => [.node .character]
  | .quantifier, .element => atomKinds.map .node
  | .quantifier, .min => [.node .unsignedInteger]
  | .quantifier, .separator => [.token, .null]
  | .quantifier, .max => [.node .unsignedInteger, .null]
  | .escapeSequence, .code => [.token, .node .escapeCode]
  | .escapeCode, .openToken => [.token, .null]
  | .escapeCode, .closeToken => [.token, .null]
  | .unsignedInteger, .digits => [.node .digit]
  | _, _ => [.token]

/-- The place of a slot in the order of the schema.  Alternatives and the bars between them share
a place. -/
def rank (kind : NodeKind) (slot : Slot) : Nat :=
  (kind.slots.map Prod.fst).idxOf (if slot = .separatorTokens then .alternatives else slot)

/-- The signature agrees with the schema. -/
structure Allows (kind : NodeKind) (signature : Signature) : Prop where
  /-- A slot for one child is filled once. -/
  one : ∀ entry ∈ kind.slots, entry.2 = .one → (signature.map Prod.fst).count entry.1 = 1
  /-- A slot for an optional child is filled at most once. -/
  optional : ∀ entry ∈ kind.slots, entry.2 = .optional →
    (signature.map Prod.fst).count entry.1 ≤ 1
  /-- No other slots are filled. -/
  known : ∀ entry ∈ signature, (kind.multiplicity? entry.1).isSome = true
  /-- The slots come in the order of the schema. -/
  ordered : (signature.map fun entry => kind.rank entry.1).Pairwise (· ≤ ·)
  /-- The children are of the right sorts. -/
  sorted : ∀ entry ∈ signature, entry.2 ∈ kind.sorts entry.1

instance (kind : NodeKind) (signature : Signature) : Decidable (kind.Allows signature) :=
  decidable_of_iff
    ((∀ entry ∈ kind.slots, entry.2 = .one → (signature.map Prod.fst).count entry.1 = 1) ∧
      (∀ entry ∈ kind.slots, entry.2 = .optional →
        (signature.map Prod.fst).count entry.1 ≤ 1) ∧
      (∀ entry ∈ signature, (kind.multiplicity? entry.1).isSome = true) ∧
      (signature.map fun entry => kind.rank entry.1).Pairwise (· ≤ ·) ∧
      ∀ entry ∈ signature, entry.2 ∈ kind.sorts entry.1)
    ⟨fun ⟨one, optional, known, ordered, sorted⟩ => ⟨one, optional, known, ordered, sorted⟩,
      fun ⟨one, optional, known, ordered, sorted⟩ => ⟨one, optional, known, ordered, sorted⟩⟩

end NodeKind

/-- Alternatives and bars strictly alternate, and an alternative comes first and last. -/
def alternates : List Slot → Bool
  | [.alternatives] => true
  | .alternatives :: .separatorTokens :: rest => alternates rest
  | _ => false

/-- The slots that record the bounds of a quantifier in braces. -/
def bracedSlots : List Slot :=
  [.openToken, .min, .separator, .max, .closeToken]

/-- What the signatures of some kinds of node keep to beyond the schema.  A body alternates.  A
quantifier has either a sigil or bounds in braces, and an upper bound only behind a separator.  A
character is either plain or an escape.  A code has both braces or none.  A number has digits. -/
def NodeKind.Forms : NodeKind → Signature → Prop
  | .pattern, signature | .group, signature | .capturingGroup, signature =>
    alternates ((signature.map Prod.fst).filter
      fun slot => slot = .alternatives ∨ slot = .separatorTokens) = true
  | .quantifier, signature =>
    (signature.map Prod.fst = [.element, .sigilToken] ∨
      signature.map Prod.fst = .element :: bracedSlots) ∧
      ((.separator, .null) ∈ signature → (.max, .null) ∈ signature)
  | .character, signature =>
    signature.map Prod.fst = [.value] ∨ signature.map Prod.fst = [.escape]
  | .escapeCode, signature =>
    signature.map Prod.fst = [.type, .openToken, .value, .closeToken] ∧
      ((.openToken, .null) ∈ signature ↔ (.closeToken, .null) ∈ signature)
  | .unsignedInteger, signature => signature ≠ []
  | _, _ => True

/-- A node whose children agree with the schema and whose attributes are those of its kind. -/
structure Node.WellTyped (node : Node) : Prop where
  allowed : node.kind.Allows node.signature
  formed : node.kind.Forms node.signature
  attributes : node.attributes.map Prod.fst = node.kind.attributeNames

/-- A node is well typed if its signature and attributes are known to agree with its kind. -/
theorem Node.wellTyped_bare {kind : NodeKind} {attributes : List (AttributeName × Attribute)}
    {properties : List Property} (signature : Signature)
    (hsignature : sortsOf properties = signature) (allowed : kind.Allows signature)
    (formed : kind.Forms signature) (hattributes : attributes.map Prod.fst = kind.attributeNames) :
    (Node.bare kind attributes properties).WellTyped := by
  subst hsignature
  exact ⟨allowed, formed, hattributes⟩

/-! ## Layouts keep types -/

/-- A layout leaves the signature alone. -/
@[simp] theorem Node.signature_place (start : Nat) (node : Node) :
    (node.place start).signature = node.signature := by
  have hall : ∀ (start : Nat) (properties : List Property),
      sortsOf (placeAll start properties) = sortsOf properties := by
    intro start properties
    induction properties generalizing start with
    | nil => rfl
    | cons property rest ih =>
        obtain ⟨slot, child⟩ := property
        have hsort : (placeChild start child).sort = child.sort := by
          cases child with
          | node child => exact congrArg ChildSort.node (place_kind start child)
          | token token => rfl
          | null => rfl
        have htail := ih (start + Text.byteLength (childText child))
        simp only [sortsOf] at htail ⊢
        rw [placeAll_cons, List.map_cons, List.map_cons, hsort, htail]
  rw [signature, place_properties, hall]
  rfl

theorem Node.WellTyped.place {node : Node} (h : node.WellTyped) (start : Nat) :
    (node.place start).WellTyped where
  allowed := by
    rw [Node.place_kind, Node.signature_place]
    exact h.allowed
  formed := by
    rw [Node.place_kind, Node.signature_place]
    exact h.formed
  attributes := by
    rw [Node.place_kind, Node.place_attributes]
    exact h.attributes

/-! ## Runs of children -/

theorem NodeKind.multiplicity?_of_mem {kind : NodeKind} {entry : Slot × Multiplicity}
    (h : entry ∈ kind.slots) : kind.multiplicity? entry.1 = some entry.2 := by
  revert entry
  cases kind <;> decide

/-- Children of slots that hold many of them may be put in between, where the order of the schema
has them. -/
theorem NodeKind.Allows.insert {kind : NodeKind} (front back : Signature) {middle : Signature}
    (place : Nat)
    (h : kind.Allows (front ++ back))
    (many : ∀ entry ∈ middle, kind.multiplicity? entry.1 = some .many ∧
      kind.rank entry.1 = place ∧ entry.2 ∈ kind.sorts entry.1)
    (before : ∀ entry ∈ front, kind.rank entry.1 ≤ place)
    (behind : ∀ entry ∈ back, place ≤ kind.rank entry.1) :
    kind.Allows (front ++ (middle ++ back)) := by
  have hcount : ∀ slot, kind.multiplicity? slot ≠ some .many →
      ((front ++ (middle ++ back)).map Prod.fst).count slot
        = ((front ++ back).map Prod.fst).count slot := by
    intro slot hslot
    have habsent : slot ∉ middle.map Prod.fst := by
      intro hmem
      obtain ⟨entry, hentry, rfl⟩ := List.mem_map.mp hmem
      exact hslot (many entry hentry).1
    simp only [List.map_append, List.count_append, List.count_eq_zero.mpr habsent, Nat.zero_add]
  have hmem : ∀ entry, entry ∈ front ++ (middle ++ back) →
      entry ∈ middle ∨ entry ∈ front ++ back := by
    intro entry hentry
    rw [List.mem_append, List.mem_append] at hentry
    rcases hentry with hentry | hentry | hentry
    · exact .inr (List.mem_append_left back hentry)
    · exact .inl hentry
    · exact .inr (List.mem_append_right front hentry)
  refine ⟨?_, ?_, ?_, ?_, ?_⟩
  · intro entry hentry hone
    rw [hcount _ (by rw [NodeKind.multiplicity?_of_mem hentry, hone]; decide)]
    exact h.one entry hentry hone
  · intro entry hentry hoptional
    rw [hcount _ (by rw [NodeKind.multiplicity?_of_mem hentry, hoptional]; decide)]
    exact h.optional entry hentry hoptional
  · intro entry hentry
    rcases hmem entry hentry with hentry | hentry
    · rw [(many entry hentry).1]
      rfl
    · exact h.known entry hentry
  · have hordered := h.ordered
    rw [List.pairwise_map] at hordered ⊢
    obtain ⟨hfront, hback, hcross⟩ := List.pairwise_append.mp hordered
    refine List.pairwise_append.mpr ⟨hfront, List.pairwise_append.mpr ⟨?_, hback, ?_⟩, ?_⟩
    · exact List.pairwise_of_forall_mem_list fun entry hentry other hother =>
        Nat.le_of_eq ((many entry hentry).2.1.trans (many other hother).2.1.symm)
    · intro entry hentry other hother
      rw [(many entry hentry).2.1]
      exact behind other hother
    · intro entry hentry other hother
      rcases List.mem_append.mp hother with hother | hother
      · rw [(many other hother).2.1]
        exact before entry hentry
      · exact hcross entry hentry other hother
  · intro entry hentry
    rcases hmem entry hentry with hentry | hentry
    · exact (many entry hentry).2.2
    · exact h.sorted entry hentry

/-- A node may consist of children of slots that hold many of them only. -/
theorem NodeKind.Allows.of_many {kind : NodeKind} {middle : Signature} (place : Nat)
    (h : kind.Allows [])
    (many : ∀ entry ∈ middle, kind.multiplicity? entry.1 = some .many ∧
      kind.rank entry.1 = place ∧ entry.2 ∈ kind.sorts entry.1) : kind.Allows middle := by
  have hinsert := NodeKind.Allows.insert [] [] place h many
    (fun _ hentry => nomatch hentry) (fun _ hentry => nomatch hentry)
  rwa [List.nil_append, List.append_nil] at hinsert

namespace Grammar

open Production (bodyKinds)

/-! ## Bodies -/

/-- The signature of a body with the given number of bars. -/
def bodySignature : Nat → Signature
  | 0 => [(.alternatives, .node .alternative)]
  | bars + 1 =>
    (.alternatives, .node .alternative) :: (.separatorTokens, .token) :: bodySignature bars

theorem sortsOf_bodyProperties (first : List Item) (others : List (List Item)) :
    Node.sortsOf (bodyProperties first others) = bodySignature others.length := by
  induction others generalizing first with
  | nil => rfl
  | cons items others ih =>
      have hrest := ih items
      simp only [bodyProperties, otherProperties, Node.sortsOf, List.map_cons,
        List.length_cons, bodySignature] at hrest ⊢
      rw [← hrest]
      rfl

/-- A body consists of alternatives and bars. -/
theorem mem_bodySignature {bars : Nat} {entry : Slot × ChildSort} (h : entry ∈ bodySignature bars) :
    entry ∈ [(.alternatives, .node .alternative), (.separatorTokens, .token)] := by
  induction bars with
  | zero =>
      rw [List.mem_singleton.mp h]
      exact List.mem_cons_self
  | succ bars ih =>
      rcases List.mem_cons.mp h with rfl | h
      · exact List.mem_cons_self
      · rcases List.mem_cons.mp h with rfl | h
        · exact List.mem_cons_of_mem _ List.mem_cons_self
        · exact ih h

/-- A body alternates. -/
theorem alternates_bodySignature (bars : Nat) :
    alternates (((bodySignature bars).map Prod.fst).filter
      fun slot => slot = .alternatives ∨ slot = .separatorTokens) = true := by
  induction bars with
  | zero => rfl
  | succ bars ih => exact ih

/-- Alternatives and bars may be recorded again and again, in one place. -/
theorem many_body : ∀ kind ∈ bodyKinds,
    ∀ entry ∈ [(.alternatives, ChildSort.node .alternative), (.separatorTokens, .token)],
      kind.multiplicity? entry.1 = some .many ∧ kind.rank entry.1 = 1 ∧
        entry.2 ∈ kind.sorts entry.1 := by
  decide

/-- A body may stand behind an opener and before whatever else the schema demands. -/
theorem allows_body {kind : NodeKind} (hkind : kind ∈ bodyKinds) {back : Signature} (bars : Nat)
    (h : kind.Allows ((.openToken, .token) :: back))
    (behind : ∀ entry ∈ back, 1 ≤ kind.rank entry.1) :
    kind.Allows ((.openToken, .token) :: (bodySignature bars ++ back)) := by
  have hbefore : ∀ kind ∈ bodyKinds, ∀ entry ∈ [(Slot.openToken, ChildSort.token)],
      kind.rank entry.1 ≤ 1 := by decide
  exact NodeKind.Allows.insert [(.openToken, .token)] back 1 h
    (fun entry hentry => many_body kind hkind entry (mem_bodySignature hentry))
    (hbefore kind hkind) behind

/-- Between an opener and a closer, a body alternates. -/
theorem alternates_body (bars : Nat) {back : Signature}
    (hback : ∀ entry ∈ back, entry.1 ≠ .alternatives ∧ entry.1 ≠ .separatorTokens) :
    alternates ((((.openToken, .token) :: (bodySignature bars ++ back)).map Prod.fst).filter
      fun slot => slot = .alternatives ∨ slot = .separatorTokens) = true := by
  have hnone : (back.map Prod.fst).filter
      (fun slot => slot = .alternatives ∨ slot = .separatorTokens) = [] := by
    simpa [List.filter_eq_nil_iff] using hback
  rw [List.map_cons, List.map_append, List.filter_cons_of_neg (by decide), List.filter_append,
    hnone, List.append_nil]
  exact alternates_bodySignature bars

/-! ## The trees of derivations -/

theorem wellTyped_group (capturing : Bool) (first : List Item) (others : List (List Item)) :
    (Atom.group capturing first others).tree.WellTyped := by
  have hkind : groupKind capturing ∈ bodyKinds := by cases capturing <;> decide
  have hsignature : Node.sortsOf ((.openToken, .token (.opening (opener capturing) ')' none))
      :: (bodyProperties first others ++ [(.closeToken, .token (.closing ')'))]))
      = (.openToken, .token) :: (bodySignature others.length ++ [(.closeToken, .token)]) := by
    rw [← sortsOf_bodyProperties first]
    simp [Node.sortsOf, Child.sort]
  rw [Atom.tree_group]
  refine Node.wellTyped_bare _ hsignature (allows_body hkind _ ?_ ?_) ?_ ?_
  · cases capturing <;> decide
  · cases capturing <;> decide
  · cases capturing <;> exact alternates_body _ (by decide)
  · cases capturing <;> rfl

theorem Literal.wellTyped (literal : Literal) : literal.tree.WellTyped := by
  have hsignature : literal.tree.signature
      = (.openToken, .token) :: (bodySignature literal.others.length
        ++ [(.closeToken, .token), (.flags, .node .flags)]) := by
    rw [Literal.tree, Node.signature, Node.bare_properties, ← sortsOf_bodyProperties literal.first]
    simp [Node.sortsOf, Child.sort, flagsTree]
  refine Node.wellTyped_bare _ hsignature (allows_body (by decide) _ (by decide) (by decide)) ?_ rfl
  exact alternates_body _ (by decide)

theorem wellTyped_flagsTree (letters : List Char) : (flagsTree letters).WellTyped := by
  have hmany : ∀ entry ∈ (flagsTree letters).signature,
      NodeKind.flags.multiplicity? entry.1 = some .many ∧ NodeKind.flags.rank entry.1 = 0 ∧
        entry.2 ∈ NodeKind.flags.sorts entry.1 := by
    intro entry hentry
    simp only [Node.signature, flagsTree, Node.bare_properties, Node.sortsOf, List.map_map,
      List.mem_map] at hentry
    obtain ⟨c, -, rfl⟩ := hentry
    exact ⟨rfl, rfl, List.mem_singleton.mpr rfl⟩
  refine Node.wellTyped_bare _ rfl (.of_many 0 (by decide) hmany) trivial ?_
  simp [flagSettings, NodeKind.attributeNames]

theorem wellTyped_alternativeTree (items : List Item) : (alternativeTree items).WellTyped := by
  have hmany : ∀ entry ∈ (alternativeTree items).signature,
      NodeKind.alternative.multiplicity? entry.1 = some .many ∧
        NodeKind.alternative.rank entry.1 = 0 ∧
        entry.2 ∈ NodeKind.alternative.sorts entry.1 := by
    intro entry hentry
    simp only [Node.signature, alternativeTree, Node.bare_properties, itemProperties_eq,
      Node.sortsOf, List.map_map, List.mem_map] at hentry
    obtain ⟨item, -, rfl⟩ := hentry
    exact ⟨rfl, rfl, List.mem_map_of_mem (kind_itemTree_mem item)⟩
  exact Node.wellTyped_bare _ rfl (.of_many 0 (by decide) hmany) trivial rfl

theorem Count.wellTyped (count : Count) : count.tree.WellTyped := by
  have hmany : ∀ entry ∈ count.tree.signature,
      NodeKind.unsignedInteger.multiplicity? entry.1 = some .many ∧
        NodeKind.unsignedInteger.rank entry.1 = 0 ∧
        entry.2 ∈ NodeKind.unsignedInteger.sorts entry.1 := by
    intro entry hentry
    simp only [Node.signature, Count.tree, Node.bare_properties, digitsProperties,
      Node.sortsOf, List.map_map, List.mem_map] at hentry
    obtain ⟨c, -, rfl⟩ := hentry
    exact ⟨rfl, rfl, List.mem_singleton.mpr rfl⟩
  refine Node.wellTyped_bare _ rfl (.of_many 0 (by decide) hmany) ?_ rfl
  simp [NodeKind.Forms, digitsProperties, Node.sortsOf, count.nonempty]

theorem wellTyped_classTree (negated : Bool) (units : List ClassUnit) :
    (classTree negated units).WellTyped := by
  have hmany : ∀ entry ∈ Node.sortsOf (elementProperties (pair (caret negated units).2)),
      NodeKind.characterClass.multiplicity? entry.1 = some .many ∧
        NodeKind.characterClass.rank entry.1 = 2 ∧
        entry.2 ∈ NodeKind.characterClass.sorts entry.1 := by
    intro entry hentry
    simp only [elementProperties, Node.sortsOf, List.map_map, List.mem_map] at hentry
    obtain ⟨element, -, rfl⟩ := hentry
    exact ⟨rfl, rfl, List.mem_map_of_mem element.kind_mem⟩
  have hsignature : (classTree negated units).signature
      = [(.openToken, .token), (.negateToken, (caretChild (caret negated units).1).sort)]
        ++ (Node.sortsOf (elementProperties (pair (caret negated units).2))
          ++ [(.closeToken, .token)]) := by
    simp [classTree, Node.signature, Node.sortsOf, Child.sort]
  refine Node.wellTyped_bare _ hsignature (.insert _ _ 2 ?_ hmany ?_ ?_) trivial rfl <;>
    cases (caret negated units).1 <;> decide

/-- The kinds of node that a keyword names. -/
def keywordKinds : List NodeKind :=
  [.wordBoundaryAssertion, .gap, .digitCharacterSet, .spaceCharacterSet, .wordCharacterSet]

theorem wellTyped_keywordTree (letter : Char) : (keywordTree letter).WellTyped := by
  have hkind : keywordKind letter ∈ keywordKinds := by
    unfold keywordKind
    repeat' split
    all_goals decide
  unfold keywordTree
  generalize keywordKind letter = kind at hkind
  simp only [keywordKinds, List.mem_cons, List.not_mem_nil, or_false] at hkind
  rcases hkind with rfl | rfl | rfl | rfl | rfl <;>
    exact Node.wellTyped_bare [(.escapeToken, .token), (.value, .token)] rfl (by decide) trivial rfl

theorem wellTyped_digitTree (c : Char) : (digitTree c).WellTyped :=
  Node.wellTyped_bare [(.value, .token)] rfl (by decide) trivial rfl

theorem Code.wellTyped (code : Code) : code.tree.WellTyped := by
  cases code with
  | byte digits hex size =>
      exact Node.wellTyped_bare
        [(.type, .token), (.openToken, .null), (.value, .token), (.closeToken, .null)] rfl
        (by decide) ⟨rfl, by decide⟩ rfl
  | quad digits hex size =>
      exact Node.wellTyped_bare
        [(.type, .token), (.openToken, .null), (.value, .token), (.closeToken, .null)] rfl
        (by decide) ⟨rfl, by decide⟩ rfl
  | braced digits hex size bounded =>
      exact Node.wellTyped_bare
        [(.type, .token), (.openToken, .token), (.value, .token), (.closeToken, .token)] rfl
        (by decide) ⟨rfl, by decide⟩ rfl

theorem Escape.wellTyped {region : Region} (inner : Escape region) : inner.tree.WellTyped := by
  cases inner with
  | single c known =>
      exact Node.wellTyped_bare [(.escape, .token), (.code, .token)] rfl (by decide) trivial rfl
  | coded code =>
      exact Node.wellTyped_bare [(.escape, .token), (.code, .node .escapeCode)] rfl (by decide)
        trivial rfl

theorem Character.wellTyped {region : Region} (inner : Character region) :
    inner.tree.WellTyped := by
  cases inner with
  | plain c free =>
      exact Node.wellTyped_bare [(.value, .token)] rfl (by decide) (.inl rfl) rfl
  | escape inner =>
      exact Node.wellTyped_bare [(.escape, .node .escapeSequence)] rfl (by decide) (.inr rfl) rfl

theorem ClassElement.wellTyped (element : ClassElement) : element.tree.WellTyped := by
  cases element with
  | unit inner =>
      cases inner with
      | character inner => exact inner.wellTyped
      | keyword letter known => exact wellTyped_keywordTree letter
  | range lower upper =>
      refine Node.wellTyped_bare
        [(.min, .node .character), (.sigilToken, .token), (.max, .node .character)] ?_ (by decide)
        trivial rfl
      simp [Node.sortsOf, Child.sort, lower.kind_tree, upper.kind_tree]

theorem Atom.wellTyped (atom : Atom) : atom.tree.WellTyped := by
  cases atom with
  | character inner =>
      rw [Atom.tree]
      exact inner.wellTyped
  | keyword letter known =>
      rw [Atom.tree]
      exact wellTyped_keywordTree letter
  | sigil c known =>
      rw [Atom.tree, sigilKind]
      repeat' split
      all_goals exact Node.wellTyped_bare [(.sigilToken, .token)] rfl (by decide) trivial rfl
  | charClass negated units =>
      rw [Atom.tree]
      exact wellTyped_classTree negated units
  | group capturing first others => exact wellTyped_group capturing first others

/-- Whatever atom stands under a quantifier, the children behind it decide. -/
theorem wellTyped_quantified {atom : Atom} {bounds : Bounds} {properties : List Property}
    (tail : Signature) (htail : Node.sortsOf properties = tail)
    (allowed : ∀ kind ∈ atomKinds, NodeKind.quantifier.Allows ((.element, .node kind) :: tail))
    (formed : ∀ kind ∈ atomKinds, NodeKind.quantifier.Forms ((.element, .node kind) :: tail)) :
    (Node.bare .quantifier bounds.attributes
      ((.element, .node atom.tree) :: properties)).WellTyped := by
  refine Node.wellTyped_bare ((.element, .node atom.tree.kind) :: tail) ?_
    (allowed _ atom.kind_mem) (formed _ atom.kind_mem) rfl
  rw [← htail]
  rfl

theorem wellTyped_itemTree (item : Item) : (itemTree item).WellTyped := by
  obtain ⟨atom, quantifier⟩ := item
  cases quantifier with
  | none => exact atom.wellTyped
  | some quantifier =>
      cases quantifier with
      | sigil c known =>
          exact wellTyped_quantified [(.sigilToken, .token)] rfl (by decide)
            fun _ _ => ⟨.inl rfl, by simp⟩
      | exactly count =>
          exact wellTyped_quantified
            [(.openToken, .token), (.min, .node .unsignedInteger), (.separator, .null),
              (.max, .null), (.closeToken, .token)] rfl (by decide) fun _ _ => ⟨.inr rfl, by simp⟩
      | atLeast least =>
          exact wellTyped_quantified
            [(.openToken, .token), (.min, .node .unsignedInteger), (.separator, .token),
              (.max, .null), (.closeToken, .token)] rfl (by decide) fun _ _ => ⟨.inr rfl, by simp⟩
      | between least most ordered =>
          exact wellTyped_quantified
            [(.openToken, .token), (.min, .node .unsignedInteger), (.separator, .token),
              (.max, .node .unsignedInteger), (.closeToken, .token)] rfl (by decide)
            fun _ _ => ⟨.inr rfl, by simp⟩

/-- Every part is well typed. -/
theorem Part.wellTyped {node : Node} (h : Part node) : node.WellTyped := by
  cases h with
  | literal inner admissible => exact inner.wellTyped
  | flags letters => exact wellTyped_flagsTree letters
  | alternative items admissible => exact wellTyped_alternativeTree items
  | item inner admissible => exact wellTyped_itemTree inner
  | classElement inner => exact inner.wellTyped
  | character inner => exact inner.wellTyped
  | escape inner => exact inner.wellTyped
  | code inner => exact inner.wellTyped
  | count inner => exact inner.wellTyped
  | digit c => exact wellTyped_digitTree c

end Grammar

/-! ## Trees that are read -/

/-- What a laid-out tree contains is well typed if all parts of the tree are. -/
theorem wellTyped_of_part {root node : Node} {start : Nat} (h : Grammar.Part root)
    (hnode : (root.place start).Contains node) : node.WellTyped := by
  obtain ⟨original, front, back, hbelow, -, rfl⟩ := Node.contains_place hnode
  exact (h.of_contains hbelow).wellTyped.place _

/-- **Reading keeps to the schema.**  No text makes it record what the schema forbids, and every
node of a tree that is read is well typed. -/
theorem parse_well_typed (text : List Char) :
    (∀ cause, parse text ≠ .error (.misfit cause)) ∧
      (∀ cause, parseFlags text ≠ .error (.misfit cause)) ∧
      ∀ tree, parse text = .ok tree ∨ parseFlags text = .ok tree →
        ∀ node, tree.Contains node → node.WellTyped := by
  refine ⟨Production.fits_iff.mp (parse_fits text), Production.fits_iff.mp (parseFlags_fits text),
    ?_⟩
  rintro tree (h | h) node hnode
  · obtain ⟨literal, hadmissible, -, rfl⟩ := parse_eq_ok_iff.mp h
    exact wellTyped_of_part (.literal literal hadmissible) hnode
  · obtain ⟨-, -, rfl⟩ := parseFlags_eq_ok_iff.mp h
    exact wellTyped_of_part (.flags text) hnode

/-- A literal with nodes of most kinds. -/
theorem well_typed_example :
    ∃ tree, parse "/^(?:a|\\x41|)\x7b2,\x7d[^x-z\\d]*|(\\b.)\x7b3\x7d/gi".toList = .ok tree ∧
      ∀ node, tree.Contains node → node.WellTyped := by
  have hok : (parse "/^(?:a|\\x41|)\x7b2,\x7d[^x-z\\d]*|(\\b.)\x7b3\x7d/gi".toList).isOk
      = true := by decide +kernel
  obtain ⟨tree, htree⟩ := Production.exists_ok_of_isOk hok
  exact ⟨tree, htree, (parse_well_typed _).2.2 tree (.inl htree)⟩

end PatternTree
