import PatternTree.Proofs.Acceptance.Literal
import PatternTree.Proofs.Grammar.Part

/-!
# Delimiters and escapes are balanced

Read from left to right, the delimiters of a tree match like parentheses, and the two of a pair
always stand in one node.  The scan that checks this keeps a stack of the delimiters that are
open, each with what has to close it and the node that it stands in (`Leaf.scan?`).  Over a node
whose own delimiters are paired the scan leaves the stack as it was, provided that it does so over
the child nodes; so it does over a whole tree (`Node.scan_leaves`).  The region of an escape is
open for a single token at most (`Escapes`).

* `Node.leaves` — the tokens of a tree with the places they are recorded in;
* `Balanced` — what holds of the delimiters and escapes of a tree;
* `parse_balanced` — it holds of the trees of all pattern literals.
-/

namespace PatternTree

/-! ## Leaves -/

/-- A token with its place in a tree. -/
structure Leaf where
  /-- The numbers of the children that lead from the root to the node of the token. -/
  path : List Nat
  /-- The node that the token is recorded in. -/
  owner : Node
  slot : Slot
  token : Token

namespace Node

mutual
/-- The tokens of a tree with their places, from left to right. -/
def leaves (path : List Nat) : Node → List Leaf
  | ⟨kind, span, attributes, properties⟩ =>
    leavesOf path ⟨kind, span, attributes, properties⟩ 0 properties
/-- The tokens of properties with their places, from left to right, where the properties are
those of `owner` from the given number on. -/
def leavesOf (path : List Nat) (owner : Node) (index : Nat) : List Property → List Leaf
  | [] => []
  | (_, .node child) :: rest =>
    child.leaves (path ++ [index]) ++ leavesOf path owner (index + 1) rest
  | (slot, .token token) :: rest =>
    ⟨path, owner, slot, token⟩ :: leavesOf path owner (index + 1) rest
  | (_, .null) :: rest => leavesOf path owner (index + 1) rest
end

/-- The leaves of a node are those of its properties. -/
theorem leaves_eq (path : List Nat) (node : Node) :
    node.leaves path = leavesOf path node 0 node.properties := by
  cases node
  rw [leaves]

theorem leavesOf_append (path : List Nat) (owner : Node) (index : Nat)
    (front back : List Property) :
    leavesOf path owner index (front ++ back)
      = leavesOf path owner index front ++ leavesOf path owner (index + front.length) back := by
  induction front generalizing index with
  | nil => simp [leavesOf]
  | cons property rest ih =>
      obtain ⟨slot, child⟩ := property
      have hindex : index + 1 + rest.length = index + (rest.length + 1) := by omega
      cases child <;> simp [leavesOf, ih, hindex]

mutual
/-- The leaves of a tree are its tokens. -/
theorem map_token_leaves (path : List Nat) : ∀ node : Node,
    (node.leaves path).map Leaf.token = node.tokens
  | ⟨kind, span, attributes, properties⟩ => by
      rw [leaves, tokens, map_token_leavesOf path _ 0 properties]
/-- The leaves of properties are their tokens. -/
theorem map_token_leavesOf (path : List Nat) (owner : Node) (index : Nat) :
    ∀ properties : List Property,
    (leavesOf path owner index properties).map Leaf.token = tokensOf properties
  | [] => by rw [leavesOf, tokensOf, List.map_nil]
  | (_, .node child) :: rest => by
      rw [leavesOf, tokensOf, List.map_append, map_token_leaves (path ++ [index]) child,
        map_token_leavesOf path owner (index + 1) rest]
  | (_, .token token) :: rest => by
      rw [leavesOf, tokensOf, List.map_cons, map_token_leavesOf path owner (index + 1) rest]
  | (_, .null) :: rest => by
      rw [leavesOf, tokensOf, map_token_leavesOf path owner (index + 1) rest]
end

/-- The node that a path leads to. -/
def descend (node : Node) : List Nat → Option Node
  | [] => some node
  | index :: path =>
    match node.properties[index]? with
    | some (_, .node child) => child.descend path
    | _ => none

theorem descend_append (node : Node) (front back : List Nat) :
    node.descend (front ++ back) = (node.descend front).bind (·.descend back) := by
  induction front generalizing node with
  | nil => rfl
  | cons index front ih =>
      rw [List.cons_append, descend, descend]
      split
      · exact ih _
      · rfl

mutual
/-- A leaf is recorded in the node that its path leads to. -/
theorem descend_of_mem_leaves {root : Node} {leaf : Leaf} (path : List Nat) :
    ∀ node : Node, root.descend path = some node → leaf ∈ node.leaves path →
      root.descend leaf.path = some leaf.owner ∧
        (leaf.slot, .token leaf.token) ∈ leaf.owner.properties
  | ⟨kind, span, attributes, properties⟩, hnode, hmem => by
      rw [leaves] at hmem
      exact descend_of_mem_leavesOf path _ [] properties rfl hnode hmem
/-- A leaf of a node is recorded in the node that its path leads to. -/
theorem descend_of_mem_leavesOf {root : Node} {leaf : Leaf} (path : List Nat) (owner : Node)
    (before : List Property) : ∀ properties : List Property,
    owner.properties = before ++ properties → root.descend path = some owner →
      leaf ∈ leavesOf path owner before.length properties →
      root.descend leaf.path = some leaf.owner ∧
        (leaf.slot, .token leaf.token) ∈ leaf.owner.properties
  | [], _, _, hmem => by simp [leavesOf] at hmem
  | (slot, .node child) :: rest, hsplit, howner, hmem => by
      have hchild : root.descend (path ++ [before.length]) = some child := by
        rw [descend_append, howner, Option.bind_some, descend, hsplit,
          List.getElem?_append_right (Nat.le_refl _), Nat.sub_self]
        rfl
      rw [leavesOf] at hmem
      rcases List.mem_append.mp hmem with hmem | hmem
      · exact descend_of_mem_leaves (path ++ [before.length]) child hchild hmem
      · exact descend_of_mem_leavesOf path owner (before ++ [(slot, .node child)]) rest
          (by simp [hsplit]) howner (by simpa using hmem)
  | (slot, .token token) :: rest, hsplit, howner, hmem => by
      rw [leavesOf] at hmem
      rcases List.mem_cons.mp hmem with rfl | hmem
      · exact ⟨howner, by simp [hsplit]⟩
      · exact descend_of_mem_leavesOf path owner (before ++ [(slot, .token token)]) rest
          (by simp [hsplit]) howner (by simpa using hmem)
  | (slot, .null) :: rest, hsplit, howner, hmem => by
      rw [leavesOf] at hmem
      exact descend_of_mem_leavesOf path owner (before ++ [(slot, .null)]) rest
        (by simp [hsplit]) howner (by simpa using hmem)
end

/-! ## Conditions on the tokens of a node -/

/-- Every token that is recorded meets a condition. -/
def EachToken (P : Token → Prop) (properties : List Property) : Prop :=
  ∀ slot token, (slot, .token token) ∈ properties → P token

section EachToken

variable {P : Token → Prop}

@[simp] theorem eachToken_nil : EachToken P [] := fun _ _ h => nomatch h

@[simp] theorem eachToken_append (front back : List Property) :
    EachToken P (front ++ back) ↔ EachToken P front ∧ EachToken P back := by
  simp only [EachToken, List.mem_append, or_imp, forall_and]

@[simp] theorem eachToken_node (slot : Slot) (child : Node) (rest : List Property) :
    EachToken P ((slot, .node child) :: rest) ↔ EachToken P rest := by
  simp [EachToken]

@[simp] theorem eachToken_token (slot : Slot) (token : Token) (rest : List Property) :
    EachToken P ((slot, .token token) :: rest) ↔ P token ∧ EachToken P rest := by
  simp [EachToken, or_imp, forall_and]

@[simp] theorem eachToken_null (slot : Slot) (rest : List Property) :
    EachToken P ((slot, .null) :: rest) ↔ EachToken P rest := by
  simp [EachToken]

/-- Where only nodes are recorded there are no tokens. -/
@[simp] theorem eachToken_map_node {α : Type} (slot : Slot) (tree : α → Node) (list : List α) :
    EachToken P (list.map fun a => (slot, .node (tree a))) := by
  simp [EachToken]

/-- A condition that does not depend on spans still holds after a layout. -/
theorem EachToken.placeAll (hplace : ∀ start token, P token → P (token.place start)) {start : Nat}
    {properties : List Property} (h : EachToken P properties) :
    EachToken P (placeAll start properties) := by
  intro slot token hmem
  obtain ⟨front, original, back, hsplit, rfl⟩ := token_mem_placeAll hmem
  exact hplace _ _ (h slot original (by simp [hsplit]))

end EachToken

end Node

/-! ## Delimiters -/

/-- One step of the scan for delimiters.  A token that opens one is put on the stack with its
node; a token that closes one has to be spelled as the top of the stack demands and to close the
node that opened it. -/
def Leaf.scan? (stack : List (Char × List Nat)) (leaf : Leaf) : Option (List (Char × List Nat)) :=
  match leaf.token.balanced, leaf.token.balancer, stack with
  | some closer, false, stack =>
    if leaf.slot = .openToken then some ((closer, leaf.path) :: stack) else none
  | none, true, (closer, path) :: stack =>
    if leaf.token.text = [closer] ∧ leaf.slot = .closeToken ∧ leaf.path = path then some stack
    else none
  | none, false, stack => some stack
  | _, _, _ => none

namespace Token

/-- The token neither opens nor closes a delimiter. -/
def Undelimiting (token : Token) : Prop :=
  token.balanced = none ∧ token.balancer = false

/-- The token opens a delimiter that the given character closes. -/
def Opens (closer : Char) (token : Token) : Prop :=
  token.balanced = some closer ∧ token.balancer = false

/-- The token is the given character and closes a delimiter. -/
def Closes (closer : Char) (token : Token) : Prop :=
  token.balanced = none ∧ token.balancer = true ∧ token.text = [closer]

end Token

namespace Leaf

variable {token : Token} (stack : List (Char × List Nat)) (path : List Nat) (owner : Node)

/-- The scan keeps its stack at a token that is no delimiter. -/
theorem scan?_undelimiting (h : token.Undelimiting) (slot : Slot) :
    scan? stack ⟨path, owner, slot, token⟩ = some stack := by
  unfold scan?
  dsimp only
  rw [h.1, h.2]

/-- At an opening delimiter the scan puts on the stack what has to close it. -/
theorem scan?_opens {closer : Char} (h : token.Opens closer) :
    scan? stack ⟨path, owner, .openToken, token⟩ = some ((closer, path) :: stack) := by
  unfold scan?
  dsimp only
  rw [h.1, h.2]
  exact if_pos rfl

/-- At the closing delimiter of the same node the scan takes it off again. -/
theorem scan?_closes {closer : Char} (h : token.Closes closer) :
    scan? ((closer, path) :: stack) ⟨path, owner, .closeToken, token⟩ = some stack := by
  unfold scan?
  dsimp only
  rw [h.1, h.2.1]
  exact if_pos ⟨h.2.2, rfl, rfl⟩

end Leaf

namespace Node

/-- The delimiters among the tokens of a node are paired: there are none, or there is one pair. -/
inductive Paired : List Property → Prop
  | undelimited {properties : List Property}
      (all : EachToken Token.Undelimiting properties) : Paired properties
  | delimited {front middle back : List Property} {opening closing : Token} {closer : Char}
      (before : EachToken Token.Undelimiting front) (opens : opening.Opens closer)
      (between : EachToken Token.Undelimiting middle) (closes : closing.Closes closer)
      (behind : EachToken Token.Undelimiting back) :
      Paired (front ++ (.openToken, .token opening)
        :: (middle ++ (.closeToken, .token closing) :: back))

/-- A layout does not change what is paired. -/
theorem Paired.placeAll {start : Nat} {properties : List Property} (h : Paired properties) :
    Paired (placeAll start properties) := by
  have hplace : ∀ start (token : Token), token.Undelimiting → (token.place start).Undelimiting :=
    fun _ _ h => h
  cases h with
  | undelimited all => exact .undelimited (all.placeAll hplace)
  | delimited before opens between closes behind =>
      simp only [placeAll_append, placeAll_cons, placeChild]
      exact .delimited (before.placeAll hplace) opens (between.placeAll hplace) closes
        (behind.placeAll hplace)

/-- Over properties without delimiters of their own the scan keeps its stack if it does so over
their nodes. -/
theorem scan_undelimited (path : List Nat) (owner : Node) {properties : List Property}
    (index : Nat) (all : EachToken Token.Undelimiting properties)
    (children : ∀ slot child, (slot, .node child) ∈ properties → ∀ path stack,
      (child.leaves path).foldlM Leaf.scan? stack = some stack)
    (stack : List (Char × List Nat)) :
    (leavesOf path owner index properties).foldlM Leaf.scan? stack = some stack := by
  induction properties generalizing index with
  | nil => rfl
  | cons property rest ih =>
      obtain ⟨slot, child⟩ := property
      have hrest : ∀ slot child, (slot, .node child) ∈ rest → ∀ path stack,
          (child.leaves path).foldlM Leaf.scan? stack = some stack :=
        fun slot child hmem => children slot child (List.mem_cons_of_mem _ hmem)
      cases child with
      | node child =>
          have hchild := children slot child List.mem_cons_self (path ++ [index]) stack
          rw [leavesOf, List.foldlM_append, hchild]
          exact ih (index + 1) ((eachToken_node ..).mp all) hrest
      | token token =>
          obtain ⟨hundelimiting, hothers⟩ := (eachToken_token ..).mp all
          rw [leavesOf, List.foldlM_cons, Leaf.scan?_undelimiting stack path owner hundelimiting]
          exact ih (index + 1) hothers hrest
      | null =>
          rw [leavesOf]
          exact ih (index + 1) ((eachToken_null ..).mp all) hrest

/-- What a child contains is contained in its parent. -/
theorem Contains.of_child {parent child node : Node} {slot : Slot}
    (recorded : (slot, .node child) ∈ parent.properties) (below : child.Contains node) :
    parent.Contains node := by
  induction below with
  | self => exact .step .self recorded
  | step _ hrecorded ih => exact ih.step hrecorded

/-- Over a tree of nodes with paired delimiters the scan keeps its stack. -/
theorem scan_leaves (root : Node) (paired : ∀ node, root.Contains node → Paired node.properties)
    (path : List Nat) (stack : List (Char × List Nat)) :
    (root.leaves path).foldlM Leaf.scan? stack = some stack := by
  induction root using Node.induction generalizing path stack with
  | step root ih =>
      have hchildren : ∀ slot child, (slot, .node child) ∈ root.properties → ∀ path stack,
          (child.leaves path).foldlM Leaf.scan? stack = some stack :=
        fun slot child hmem => ih slot child hmem fun node below =>
          paired node (.of_child hmem below)
      rw [leaves_eq]
      have hroot := paired root .self
      generalize root.properties = properties at hroot hchildren
      cases hroot with
      | undelimited all => exact scan_undelimited path root 0 all hchildren stack
      | @delimited front middle back opening closing closer before opens between closes behind =>
          simp only [List.mem_append, List.mem_cons, Prod.mk.injEq, reduceCtorEq, and_false,
            false_or] at hchildren
          have hfront := scan_undelimited path root 0 before
            (fun slot child h => hchildren slot child (.inl h)) stack
          have hmiddle := scan_undelimited path root (0 + front.length + 1) between
            (fun slot child h => hchildren slot child (.inr (.inl h))) ((closer, path) :: stack)
          have hback := scan_undelimited path root (0 + front.length + 1 + middle.length + 1) behind
            (fun slot child h => hchildren slot child (.inr (.inr h))) stack
          have hopen := Leaf.scan?_opens stack path root opens
          have hclose := Leaf.scan?_closes stack path root closes
          rw [leavesOf_append, leavesOf, leavesOf_append, leavesOf]
          simp only [List.foldlM_append, List.foldlM_cons, hfront, hopen, hmiddle, hclose, hback,
            Option.bind_eq_bind, Option.bind_some]

end Node

/-! ## Escapes -/

namespace Token

/-- The token neither enters nor leaves a region. -/
def Unmarked (token : Token) : Prop :=
  token.openRegion = none ∧ token.closeRegion = none

/-- The token is the backslash that enters the region of an escape. -/
def Enters (token : Token) : Prop :=
  token.text = ['\\'] ∧ token.openRegion = some .escape ∧ token.closeRegion = none

/-- The token leaves the region of an escape. -/
def Leaves (token : Token) : Prop :=
  token.openRegion = none ∧ token.closeRegion = some .escape

end Token

/-- The backslash of an escape sequence and the token behind it: either the one that leaves the
escape, in the same node, or the letter of the code that the escape sequence holds. -/
structure Leaf.Escaping (backslash next : Leaf) : Prop where
  kind : backslash.owner.kind = .escapeSequence
  slot : backslash.slot = .escape
  enters : backslash.token.Enters
  next : next.path = backslash.path ∧ next.slot = .code ∧ next.token.Leaves ∨
    next.owner.kind = .escapeCode ∧ next.slot = .type ∧ next.token.Unmarked ∧
      ∃ index, next.path = backslash.path ++ [index] ∧
        backslash.owner.properties[index]? = some (.code, .node next.owner)

/-- Regions are entered by the backslashes of escapes only and are left right behind them. -/
inductive Escapes : List Leaf → Prop
  | nil : Escapes []
  | other {leaf : Leaf} {rest : List Leaf} (unmarked : leaf.token.Unmarked)
      (others : Escapes rest) : Escapes (leaf :: rest)
  | escape {backslash next : Leaf} {rest : List Leaf} (escaping : backslash.Escaping next)
      (others : Escapes rest) : Escapes (backslash :: next :: rest)

/-- The token behind the backslash enters no region. -/
theorem Leaf.Escaping.openRegion_next {backslash next : Leaf} (h : backslash.Escaping next) :
    next.token.openRegion = none := by
  rcases h.next with ⟨-, -, hleaves⟩ | ⟨-, -, hunmarked, -⟩
  · exact hleaves.1
  · exact hunmarked.1

namespace Escapes

theorem append {front back : List Leaf} (hfront : Escapes front) (hback : Escapes back) :
    Escapes (front ++ back) := by
  induction hfront with
  | nil => exact hback
  | other unmarked _ ih => exact .other unmarked ih
  | escape escaping _ ih => exact .escape escaping ih

/-- What stands behind a token without marks is in order. -/
theorem tail {leaf : Leaf} {rest : List Leaf} (h : Escapes (leaf :: rest))
    (unmarked : leaf.token.Unmarked) : Escapes rest := by
  cases h with
  | other _ others => exact others
  | escape escaping _ =>
      have henters := escaping.enters.2.1
      rw [unmarked.1] at henters
      simp at henters

/-- A token that enters a region is the backslash of an escape and followed by its next token. -/
theorem next_of_enters {leaves front back : List Leaf} {leaf : Leaf} (h : Escapes leaves)
    (hsplit : leaves = front ++ leaf :: back) (hopen : leaf.token.openRegion ≠ none) :
    ∃ next rest, back = next :: rest ∧ leaf.Escaping next := by
  induction h generalizing front with
  | nil => simp at hsplit
  | @other first rest unmarked _ ih =>
      cases front with
      | nil =>
          obtain ⟨rfl, -⟩ := List.cons.inj hsplit
          exact absurd unmarked.1 hopen
      | cons x front => exact ih (List.cons.inj hsplit).2
  | @escape backslash next rest escaping _ ih =>
      rcases front with _ | ⟨x, _ | ⟨y, front⟩⟩
      · obtain ⟨rfl, rfl⟩ := List.cons.inj hsplit
        exact ⟨next, rest, rfl, escaping⟩
      · obtain ⟨-, hbehind⟩ := List.cons.inj hsplit
        obtain ⟨rfl, -⟩ := List.cons.inj hbehind
        exact absurd escaping.openRegion_next hopen
      · exact ih (List.cons.inj (List.cons.inj hsplit).2).2

/-- A token that leaves a region leaves that of the backslash right before it. -/
theorem previous_of_leaves {leaves front back : List Leaf} {leaf : Leaf} (h : Escapes leaves)
    (hsplit : leaves = front ++ leaf :: back) (hclose : leaf.token.closeRegion ≠ none) :
    ∃ before backslash, front = before ++ [backslash] ∧ backslash.Escaping leaf ∧
      leaf.token.Leaves ∧ leaf.path = backslash.path := by
  induction h generalizing front with
  | nil => simp at hsplit
  | @other first rest unmarked _ ih =>
      cases front with
      | nil =>
          obtain ⟨rfl, -⟩ := List.cons.inj hsplit
          exact absurd unmarked.2 hclose
      | cons x front =>
          obtain ⟨before, backslash, rfl, hbackslash⟩ := ih (List.cons.inj hsplit).2
          exact ⟨x :: before, backslash, rfl, hbackslash⟩
  | @escape backslash next rest escaping _ ih =>
      rcases front with _ | ⟨x, _ | ⟨y, front⟩⟩
      · obtain ⟨rfl, -⟩ := List.cons.inj hsplit
        exact absurd escaping.enters.2.2 hclose
      · obtain ⟨rfl, hbehind⟩ := List.cons.inj hsplit
        obtain ⟨rfl, -⟩ := List.cons.inj hbehind
        rcases escaping.next with ⟨hpath, -, hleaves⟩ | ⟨-, -, hunmarked, -⟩
        · exact ⟨[], backslash, rfl, escaping, hleaves, hpath⟩
        · exact absurd hunmarked.2 hclose
      · obtain ⟨before, last, rfl, hlast⟩ := ih (List.cons.inj (List.cons.inj hsplit).2).2
        exact ⟨x :: y :: before, last, rfl, hlast⟩

end Escapes

namespace Node

/-- How the marks for regions are spread over the tokens of a node. -/
inductive Marked (node : Node) : Prop
  | unmarked (all : EachToken Token.Unmarked node.properties)
  | single {backslash letter : Token} (kind : node.kind = .escapeSequence)
      (properties : node.properties = [(.escape, .token backslash), (.code, .token letter)])
      (enters : backslash.Enters) (leaves : letter.Leaves)
  | coded {backslash letter : Token} {code : Node} {rest : List Property}
      (kind : node.kind = .escapeSequence)
      (properties : node.properties = [(.escape, .token backslash), (.code, .node code)])
      (enters : backslash.Enters) (codeKind : code.kind = .escapeCode)
      (codeProperties : code.properties = (.type, .token letter) :: rest)
      (unmarked : letter.Unmarked)

/-- Properties without marks of their own are in order if their nodes are. -/
theorem escapes_unmarked {path : List Nat} {owner : Node} {properties : List Property}
    (index : Nat) (all : EachToken Token.Unmarked properties)
    (children : ∀ slot child, (slot, .node child) ∈ properties → ∀ path,
      Escapes (child.leaves path)) :
    Escapes (leavesOf path owner index properties) := by
  induction properties generalizing index with
  | nil => exact .nil
  | cons property rest ih =>
      obtain ⟨slot, child⟩ := property
      have hrest : ∀ slot child, (slot, .node child) ∈ rest → ∀ path,
          Escapes (child.leaves path) :=
        fun slot child hmem => children slot child (List.mem_cons_of_mem _ hmem)
      cases child with
      | node child =>
          have hothers := ih (index + 1) ((eachToken_node ..).mp all) hrest
          rw [leavesOf]
          exact (children slot child List.mem_cons_self (path ++ [index])).append hothers
      | token token =>
          obtain ⟨hunmarked, hall⟩ := (eachToken_token ..).mp all
          rw [leavesOf]
          exact .other hunmarked (ih (index + 1) hall hrest)
      | null =>
          rw [leavesOf]
          exact ih (index + 1) ((eachToken_null ..).mp all) hrest

/-- Where all nodes are marked as they should be, the regions of the whole tree are in order. -/
theorem escapes_leaves (root : Node) (marked : ∀ node, root.Contains node → node.Marked)
    (path : List Nat) : Escapes (root.leaves path) := by
  induction root using Node.induction generalizing path with
  | step root ih =>
      have hchildren : ∀ slot child, (slot, .node child) ∈ root.properties → ∀ path,
          Escapes (child.leaves path) :=
        fun slot child hmem => ih slot child hmem fun node below =>
          marked node (.of_child hmem below)
      rw [leaves_eq]
      cases marked root .self with
      | unmarked all => exact escapes_unmarked 0 all hchildren
      | single kind properties enters leaves =>
          rw [properties]
          exact .escape ⟨kind, rfl, enters, .inl ⟨rfl, rfl, leaves⟩⟩ .nil
      | @coded backslash letter code rest kind properties enters codeKind codeProperties unmarked =>
          -- The letter of the code belongs to the backslash, the rest of the code does not.
          have hcode : Escapes (code.leaves (path ++ [1])) :=
            hchildren .code code (by simp [properties]) (path ++ [1])
          rw [leaves_eq, codeProperties, leavesOf] at hcode
          have hindex : root.properties[1]? = some (.code, .node code) := by rw [properties]; rfl
          rw [properties, leavesOf, leavesOf, leavesOf, leaves_eq, codeProperties, leavesOf,
            List.append_nil]
          exact .escape ⟨kind, rfl, enters, .inr ⟨codeKind, rfl, unmarked, 1, rfl, hindex⟩⟩
            (hcode.tail unmarked)

/-- A layout does not change the marks. -/
theorem Marked.place {start : Nat} {node : Node} (h : node.Marked) : (node.place start).Marked := by
  have hplace : ∀ start (token : Token), token.Unmarked → (token.place start).Unmarked :=
    fun _ _ h => h
  cases h with
  | unmarked all =>
      refine .unmarked ?_
      rw [place_properties]
      exact all.placeAll hplace
  | @single backslash letter kind properties enters leaves =>
      have hproperties : (node.place start).properties
          = [(.escape, .token (backslash.place start)),
            (.code, .token (letter.place (start + Text.byteLength backslash.text)))] := by
        rw [place_properties, properties]
        rfl
      exact .single (by rwa [place_kind]) hproperties enters leaves
  | @coded backslash letter code rest kind properties enters codeKind codeProperties unmarked =>
      have hproperties : (node.place start).properties
          = [(.escape, .token (backslash.place start)),
            (.code, .node (code.place (start + Text.byteLength backslash.text)))] := by
        rw [place_properties, properties]
        rfl
      have hcode : (code.place (start + Text.byteLength backslash.text)).properties
          = placeAll (start + Text.byteLength backslash.text)
            ((.type, .token letter) :: rest) := by
        rw [place_properties, codeProperties]
      rw [placeAll_cons] at hcode
      exact .coded (by rwa [place_kind]) hproperties enters (by rwa [place_kind]) hcode
        (hplace _ letter unmarked)

end Node

/-! ## The trees of derivations -/

/-- The token neither opens nor closes anything. -/
def Token.Inert (token : Token) : Prop :=
  token.Undelimiting ∧ token.Unmarked

@[simp] theorem Token.inert_bare (kind : Token.Kind) (text : List Char) :
    (Token.bare kind text).Inert :=
  ⟨⟨rfl, rfl⟩, ⟨rfl, rfl⟩⟩

namespace Grammar

open Node

/-- A node in order: its delimiters are paired, and it is marked as it should be. -/
def Orderly (node : Node) : Prop :=
  Paired node.properties ∧ node.Marked

/-- A node with inert tokens only is in order. -/
theorem orderly_of_inert {node : Node} (inert : EachToken Token.Inert node.properties) :
    Orderly node :=
  ⟨.undelimited fun slot token hmem => (inert slot token hmem).1,
    .unmarked fun slot token hmem => (inert slot token hmem).2⟩

/-- A node with one pair of delimiters and inert tokens besides is in order. -/
theorem orderly_of_delimiters {node : Node} {front middle back : List Property}
    {text : List Char} {closer : Char} {inside : Option Region}
    (properties : node.properties = front ++ (.openToken, .token (.opening text closer inside))
      :: (middle ++ (.closeToken, .token (.closing closer)) :: back))
    (before : EachToken Token.Inert front) (between : EachToken Token.Inert middle)
    (behind : EachToken Token.Inert back) : Orderly node := by
  have hopening : (Token.opening text closer inside).Unmarked := ⟨rfl, rfl⟩
  have hclosing : (Token.closing closer).Unmarked := ⟨rfl, rfl⟩
  have hdelimiting : ∀ {ps : List Property}, EachToken Token.Inert ps →
      EachToken Token.Undelimiting ps := fun h slot token hmem => (h slot token hmem).1
  have hunmarked : ∀ {ps : List Property}, EachToken Token.Inert ps →
      EachToken Token.Unmarked ps := fun h slot token hmem => (h slot token hmem).2
  constructor
  · rw [properties]
    exact .delimited (hdelimiting before) ⟨rfl, rfl⟩ (hdelimiting between) ⟨rfl, rfl, rfl⟩
      (hdelimiting behind)
  · apply Marked.unmarked
    rw [properties, eachToken_append, eachToken_token, eachToken_append, eachToken_token]
    exact ⟨hunmarked before, hopening, hunmarked between, hclosing, hunmarked behind⟩

/-- The children that record a body have no other tokens than bars. -/
theorem inert_bodyProperties (first : List Item) (others : List (List Item)) :
    EachToken Token.Inert (bodyProperties first others) := by
  have hothers : EachToken Token.Inert (otherProperties others) := by
    induction others with
    | nil => simp [otherProperties]
    | cons items others ih => simp [otherProperties, ih]
  simp [bodyProperties, hothers]

theorem Character.orderly_tree {region : Region} (inner : Character region) :
    Orderly inner.tree := by
  apply orderly_of_inert
  cases inner <;> simp [Character.tree]

theorem orderly_keywordTree (letter : Char) : Orderly (keywordTree letter) := by
  apply orderly_of_inert
  simp [keywordTree]

theorem orderly_classTree (negated : Bool) (units : List ClassUnit) :
    Orderly (classTree negated units) := by
  have hcaret : EachToken Token.Inert [(.negateToken, caretChild (caret negated units).1)] := by
    cases (caret negated units).1 <;> simp [caretChild, Child.ofToken?]
  have helements :
      EachToken Token.Inert (elementProperties (pair (caret negated units).2)) := by
    simp [elementProperties]
  exact orderly_of_delimiters rfl eachToken_nil
    ((eachToken_append ..).mpr ⟨hcaret, helements⟩) eachToken_nil

theorem Atom.orderly_tree (atom : Atom) : Orderly atom.tree := by
  cases atom with
  | character inner =>
      rw [Atom.tree]
      exact inner.orderly_tree
  | keyword letter known =>
      rw [Atom.tree]
      exact orderly_keywordTree letter
  | sigil c known =>
      apply orderly_of_inert
      simp [Atom.tree]
  | charClass negated units =>
      rw [Atom.tree]
      exact orderly_classTree negated units
  | group capturing first others =>
      rw [Atom.tree_group]
      exact orderly_of_delimiters rfl eachToken_nil (inert_bodyProperties first others)
        eachToken_nil

/-- Bounds in braces are delimited behind the element that they count. -/
theorem orderly_quantifiedTree (element : Node) (quantifier : Quantifier) :
    Orderly (quantifiedTree element (some quantifier)) := by
  have hbraced : ∀ (least : Count) (upper : List Property), EachToken Token.Inert upper →
      quantifier.properties = bracedProperties least upper →
      Orderly (quantifiedTree element (some quantifier)) := by
    intro least upper hupper hproperties
    have hchildren : (quantifiedTree element (some quantifier)).properties
        = (.element, .node element) :: bracedProperties least upper :=
      congrArg _ hproperties
    exact orderly_of_delimiters hchildren ((eachToken_node ..).mpr eachToken_nil)
      ((eachToken_node .min least.tree upper).mpr hupper) eachToken_nil
  cases quantifier with
  | sigil c known =>
      apply orderly_of_inert
      simp [quantifiedTree, Quantifier.properties]
  | exactly count => exact hbraced count _ (by simp) rfl
  | atLeast least => exact hbraced least _ (by simp) rfl
  | between least most ordered => exact hbraced least _ (by simp) rfl

theorem Escape.orderly_tree {region : Region} (inner : Escape region) : Orderly inner.tree := by
  cases inner with
  | single c known =>
      constructor
      · apply Paired.undelimited
        exact (eachToken_token ..).mpr
          ⟨⟨rfl, rfl⟩, (eachToken_token ..).mpr ⟨⟨rfl, rfl⟩, eachToken_nil⟩⟩
      · exact .single rfl rfl ⟨rfl, rfl, rfl⟩ ⟨rfl, rfl⟩
  | coded code =>
      constructor
      · apply Paired.undelimited
        exact (eachToken_token ..).mpr ⟨⟨rfl, rfl⟩, (eachToken_node ..).mpr eachToken_nil⟩
      · exact .coded rfl rfl ⟨rfl, rfl, rfl⟩ rfl rfl ⟨rfl, rfl⟩

/-- All parts are in order. -/
theorem Part.orderly {node : Node} (h : Part node) : Orderly node := by
  cases h with
  | literal inner admissible =>
      exact orderly_of_delimiters rfl eachToken_nil
        (inert_bodyProperties inner.first inner.others) ((eachToken_node ..).mpr eachToken_nil)
  | flags letters =>
      apply orderly_of_inert
      intro slot token hmem
      obtain ⟨c, -, heq⟩ := List.mem_map.mp hmem
      simp only [Prod.mk.injEq, Child.token.injEq] at heq
      rw [← heq.2]
      exact Token.inert_bare ..
  | alternative items admissible =>
      apply orderly_of_inert
      simp [alternativeTree, itemProperties_eq]
  | item inner admissible =>
      obtain ⟨atom, quantifier⟩ := inner
      cases quantifier with
      | none => exact atom.orderly_tree
      | some quantifier => exact orderly_quantifiedTree atom.tree quantifier
  | classElement inner =>
      cases inner with
      | unit inner =>
          cases inner with
          | character inner => exact inner.orderly_tree
          | keyword letter known => exact orderly_keywordTree letter
      | range lower upper =>
          apply orderly_of_inert
          simp [ClassElement.tree]
  | character inner => exact inner.orderly_tree
  | escape inner => exact inner.orderly_tree
  | code inner =>
      apply orderly_of_inert
      cases inner <;> simp [Code.tree, Code.digitProperties]
  | count inner =>
      apply orderly_of_inert
      simp [Count.tree, digitsProperties]
  | digit c =>
      apply orderly_of_inert
      simp [digitTree]

end Grammar

/-! ## The trees of pattern literals -/

/-- What holds of the delimiters and escapes of a tree. -/
structure Balanced (tree : Node) : Prop where
  /-- The leaves are the tokens of the tree. -/
  tokens : (tree.leaves []).map Leaf.token = tree.tokens
  /-- The path of a leaf leads to the node that the token is recorded in. -/
  owner : ∀ leaf ∈ tree.leaves [], tree.descend leaf.path = some leaf.owner ∧
    (leaf.slot, .token leaf.token) ∈ leaf.owner.properties
  /-- The scan for delimiters succeeds and leaves none open. -/
  delimiters : (tree.leaves []).foldlM Leaf.scan? [] = some []
  /-- Only the backslash of an escape enters a region, and the next token leaves it or is the
  letter of a code. -/
  entered : ∀ front leaf back, tree.leaves [] = front ++ leaf :: back →
    leaf.token.openRegion ≠ none → ∃ next rest, back = next :: rest ∧ leaf.Escaping next
  /-- A region is left right behind the backslash that enters it, in the same node. -/
  left : ∀ front leaf back, tree.leaves [] = front ++ leaf :: back →
    leaf.token.closeRegion ≠ none → ∃ before backslash, front = before ++ [backslash] ∧
      backslash.Escaping leaf ∧ leaf.token.Leaves ∧ leaf.path = backslash.path

/-- A layout of nodes in order is balanced. -/
theorem place_balanced {root : Node} (start : Nat)
    (orderly : ∀ node, root.Contains node → Grammar.Orderly node) :
    Balanced (root.place start) := by
  have hpaired : ∀ node, (root.place start).Contains node → Node.Paired node.properties := by
    intro node hnode
    obtain ⟨original, front, back, hbelow, -, rfl⟩ := Node.contains_place hnode
    rw [Node.place_properties]
    exact (orderly original hbelow).1.placeAll
  have hmarked : ∀ node, (root.place start).Contains node → node.Marked := by
    intro node hnode
    obtain ⟨original, front, back, hbelow, -, rfl⟩ := Node.contains_place hnode
    exact (orderly original hbelow).2.place
  have hescapes := (root.place start).escapes_leaves hmarked []
  exact
    { tokens := Node.map_token_leaves [] _
      owner := fun leaf hleaf => Node.descend_of_mem_leaves [] _ rfl hleaf
      delimiters := Node.scan_leaves _ hpaired [] []
      entered := fun _ _ _ hsplit hopen => hescapes.next_of_enters hsplit hopen
      left := fun _ _ _ hsplit hclose => hescapes.previous_of_leaves hsplit hclose }

/-- **The delimiters and escapes of a pattern literal are balanced**, and when the literal has
been read the scanner has nothing open any more. -/
theorem parse_balanced {text : List Char} {tree : Node} (h : parse text = .ok tree) :
    Balanced tree ∧ ∃ last, Production.pattern (.new text) = .ok (tree, last) ∧
      last.rest = [] ∧ last.frames = [] := by
  constructor
  · obtain ⟨literal, hadmissible, -, rfl⟩ := parse_eq_ok_iff.mp h
    exact place_balanced 0 fun node hnode => (literal.part_of_contains hadmissible hnode).orderly
  · rw [parse, Production.whole_eq_ok_iff] at h
    obtain ⟨last, hpattern, hend⟩ := h
    obtain ⟨literal, -, -, hreads, -⟩ := (Production.pattern_eq_ok_iff rfl).mp hpattern
    exact ⟨last, hpattern, hend, hreads.frames⟩

/-- A literal with groups, a bracket expression, bounds in braces and both forms of escape. -/
theorem balanced_example :
    ∃ tree, parse "/(?:\\n|([\\u\x7b41\x7d-z]))\x7b2,\x7d/g".toList = .ok tree ∧ Balanced tree := by
  obtain ⟨tree, htree⟩ := Production.exists_ok_of_isOk
    (show (parse "/(?:\\n|([\\u\x7b41\x7d-z]))\x7b2,\x7d/g".toList).isOk = true by decide +kernel)
  exact ⟨tree, htree, (parse_balanced htree).1⟩

end PatternTree
