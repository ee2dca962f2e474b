import PatternTree.Node.Printer
import PatternTree.Proofs.Nesting

/-!
# Walking through a tree with a limited number of calls

Listing the tokens of a tree and printing it call themselves for every child node.  The walks of
this file do the same with a limited number of calls open at a time, and fail where one more would
be needed.  On a tree whose ways down are shorter than the limit they never fail:

* `tokensWithin?_eq` — the tokens of a tree, and `sourceTextWithin?_eq` its text;
* `printWithin?_eq` — its printed form.
-/

namespace PatternTree.Node

mutual
/-- The tokens of a tree, found with at most the given number of calls open at a time. -/
def tokensWithin? (calls : Nat) : Node → Option (List Token)
  | ⟨_, _, _, properties⟩ =>
    match calls with
    | 0 => none
    | further + 1 => tokensOfWithin? further properties
/-- The tokens of a list of properties, with the given number of further calls. -/
def tokensOfWithin? (calls : Nat) : List Property → Option (List Token)
  | [] => some []
  | (_, .node child) :: rest => do
    let front ← child.tokensWithin? calls
    let back ← tokensOfWithin? calls rest
    return front ++ back
  | (_, .token token) :: rest => (tokensOfWithin? calls rest).map (token :: ·)
  | (_, .null) :: rest => tokensOfWithin? calls rest
end

/-- The text of a tree, spelled with at most the given number of calls open at a time. -/
def sourceTextWithin? (calls : Nat) (node : Node) : Option (List Char) :=
  (node.tokensWithin? calls).map (·.flatMap Token.text)

mutual
/-- The printed form of a node at the given level, with at most the given number of calls open at
a time. -/
def printAtWithin? (glyphs : Text.Glyphs) (calls depth : Nat) : Node → Option (List Char)
  | ⟨kind, _, attributes, properties⟩ =>
    match calls with
    | 0 => none
    | further + 1 => do
      let lines ← printPropertiesWithin? glyphs kind further (depth + 1) properties
      return '<' :: kind.name.toList ++ Text.braced (attributeEntries glyphs attributes)
        ++ (if properties.isEmpty then " />".toList
          else ['>', '\n'] ++ lines ++ Text.indentation depth ++ "</>".toList)
/-- The lines of a node's children, with the given number of further calls. -/
def printPropertiesWithin? (glyphs : Text.Glyphs) (kind : NodeKind) (calls depth : Nat) :
    List Property → Option (List Char)
  | [] => some []
  | (slot, child) :: rest => do
    let line ← printChildWithin? glyphs calls depth child
    let lines ← printPropertiesWithin? glyphs kind calls depth rest
    return Text.indentation depth ++ slotLabel kind slot ++ line ++ '\n' :: lines
/-- What follows the name of a slot, with the given number of further calls. -/
def printChildWithin? (glyphs : Text.Glyphs) (calls depth : Nat) :
    Child Node → Option (List Char)
  | .node child =>
    (printAtWithin? glyphs calls depth child).map
      ((if child.properties.isEmpty then [' '] else '\n' :: Text.indentation depth) ++ ·)
  | .token token => some (' ' :: token.print glyphs)
  | .null => some " null".toList
end

/-- The printed form of a tree, with at most the given number of calls open at a time. -/
def printWithin? (glyphs : Text.Glyphs) (calls : Nat) (node : Node) : Option (List Char) :=
  node.printAtWithin? glyphs calls 0

/-! ## Enough calls -/

/-- Properties need no more calls than the nodes among them. -/
theorem tokensOfWithin?_eq {calls : Nat} {properties : List Property}
    (h : ∀ slot child, (slot, .node child) ∈ properties →
      child.tokensWithin? calls = some child.tokens) :
    tokensOfWithin? calls properties = some (tokensOf properties) := by
  induction properties with
  | nil => rfl
  | cons property rest ih =>
      obtain ⟨slot, entry⟩ := property
      have hrest := ih fun slot child hchild => h slot child (List.mem_cons_of_mem _ hchild)
      cases entry with
      | node child => simp [tokensOfWithin?, tokensOf, h slot child List.mem_cons_self, hrest]
      | token token => simp [tokensOfWithin?, tokensOf, hrest]
      | null => simpa [tokensOfWithin?, tokensOf] using hrest

/-- The tokens of a tree are found with as many calls as there are nodes on a way down. -/
theorem tokensWithin?_eq {node : Node} {calls : Nat}
    (h : ∀ below, node.Descent below → below.length < calls) :
    node.tokensWithin? calls = some node.tokens := by
  induction node using Node.induction generalizing calls with
  | step node ih =>
      have hpos := h [] (.here node)
      obtain ⟨further, rfl⟩ : ∃ further, calls = further + 1 := ⟨calls - 1, by simp at hpos; omega⟩
      obtain ⟨kind, span, attributes, properties⟩ := node
      rw [tokensWithin?, tokens]
      refine tokensOfWithin?_eq fun slot child recorded => ?_
      refine ih slot child recorded fun below hbelow => ?_
      exact Nat.lt_of_succ_lt_succ (h (child :: below) (.down recorded hbelow))

/-- The text of a tree is spelled with as many calls as there are nodes on a way down. -/
theorem sourceTextWithin?_eq {node : Node} {calls : Nat}
    (h : ∀ below, node.Descent below → below.length < calls) :
    node.sourceTextWithin? calls = some node.sourceText := by
  rw [sourceTextWithin?, tokensWithin?_eq h]
  rfl

/-- The lines of properties need no more calls than the nodes among them. -/
theorem printPropertiesWithin?_eq {glyphs : Text.Glyphs} {kind : NodeKind} {calls depth : Nat}
    {properties : List Property}
    (h : ∀ slot child, (slot, .node child) ∈ properties →
      printAtWithin? glyphs calls depth child = some (printAt glyphs depth child)) :
    printPropertiesWithin? glyphs kind calls depth properties
      = some (printProperties glyphs kind depth properties) := by
  induction properties with
  | nil => rfl
  | cons property rest ih =>
      obtain ⟨slot, entry⟩ := property
      have hrest := ih fun slot child hchild => h slot child (List.mem_cons_of_mem _ hchild)
      have hentry : printChildWithin? glyphs calls depth entry
          = some (printChild glyphs depth entry) := by
        cases entry with
        | node child => simp [printChildWithin?, printChild, h slot child List.mem_cons_self]
        | token token => rfl
        | null => rfl
      simp [printPropertiesWithin?, printProperties, hentry, hrest]

/-- A tree is printed with as many calls as there are nodes on a way down. -/
theorem printAtWithin?_eq {glyphs : Text.Glyphs} {node : Node} {calls depth : Nat}
    (h : ∀ below, node.Descent below → below.length < calls) :
    printAtWithin? glyphs calls depth node = some (printAt glyphs depth node) := by
  induction node using Node.induction generalizing calls depth with
  | step node ih =>
      have hpos := h [] (.here node)
      obtain ⟨further, rfl⟩ : ∃ further, calls = further + 1 := ⟨calls - 1, by simp at hpos; omega⟩
      obtain ⟨kind, span, attributes, properties⟩ := node
      have hlines : printPropertiesWithin? glyphs kind further (depth + 1) properties
          = some (printProperties glyphs kind (depth + 1) properties) := by
        refine printPropertiesWithin?_eq fun slot child recorded => ?_
        refine ih slot child recorded fun below hbelow => ?_
        exact Nat.lt_of_succ_lt_succ (h (child :: below) (.down recorded hbelow))
      simp [printAtWithin?, printAt, hlines]

/-- The printed form of a tree is found with as many calls as there are nodes on a way down. -/
theorem printWithin?_eq {glyphs : Text.Glyphs} {node : Node} {calls : Nat}
    (h : ∀ below, node.Descent below → below.length < calls) :
    node.printWithin? glyphs calls = some (node.print glyphs) :=
  printAtWithin?_eq h

end PatternTree.Node
