import PatternTree.Node.Printer
import PatternTree.Proofs.Acceptance.Literal
import PatternTree.Proofs.Legible

/-!
# Printed trees are unambiguous

A printed tree shows everything about the tree but its spans.  The proof reads two printed trees
side by side: the name of a kind ends before its attributes, a line of a child is told from the
closing line by its indentation, and what is printed for a child says by its first two characters
whether it is a node on its own lines, a node without children, a token or nothing.  Nothing needs
to be known about what stands behind a printed tree.

* `Node.eraseSpans` — what a printed tree shows;
* `Node.printAt_legible` — two printed trees that look the same differ in their spans only.
-/

namespace PatternTree.Node

open Text

/-- The tree with all its spans forgotten. -/
def eraseSpans (node : Node) : Node :=
  node.mapSpans fun _ => 0

/-- A child with all its spans forgotten. -/
def eraseSpansOf : Child Node → Child Node
  | .node child => .node child.eraseSpans
  | .token token => .token { token with span := ⟨0, 0⟩ }
  | .null => .null

/-- Properties with all their spans forgotten. -/
def eraseSpansAll (properties : List Property) : List Property :=
  mapSpansAll (fun _ => 0) properties

theorem eraseSpansAll_cons (slot : Slot) (child : Child Node) (rest : List Property) :
    eraseSpansAll ((slot, child) :: rest) = (slot, eraseSpansOf child) :: eraseSpansAll rest := by
  cases child <;> rfl

theorem isEmpty_mapSpansAll (move : Nat → Nat) (properties : List Property) :
    (mapSpansAll move properties).isEmpty = properties.isEmpty := by
  rcases properties with _ | ⟨⟨slot, _ | _ | _⟩, rest⟩ <;> rfl

/-- Trees agree but for their spans if they agree in all else. -/
theorem eraseSpans_eq {a b : Node} (hkind : a.kind = b.kind)
    (hattributes : a.attributes = b.attributes)
    (hproperties : eraseSpansAll a.properties = eraseSpansAll b.properties) :
    a.eraseSpans = b.eraseSpans := by
  obtain ⟨kind, span, attributes, properties⟩ := a
  obtain ⟨kind', span', attributes', properties'⟩ := b
  obtain rfl : kind = kind' := hkind
  obtain rfl : attributes = attributes' := hattributes
  change Node.mk kind ⟨0, 0⟩ attributes (eraseSpansAll properties)
    = Node.mk kind ⟨0, 0⟩ attributes (eraseSpansAll properties')
  exact congrArg (Node.mk kind ⟨0, 0⟩ attributes) hproperties

/-! ## The parts of a printed tree -/

variable (glyphs : Glyphs)

/-- What a printed node ends with. -/
def printBody (kind : NodeKind) (depth : Nat) (properties : List Property) : List Char :=
  if properties.isEmpty then " />".toList
  else ['>', '\n'] ++ printProperties glyphs kind (depth + 1) properties ++ indentation depth
    ++ "</>".toList

/-- A printed node is its kind, its attributes and its body. -/
theorem printAt_eq (depth : Nat) (node : Node) :
    node.printAt glyphs depth
      = '<' :: (node.kind.name.toList ++ (braced (attributeEntries glyphs node.attributes)
        ++ printBody glyphs node.kind depth node.properties)) := by
  cases node
  simp [printAt, printBody]

/-- The first character of a printed node. -/
theorem printAt_head (depth : Nat) (node : Node) :
    ∃ c rest, node.printAt glyphs depth = '<' :: c :: rest ∧ c ≠ '*' := by
  obtain ⟨c, rest, hname, hc⟩ :
      ∃ c rest, node.kind.name.toList = c :: rest ∧ c ≠ '*' := by
    cases node.kind <;> exact ⟨_, _, rfl, by decide⟩
  rw [printAt_eq, hname]
  exact ⟨c, _, rfl, hc⟩

/-- Attributes are legible up to the body of their node. -/
theorem attributes_legible :
    Legible (fun attributes => braced (attributeEntries glyphs attributes)) NotBraced := by
  have hentry : Legible (fun entry : AttributeName × Attribute =>
      entry.1.name.toList ++ [':', ' '] ++ entry.2.print glyphs)
      (StopsRun (Numeral.isDigit 10)) := by
    rintro ⟨name, value⟩ ⟨name', value'⟩ r s hr hs heq
    simp only [List.append_assoc, List.cons_append, List.nil_append] at heq
    have hcolon : ∀ rest, StopsRun Char.isAlpha (':' :: rest) := by
      intro rest
      exact stopsRun_cons.mpr (by decide)
    obtain ⟨rfl, hvalue⟩ := AttributeName.name_legible (hcolon _) (hcolon _) heq
    simp only [List.cons.injEq, true_and] at hvalue
    obtain ⟨rfl, hrest⟩ := Attribute.print_legible glyphs hr hs hvalue
    exact ⟨rfl, hrest⟩
  apply braced_legible hentry
  · intro rest
    exact stopsRun_cons.mpr (by decide)
  · intro rest
    exact stopsRun_cons.mpr (by decide)

/-- The body of a node is not taken for attributes or for a part of the name of its kind. -/
theorem printBody_head (kind : NodeKind) (depth : Nat) (properties : List Property)
    (r : List Char) :
    NotBraced (printBody glyphs kind depth properties ++ r) ∧
      StopsRun Char.isAlpha (printBody glyphs kind depth properties ++ r) := by
  unfold printBody
  split
  · refine ⟨?_, stopsRun_cons.mpr (by decide)⟩
    intro rest h
    simp at h
  · refine ⟨?_, stopsRun_cons.mpr (by decide)⟩
    intro rest h
    simp at h

/-- The beginning of a printed node shows the kind and the attributes. -/
theorem opening_legible {depth : Nat} {a b : Node} {r s : List Char}
    (heq : a.printAt glyphs depth ++ r = b.printAt glyphs depth ++ s) :
    a.kind = b.kind ∧ a.attributes = b.attributes ∧
      printBody glyphs a.kind depth a.properties ++ r
        = printBody glyphs b.kind depth b.properties ++ s := by
  rw [printAt_eq, printAt_eq] at heq
  simp only [List.cons_append, List.append_assoc, List.cons.injEq, true_and] at heq
  have hbraced : ∀ (node : Node) (r : List Char), StopsRun Char.isAlpha
      (braced (attributeEntries glyphs node.attributes)
        ++ (printBody glyphs node.kind depth node.properties ++ r)) := by
    intro node r
    by_cases hnone : (attributeEntries glyphs node.attributes).isEmpty
    · rw [braced, if_pos hnone]
      exact (printBody_head glyphs node.kind depth node.properties r).2
    · rw [braced, if_neg hnone]
      exact stopsRun_cons.mpr (by decide)
  obtain ⟨hkind, heq⟩ := NodeKind.name_legible (hbraced a r) (hbraced b s) heq
  obtain ⟨hattributes, heq⟩ := attributes_legible glyphs (printBody_head ..).1
    (printBody_head ..).1 heq
  exact ⟨hkind, hattributes, heq⟩

/-- The lines of the children up to the closing line, and what stands behind it. -/
def printLines (kind : NodeKind) (depth : Nat) (properties : List Property) (r : List Char) :
    List Char :=
  printProperties glyphs kind (depth + 1) properties ++ (indentation depth ++ ("</>".toList ++ r))

/-- Bodies that look the same have the same lines. -/
theorem printLines_eq {kind : NodeKind} {depth : Nat} {ps qs : List Property} {r s : List Char}
    (heq : printBody glyphs kind depth ps ++ r = printBody glyphs kind depth qs ++ s) :
    printLines glyphs kind depth ps r = printLines glyphs kind depth qs s := by
  cases ps with
  | nil =>
      cases qs with
      | nil => rw [List.append_cancel_left heq]
      | cons q qs => simp [printBody] at heq
  | cons p ps =>
      cases qs with
      | nil => simp [printBody] at heq
      | cons q qs => simpa [printBody, printLines] using heq

/-- The line of a child is told from the closing line by its indentation. -/
theorem indentation_ne (depth : Nat) (r s : List Char) :
    indentation depth ++ ("</>".toList ++ r) ≠ indentation (depth + 1) ++ s := by
  have hsucc : indentation (depth + 1) = indentation depth ++ [' ', ' '] := by
    rw [indentation, indentation, Nat.mul_succ, ← List.replicate_append_replicate]
    rfl
  rw [hsucc, List.append_assoc]
  intro h
  simp at h

/-- The labels of a node's slots are legible. -/
theorem slotLabel_legible (kind : NodeKind) : Legible (slotLabel kind) Anything := by
  intro slot slot' r s _ _ heq
  simp only [slotLabel, List.append_assoc] at heq
  have hmark : ∀ (slot : Slot) (rest : List Char), StopsRun Char.isAlpha
      ((if kind.multiplicity? slot = some .many then ['[', ']'] else []) ++ ([':'] ++ rest)) := by
    intro slot rest
    split <;> exact stopsRun_cons.mpr (by decide)
  obtain ⟨rfl, hrest⟩ := Slot.name_legible (hmark _ _) (hmark _ _) heq
  exact ⟨rfl, List.append_cancel_left (List.append_cancel_left hrest)⟩

/-- A printed child node does not look like a token or like the record of an absence. -/
theorem printChild_node_ne {depth : Nat} {child : Node} {c d : Char} {r rest : List Char}
    (h : c = '<' → d = '*') :
    printChild glyphs depth (.node child) ++ r ≠ ' ' :: c :: d :: rest := by
  obtain ⟨e, behind, hhead, he⟩ := printAt_head glyphs depth child
  intro heq
  rw [printChild, hhead] at heq
  split at heq
  · simp only [List.cons_append, List.nil_append, List.cons.injEq, true_and] at heq
    exact he (heq.2.1.trans (h heq.1.symm))
  · simp at heq

/-! ## Reading two printed trees side by side -/

mutual
/-- Two printed trees that look the same differ in their spans only, whatever stands behind
them. -/
theorem printAt_legible (depth : Nat) : ∀ (a b : Node) (r s : List Char),
    a.printAt glyphs depth ++ r = b.printAt glyphs depth ++ s → a.eraseSpans = b.eraseSpans ∧ r = s
  | ⟨kind, span, attributes, properties⟩, b, r, s, heq => by
      obtain ⟨hkind, hattributes, hbody⟩ := opening_legible glyphs heq
      rw [← hkind] at hbody
      obtain ⟨hproperties, hrest⟩ :=
        printLines_legible kind depth properties b.properties r s (printLines_eq glyphs hbody)
      exact ⟨eraseSpans_eq hkind hattributes hproperties, hrest⟩
/-- Lines that look the same are those of children that differ in their spans only. -/
theorem printLines_legible (kind : NodeKind) (depth : Nat) :
    ∀ (ps qs : List Property) (r s : List Char),
    printLines glyphs kind depth ps r = printLines glyphs kind depth qs s →
      eraseSpansAll ps = eraseSpansAll qs ∧ r = s
  | [], [], r, s, heq => ⟨rfl, by simpa [printLines, printProperties] using heq⟩
  | [], (slot, child) :: qs, r, s, heq => by
      simp only [printLines, printProperties, List.nil_append, List.append_assoc] at heq
      exact absurd heq (indentation_ne depth _ _)
  | (slot, child) :: ps, [], r, s, heq => by
      simp only [printLines, printProperties, List.nil_append, List.append_assoc] at heq
      exact absurd heq.symm (indentation_ne depth _ _)
  | (slot, child) :: ps, (slot', child') :: qs, r, s, heq => by
      simp only [printLines, printProperties, List.append_assoc, List.cons_append] at heq
      obtain ⟨rfl, hlabel⟩ :=
        slotLabel_legible kind trivial trivial (List.append_cancel_left heq)
      obtain ⟨hchild, hbehind⟩ := printChild_legible (depth + 1) child child' _ _ hlabel
      obtain ⟨hothers, hrest⟩ :=
        printLines_legible kind depth ps qs r s (List.cons.inj hbehind).2
      refine ⟨?_, hrest⟩
      rw [eraseSpansAll_cons, eraseSpansAll_cons, hchild, hothers]
/-- Children that look the same differ in their spans only. -/
theorem printChild_legible (depth : Nat) : ∀ (a b : Child Node) (r s : List Char),
    printChild glyphs depth a ++ r = printChild glyphs depth b ++ s →
      eraseSpansOf a = eraseSpansOf b ∧ r = s
  | .node a, .node b, r, s, heq => by
      have hnode : a.printAt glyphs depth ++ r = b.printAt glyphs depth ++ s := by
        simp only [printChild, List.append_assoc] at heq
        split at heq <;> split at heq
        · exact List.append_cancel_left heq
        · simp at heq
        · simp at heq
        · exact List.append_cancel_left heq
      obtain ⟨hchild, hrest⟩ := printAt_legible depth a b r s hnode
      exact ⟨congrArg Child.node hchild, hrest⟩
  | .token a, .token b, r, s, heq => by
      obtain ⟨htoken, hrest⟩ := Token.print_legible glyphs (List.cons.inj heq).2
      refine ⟨?_, hrest⟩
      rw [← htoken]
      rfl
  | .null, .null, r, s, heq => ⟨rfl, List.append_cancel_left heq⟩
  | .node a, .token b, r, s, heq => absurd heq (printChild_node_ne glyphs fun _ => rfl)
  | .token a, .node b, r, s, heq => absurd heq.symm (printChild_node_ne glyphs fun _ => rfl)
  | .node a, .null, r, s, heq => absurd heq (printChild_node_ne glyphs (by decide))
  | .null, .node b, r, s, heq => absurd heq.symm (printChild_node_ne glyphs (by decide))
  | .token a, .null, r, s, heq => by
      simp [printChild, Token.print] at heq
  | .null, .token b, r, s, heq => by
      simp [printChild, Token.print] at heq
end

/-! ## Spans are not printed -/

mutual
/-- A tree is printed alike wherever it stands. -/
theorem printAt_mapSpans (move : Nat → Nat) (depth : Nat) : ∀ node : Node,
    (node.mapSpans move).printAt glyphs depth = node.printAt glyphs depth
  | ⟨kind, ⟨start, stop⟩, attributes, properties⟩ => by
      rw [mapSpans, printAt, printAt, isEmpty_mapSpansAll,
        printProperties_mapSpansAll move kind (depth + 1) properties]
/-- Properties are printed alike wherever they stand. -/
theorem printProperties_mapSpansAll (move : Nat → Nat) (kind : NodeKind) (depth : Nat) :
    ∀ properties : List Property,
    printProperties glyphs kind depth (mapSpansAll move properties)
      = printProperties glyphs kind depth properties
  | [] => rfl
  | (slot, .node child) :: rest => by
      have hproperties : (child.mapSpans move).properties.isEmpty = child.properties.isEmpty := by
        cases child
        exact isEmpty_mapSpansAll ..
      simp only [mapSpansAll, printProperties, printChild, hproperties,
        printAt_mapSpans move depth child, printProperties_mapSpansAll move kind depth rest]
  | (slot, .token token) :: rest => by
      simp only [mapSpansAll, printProperties, printChild,
        printProperties_mapSpansAll move kind depth rest]
      rfl
  | (slot, .null) :: rest => by
      simp only [mapSpansAll, printProperties, printChild,
        printProperties_mapSpansAll move kind depth rest]
end

mutual
/-- A tree is spelled alike wherever it stands. -/
theorem sourceText_mapSpans (move : Nat → Nat) : ∀ node : Node,
    (node.mapSpans move).sourceText = node.sourceText
  | ⟨_, ⟨_, _⟩, _, properties⟩ => by
      simp only [mapSpans, sourceText_mk, spell_mapSpansAll move properties]
/-- Properties are spelled alike wherever they stand. -/
theorem spell_mapSpansAll (move : Nat → Nat) : ∀ properties : List Property,
    spell (mapSpansAll move properties) = spell properties
  | [] => rfl
  | (_, .node child) :: rest => by
      simp only [mapSpansAll, spell_node, sourceText_mapSpans move child,
        spell_mapSpansAll move rest]
  | (_, .token token) :: rest => by
      simp only [mapSpansAll, spell_token, spell_mapSpansAll move rest]
  | (_, .null) :: rest => by
      simp only [mapSpansAll, spell_null, spell_mapSpansAll move rest]
end

/-- Trees that are printed alike differ in their spans only. -/
theorem eraseSpans_eq_of_print_eq {a b : Node} (h : a.print glyphs = b.print glyphs) :
    a.eraseSpans = b.eraseSpans := by
  have heq : a.printAt glyphs 0 ++ [] = b.printAt glyphs 0 ++ [] := congrArg (· ++ []) h
  exact (printAt_legible glyphs 0 a b [] [] heq).1

/-- Trees that differ in their spans only are printed alike. -/
theorem print_eq_of_eraseSpans_eq {a b : Node} (h : a.eraseSpans = b.eraseSpans) :
    a.print glyphs = b.print glyphs := by
  calc a.print glyphs = a.eraseSpans.print glyphs := (printAt_mapSpans glyphs _ 0 a).symm
    _ = b.eraseSpans.print glyphs := by rw [h]
    _ = b.print glyphs := printAt_mapSpans glyphs _ 0 b

/-- Trees that are printed alike are spelled alike. -/
theorem sourceText_eq_of_print_eq {a b : Node} (h : a.print glyphs = b.print glyphs) :
    a.sourceText = b.sourceText := by
  calc a.sourceText = a.eraseSpans.sourceText := (sourceText_mapSpans _ a).symm
    _ = b.eraseSpans.sourceText := by rw [eraseSpans_eq_of_print_eq glyphs h]
    _ = b.sourceText := sourceText_mapSpans _ b

end PatternTree.Node

namespace PatternTree

/-- The tree of a pattern literal is spelled like the literal. -/
theorem sourceText_of_parse {text : List Char} {tree : Node} (h : parse text = .ok tree) :
    tree.sourceText = text := by
  obtain ⟨literal, -, rfl, rfl⟩ := parse_eq_ok_iff.mp h
  rw [Node.sourceText_place, literal.sourceText_tree]

/-- **Printed trees are unambiguous**, whatever the tables say about characters that cannot be
shown.  Any two trees are printed alike just if they differ in nothing but their spans: they have
the same kinds, the same slots with the same children, absences included, the same tokens with the
same marks and the same attributes.  So only one pattern literal has a given printed tree. -/
theorem print_unambiguous (glyphs : Text.Glyphs) :
    (∀ a b : Node, a.print glyphs = b.print glyphs ↔ a.eraseSpans = b.eraseSpans) ∧
      ∀ (first second : List Char) (a b : Node), parse first = .ok a → parse second = .ok b →
        a.print glyphs = b.print glyphs → first = second := by
  refine ⟨fun a b => ⟨?_, ?_⟩, ?_⟩
  · exact Node.eraseSpans_eq_of_print_eq glyphs
  · exact Node.print_eq_of_eraseSpans_eq glyphs
  · intro first second a b ha hb hprint
    rw [← sourceText_of_parse ha, ← sourceText_of_parse hb]
    exact Node.sourceText_eq_of_print_eq glyphs hprint

/-- A literal with quotation marks, backslashes and an absent child.  Its tree is printed alike when
it is moved, which changes nothing but its spans, and no other literal has a tree that is. -/
theorem print_unambiguous_example :
    let text := "/(?:'|\\n)[^\"]\x7b2,\x7d/i".toList
    ∃ tree, parse text = .ok tree ∧ (tree.moveTo 7).span.start = 7 ∧ tree.span.start = 0 ∧
      (tree.moveTo 7).print .standard = tree.print .standard ∧
      (tree.moveTo 7).eraseSpans = tree.eraseSpans ∧
      ∀ other b, parse other = .ok b → b.print .standard = (tree.moveTo 7).print .standard →
        other = text := by
  intro text
  obtain ⟨tree, htree⟩ := Production.exists_ok_of_isOk
    (show (parse text).isOk = true by decide +kernel)
  obtain ⟨literal, -, -, hplace⟩ := parse_eq_ok_iff.mp htree
  have hmoved : (tree.moveTo 7).print .standard = tree.print .standard :=
    Node.printAt_mapSpans .standard _ 0 tree
  obtain ⟨hspans, htexts⟩ := print_unambiguous .standard
  refine ⟨tree, htree, ?_, ?_, hmoved, (hspans _ _).mp hmoved, fun other b hother hprint => ?_⟩
  · rw [hplace, Node.moveTo_place]
    simp
  · rw [hplace]
    simp
  · exact htexts other text b tree hother htree (hprint.trans hmoved)

end PatternTree
