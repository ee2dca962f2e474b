import PatternTree.Proofs.Counting
import PatternTree.Proofs.Lossless

/-!
# What the attributes of a quantifier say of its bounds

The text of a quantifier behind its element says how often the element may be repeated
(`Bounds.read?`).  The attributes say less: as a maximum, zero and no limit at all are both recorded
as not set.  A maximum of zero leaves nothing but zero for the minimum, so the two can only be
confused where neither attribute is set; everywhere else the attributes give the bounds.

* `exists_bounded` — every quantifier has bounds and records them;
* `bounds_confused` — a quantifier without a limit and one with the limit zero, recorded alike;
* `bounds_of_attributes` — the attributes give the bounds unless neither of them is set.
-/

namespace PatternTree

/-- The bounds that a quantifier is written as: a sigil, or numbers between braces.  Without a comma
the lower bound is the upper one too; a comma with nothing behind it sets no limit. -/
def Bounds.read? : List Char → Option Bounds
  | ['*'] => some ⟨0, none⟩
  | ['+'] => some ⟨1, none⟩
  | ['?'] => some ⟨0, some 1⟩
  | '{' :: inside =>
    let least := Numeral.value 10 (inside.takeWhile Char.isDigit)
    match inside.dropWhile Char.isDigit with
    | ',' :: upper =>
      let digits := upper.takeWhile Char.isDigit
      some ⟨least, if digits = [] then none else some (Numeral.value 10 digits)⟩
    | _ => some ⟨least, some least⟩
  | _ => none

namespace Node

/-- The bounds of a quantifier, read off its text behind the element. -/
def bounds? (quantified : Node) : Option Bounds := do
  let element ← quantified.node? .element
  Bounds.read? (quantified.sourceText.drop element.sourceText.length)

/-- The node is a quantifier in the tree of some accepted pattern. -/
def Quantifies (quantified : Node) : Prop :=
  ∃ text tree, parse text = .ok tree ∧ tree.Contains quantified ∧ quantified.kind = .quantifier

/-- A quantifier has the given bounds, in order, and records them: zero and no limit are not
set. -/
structure Bounded (quantified : Node) (bounds : Bounds) : Prop where
  denotes : quantified.bounds? = some bounds
  ordered : ∀ most, bounds.most = some most → bounds.least ≤ most
  min : quantified.attribute? .min = some (limit bounds.least)
  max : quantified.attribute? .max = some (bounds.most.elim .absent limit)

end Node

/-! ## Reading bounds -/

namespace Grammar

/-- The digits of a count end where no digit follows. -/
theorem Count.splits (count : Count) {c : Char} (rest : List Char) (hc : c.isDigit = false) :
    (count.digits ++ c :: rest).takeWhile Char.isDigit = count.digits ∧
      (count.digits ++ c :: rest).dropWhile Char.isDigit = c :: rest := by
  have hdigits : ∀ d ∈ count.digits, d.isDigit = true := by
    intro d hd
    rw [← Numeral.isDigit_ten]
    exact List.all_eq_true.mp count.decimal d hd
  constructor
  · rw [List.takeWhile_append_of_pos hdigits, List.takeWhile_cons_of_neg (by simp [hc]),
      List.append_nil]
  · rw [List.dropWhile_append_of_pos hdigits, List.dropWhile_cons_of_neg (by simp [hc])]

/-- A quantifier is read as the bounds that it stands for. -/
theorem Quantifier.read?_text (quantifier : Quantifier) :
    Bounds.read? quantifier.text = some quantifier.bounds := by
  cases quantifier with
  | sigil c known =>
      simp only [List.mem_cons, List.not_mem_nil, or_false] at known
      rcases known with rfl | rfl | rfl <;> rfl
  | exactly count =>
      obtain ⟨htake, hdrop⟩ := count.splits [] (show '}'.isDigit = false by decide)
      simp only [Quantifier.text, Bounds.read?, htake, hdrop]
      rfl
  | atLeast least =>
      obtain ⟨htake, hdrop⟩ := least.splits ['}'] (show ','.isDigit = false by decide)
      simp only [Quantifier.text, Bounds.read?, htake, hdrop]
      rfl
  | between least most ordered =>
      obtain ⟨htake, hdrop⟩ :=
        least.splits (most.digits ++ ['}']) (show ','.isDigit = false by decide)
      obtain ⟨hupper, -⟩ := most.splits [] (show '}'.isDigit = false by decide)
      simp only [Quantifier.text, Bounds.read?, htake, hdrop, hupper, if_neg most.nonempty]
      rfl

/-- The bounds of a quantifier are in order. -/
theorem Quantifier.ordered_bounds (quantifier : Quantifier) {most : Nat}
    (h : quantifier.bounds.most = some most) : quantifier.bounds.least ≤ most := by
  cases quantifier with
  | sigil c known =>
      simp only [List.mem_cons, List.not_mem_nil, or_false] at known
      rcases known with rfl | rfl | rfl
      · cases h
      · cases h
      · exact Nat.zero_le most
  | exactly count => exact Nat.le_of_eq (Option.some.inj h)
  | atLeast least => cases h
  | between least upper ordered =>
      obtain rfl := Option.some.inj h
      exact ordered

/-- The tree of an atom under a quantifier has the bounds of the quantifier. -/
theorem bounded_itemTree (atom : Atom) (quantifier : Quantifier) (start : Nat) :
    ((itemTree (atom, some quantifier)).place start).Bounded quantifier.bounds where
  denotes := by
    have helement : ((itemTree (atom, some quantifier)).place start).node? .element
        = some (atom.tree.place start) := rfl
    rw [Node.bounds?, helement, Option.bind_eq_bind, Option.bind_some, Node.sourceText_place,
      Node.sourceText_place, sourceText_itemTree, itemText, Atom.sourceText_tree,
      List.drop_left, quantifierText, Option.elim_some, quantifier.read?_text]
  ordered := fun _ => quantifier.ordered_bounds
  min := by
    rw [← ofBound_eq]
    rfl
  max := by
    rw [← funext ofBound_eq]
    rfl

end Grammar

/-! ## Bounds and attributes -/

/-- Every quantifier of an accepted pattern has bounds and records them. -/
theorem Node.Quantifies.exists_bounded {quantified : Node} (h : quantified.Quantifies) :
    ∃ bounds, quantified.Bounded bounds := by
  obtain ⟨text, tree, hparse, hbelow, hkind⟩ := h
  obtain ⟨original, start, hpart, rfl, -⟩ := exists_part hparse hbelow
  rw [Node.place_kind] at hkind
  obtain ⟨atom, quantifier, -, rfl⟩ := hpart.atom_of_kind hkind
  exact ⟨quantifier.bounds, Grammar.bounded_itemTree atom quantifier start⟩

/-- A limit of zero is all that is not set. -/
theorem limit_eq_absent_iff {value : Nat} : limit value = .absent ↔ value = 0 := by
  simp [limit]

/-- Different limits are recorded differently. -/
theorem limit_injective {value other : Nat} (h : limit value = limit other) : value = other := by
  unfold limit at h
  split at h <;> split at h <;> simp_all

namespace Node.Bounded

variable {quantified other : Node} {bounds otherBounds : Bounds}

/-- The maximum is not set just if there is no limit or nothing but zero is allowed. -/
theorem max_absent_iff (h : quantified.Bounded bounds) :
    quantified.attribute? .max = some .absent ↔ bounds.most = none ∨ bounds = ⟨0, some 0⟩ := by
  obtain ⟨least, most⟩ := bounds
  rw [h.max]
  cases most with
  | none => simp
  | some most =>
      have hordered : least ≤ most := h.ordered most rfl
      simp only [Option.elim_some, Option.some.injEq, limit_eq_absent_iff, reduceCtorEq, false_or,
        Bounds.mk.injEq]
      omega

/-- The minimum is not set just if it is zero. -/
theorem min_absent_iff (h : quantified.Bounded bounds) :
    quantified.attribute? .min = some .absent ↔ bounds.least = 0 := by
  rw [h.min, Option.some.injEq, limit_eq_absent_iff]

/-- Where the attributes agree, so do the bounds, unless neither attribute is set. -/
theorem eq_of_attributes (h : quantified.Bounded bounds) (hother : other.Bounded otherBounds)
    (hmin : quantified.attribute? .min = other.attribute? .min)
    (hmax : quantified.attribute? .max = other.attribute? .max) :
    bounds = otherBounds ∨
      (quantified.attribute? .min = some .absent ∧ quantified.attribute? .max = some .absent) := by
  have hleast : bounds.least = otherBounds.least := by
    rw [h.min, hother.min] at hmin
    exact limit_injective (Option.some.inj hmin)
  obtain ⟨least, most⟩ := bounds
  obtain ⟨otherLeast, otherMost⟩ := otherBounds
  obtain rfl : least = otherLeast := hleast
  have hlimits : most.elim .absent limit = otherMost.elim .absent limit := by
    rw [h.max, hother.max] at hmax
    exact Option.some.inj hmax
  cases most with
  | none =>
      cases otherMost with
      | none => exact .inl rfl
      | some otherMost =>
          -- the limit of the other one is zero, and so is the minimum of both
          obtain rfl : otherMost = 0 := limit_eq_absent_iff.mp hlimits.symm
          have hzero : least = 0 := Nat.le_zero.mp (hother.ordered 0 rfl)
          exact .inr ⟨h.min_absent_iff.mpr hzero, h.max_absent_iff.mpr (.inl rfl)⟩
  | some most =>
      cases otherMost with
      | none =>
          obtain rfl : most = 0 := limit_eq_absent_iff.mp hlimits
          have hzero : least = 0 := Nat.le_zero.mp (h.ordered 0 rfl)
          refine .inr ⟨h.min_absent_iff.mpr hzero, h.max_absent_iff.mpr (.inr ?_)⟩
          rw [hzero]
      | some otherMost =>
          obtain rfl : most = otherMost := limit_injective hlimits
          exact .inl rfl

/-- Where neither attribute is set, there is no limit or nothing but zero is allowed. -/
theorem mem_of_absent (h : quantified.Bounded bounds)
    (hmin : quantified.attribute? .min = some .absent)
    (hmax : quantified.attribute? .max = some .absent) :
    bounds ∈ [⟨0, none⟩, ⟨0, some 0⟩] := by
  obtain ⟨least, most⟩ := bounds
  obtain rfl : least = 0 := h.min_absent_iff.mp hmin
  rcases h.max_absent_iff.mp hmax with hnone | hzero
  · obtain rfl : most = none := hnone
    exact List.mem_cons_self
  · rw [hzero]
    exact List.mem_cons_of_mem _ List.mem_cons_self

end Node.Bounded

/-- A lone element under a quantifier is contained in the tree of its literal. -/
theorem parse_lone_quantified {atom : Grammar.Atom} (hatom : atom.Admissible 64)
    (quantifier : Grammar.Quantifier) :
    ∃ tree, parse (slashed (Grammar.itemText (atom, some quantifier))) = .ok tree ∧
      tree.Contains ((Grammar.itemTree (atom, some quantifier)).place 1) := by
  obtain ⟨alternative, hbody, helement⟩ :=
    Grammar.holdsOnly_unflagged_iff.mpr ⟨(atom, some quantifier), rfl, rfl, rfl⟩
  have halternative : (Slot.alternatives, Child.node alternative) ∈ _ :=
    (List.mem_filter.mp (hbody ▸ List.mem_cons_self)).1
  exact ⟨_, parse_lone hatom,
    (Node.Contains.self.step halternative).step (helement ▸ List.mem_cons_self)⟩

/-- The same attributes are recorded for an element that may be repeated without a limit and for
one that may not occur at all. -/
theorem bounds_confused :
    ∃ tree other starred dropped,
      parse "/a*/".toList = .ok tree ∧ tree.Contains starred ∧ starred.kind = .quantifier ∧
      parse "/a\x7b0\x7d/".toList = .ok other ∧ other.Contains dropped ∧
      dropped.kind = .quantifier ∧ starred.attributes = dropped.attributes ∧
      dropped.attribute? .max = some .absent ∧
      starred.bounds? = some ⟨0, none⟩ ∧ dropped.bounds? = some ⟨0, some 0⟩ := by
  have hplain : 'a' ∉ ['\r', '\n', '\t', '\\'] ∧ 'a' ∉ Grammar.reserved .pattern := by decide
  have hatom : (Grammar.Atom.character (.plain 'a' hplain)).Admissible 64 :=
    Grammar.Atom.admissible_character
  obtain ⟨tree, htree, hstarred⟩ := parse_lone_quantified hatom (.sigil '*' (by decide))
  obtain ⟨other, hother, hdropped⟩ :=
    parse_lone_quantified hatom (.exactly ⟨['0'], by decide, by decide, by decide⟩)
  exact ⟨tree, other, _, _, htree, hstarred, Node.place_kind 1 _, hother, hdropped,
    Node.place_kind 1 _, rfl, rfl, (Grammar.bounded_itemTree _ _ 1).denotes,
    (Grammar.bounded_itemTree _ _ 1).denotes⟩

/-- **The attributes of a quantifier give its bounds unless neither of them is set.**  The maximum
is not set just if there is no limit or nothing but zero is allowed.  Two quantifiers with the same
attributes have the same bounds, but for those with no limit and those that allow nothing but
zero. -/
theorem bounds_of_attributes {quantified other : Node} (h : quantified.Quantifies)
    (hother : other.Quantifies) :
    ∃ bounds otherBounds, quantified.bounds? = some bounds ∧ other.bounds? = some otherBounds ∧
      (quantified.attribute? .max = some .absent ↔ bounds.most = none ∨ bounds = ⟨0, some 0⟩) ∧
      (quantified.attribute? .min = other.attribute? .min →
        quantified.attribute? .max = other.attribute? .max →
        bounds = otherBounds ∨
          (quantified.attribute? .min = some .absent ∧
            quantified.attribute? .max = some .absent ∧
            bounds ∈ [⟨0, none⟩, ⟨0, some 0⟩] ∧ otherBounds ∈ [⟨0, none⟩, ⟨0, some 0⟩])) := by
  obtain ⟨bounds, hbounds⟩ := h.exists_bounded
  obtain ⟨otherBounds, hotherBounds⟩ := hother.exists_bounded
  refine ⟨bounds, otherBounds, hbounds.denotes, hotherBounds.denotes, hbounds.max_absent_iff, ?_⟩
  intro hmin hmax
  rcases hbounds.eq_of_attributes hotherBounds hmin hmax with heq | ⟨hnone, hunset⟩
  · exact .inl heq
  · exact .inr ⟨hnone, hunset, hbounds.mem_of_absent hnone hunset,
      hotherBounds.mem_of_absent (hmin.symm.trans hnone) (hmax.symm.trans hunset)⟩

/-- A sigil and bounds in braces with the same attributes, and with the same bounds. -/
theorem bounds_of_attributes_example :
    ∃ sigil braced : Node, sigil.Quantifies ∧ sigil.sourceText = "a+".toList ∧
      braced.Quantifies ∧ braced.sourceText = "a\x7b01,\x7d".toList ∧
      sigil.attributes = braced.attributes ∧ sigil.bounds? = braced.bounds? := by
  have hplain : 'a' ∉ ['\r', '\n', '\t', '\\'] ∧ 'a' ∉ Grammar.reserved .pattern := by decide
  have hatom : (Grammar.Atom.character (.plain 'a' hplain)).Admissible 64 :=
    Grammar.Atom.admissible_character
  have hquantifies : ∀ quantifier,
      ((Grammar.itemTree (.character (.plain 'a' hplain), some quantifier)).place
        1).Quantifies := by
    intro quantifier
    obtain ⟨tree, htree, hbelow⟩ := parse_lone_quantified hatom quantifier
    exact ⟨_, tree, htree, hbelow, Node.place_kind 1 _⟩
  have hsigil := hquantifies (.sigil '+' (by decide))
  have hbraced := hquantifies (.atLeast ⟨['0', '1'], by decide, by decide, by decide⟩)
  obtain ⟨bounds, otherBounds, hbounds, hotherBounds, -, hequal⟩ :=
    bounds_of_attributes hsigil hbraced
  refine ⟨_, _, hsigil, rfl, hbraced, rfl, rfl, ?_⟩
  rcases hequal rfl rfl with rfl | ⟨hunset, -⟩
  · rw [hbounds, hotherBounds]
  · have hone : some (Attribute.integer 1) = some .absent := hunset
    simp at hone

end PatternTree
