import PatternTree.Proofs.Bodies
import PatternTree.Proofs.Rejection.Literal
import PatternTree.Proofs.Rejection.Propagation

/-!
# Flags behind a literal and flags alone

Flags are read in the same way behind the closing slash of a literal as on their own: only their
letters decide, and whatever the literal holds has been read before them.  So what is read for
letters alone is found again in the literal, moved by its width, and what is wrong with them is
wrong with the literal in the same way and at the same letter.

* `parse_append_flags` — flags that are read;
* `parse_append_repeated`, `parse_append_trailing` — letters that are rejected;
* `parse_flags_agree` — both entry points agree.
-/

namespace PatternTree

/-- The tree with another node for its flags, up to a later end. -/
def Node.withFlags (tree flags : Node) (stop : Nat) : Node :=
  { tree with
    span := { tree.span with stop := stop }
    properties := tree.properties.map fun property =>
      if property.1 = .flags then (.flags, .node flags) else property }

namespace Grammar

/-! ## Trees of literals with flags -/

theorem spell_slashedProperties (first : List Item) (others : List (List Item)) :
    Node.spell (slashedProperties first others) = (unflagged first others).text := by
  simp [slashedProperties, Literal.text, unflagged]

/-- The tree of a literal, laid out, in front of its flags and from there on. -/
theorem Literal.place_tree (literal : Literal) :
    literal.tree.place 0 = ⟨.pattern, ⟨0, Text.byteLength literal.text⟩, [],
      Node.placeAll 0 (slashedProperties literal.first literal.others)
        ++ [(.flags, .node ((flagsTree literal.flags).place
          (Text.byteLength (unflagged literal.first literal.others).text)))]⟩ := by
  have htree : literal.tree = .bare .pattern [] (slashedProperties literal.first literal.others
      ++ [(.flags, .node (flagsTree literal.flags))]) := by
    simp [Literal.tree, slashedProperties]
  have htext : literal.text = Node.spell (slashedProperties literal.first literal.others
      ++ [(.flags, .node (flagsTree literal.flags))]) := by
    rw [← literal.sourceText_tree, htree, Node.sourceText_bare]
  rw [htext, htree, Node.bare, Node.place, Node.placeAll_append, spell_slashedProperties,
    Nat.zero_add, Nat.zero_add]
  simp [Node.placeAll]

/-- What stands in front of the flags of a literal is not replaced with them. -/
theorem map_slashedProperties (first : List Item) (others : List (List Item)) (flags : Node) :
    ((Node.placeAll 0 (slashedProperties first others)).map fun property =>
        if property.1 = .flags then (.flags, .node flags) else property)
      = Node.placeAll 0 (slashedProperties first others) := by
  refine (List.map_congr_left (g := id) fun property hproperty => ?_).trans (List.map_id _)
  exact if_neg (slot_ne_flags hproperty)

/-- The tree of a literal is that of the literal without flags, but for the flags. -/
theorem Literal.place_withFlags (literal : Literal) :
    literal.tree.place 0
      = ((unflagged literal.first literal.others).tree.place 0).withFlags
        ((flagsTree literal.flags).place
          (Text.byteLength (unflagged literal.first literal.others).text))
        (Text.byteLength literal.text) := by
  rw [literal.place_tree, (unflagged literal.first literal.others).place_tree, Node.withFlags]
  simp [map_slashedProperties, unflagged]

end Grammar

open Grammar Production

variable {first : List Item} {others : List (List Item)} {letters : List Char}

/-- Letters behind a literal are read as its flags if they are read alone. -/
theorem parse_append_flags {node : Node}
    (hadmissible : ∀ items ∈ first :: others, AdmissibleAlternative 64 items)
    (h : parseFlags letters = .ok node) :
    parse ((unflagged first others).text ++ letters)
      = .ok (((unflagged first others).tree.place 0).withFlags
          (node.shift (Text.byteLength (unflagged first others).text))
          (Text.byteLength (unflagged first others).text + Text.byteLength letters)) := by
  obtain ⟨hknown, hdistinct, rfl⟩ := parseFlags_eq_ok_iff.mp h
  have htext := text_eq_unflagged ⟨first, others, letters, hknown, hdistinct⟩
  have hplace := (Literal.mk first others letters hknown hdistinct).place_withFlags
  rw [htext, Text.byteLength_append] at hplace
  rw [Node.shift_place, Nat.zero_add]
  exact parse_eq_ok_iff.mpr
    ⟨⟨first, others, letters, hknown, hdistinct⟩, hadmissible, htext, hplace.symm⟩

section Rejected

variable {run rest : List Char} (hrun : run.all Flag.letters.contains = true)
  (hstop : Scanner.begins Flag.letters.contains rest = false)

include hrun hstop

/-- Letters of which one is repeated are rejected, whatever stands behind them. -/
theorem parseFlags_append_repeated {front : List Char} {c : Char} (hrepeats : Repeats run front c) :
    parseFlags (run ++ rest)
      = .error (.rejected ⟨Text.byteLength front, .duplicateFlag c⟩) := by
  have hflags : Production.flags (.new (run ++ rest))
      = reject (0 + Text.byteLength front) (.duplicateFlag c) :=
    flags_eq_reject rfl hrun hstop hrepeats
  rw [Nat.zero_add] at hflags
  exact whole_eq_error hflags

/-- Text behind different letters is rejected. -/
theorem parseFlags_append_trailing (hdistinct : run.Nodup) (hrest : rest ≠ []) :
    parseFlags (run ++ rest) = .error (.rejected ⟨Text.byteLength run, .trailingText⟩) :=
  whole_eq_reject (flags_eq_ok_iff.mpr ⟨run, by simpa using hrun, hdistinct, hstop,
    Scanner.reads_new_append run rest, rfl⟩) hrest

variable (hadmissible : ∀ items ∈ first :: others, AdmissibleAlternative 64 items)

include hadmissible

/-- Letters of which one is repeated are rejected behind a literal as they are alone. -/
theorem parse_append_repeated {front : List Char} {c : Char} (hrepeats : Repeats run front c) :
    parseFlags (run ++ rest) = .error (.rejected ⟨Text.byteLength front, .duplicateFlag c⟩) ∧
    parse ((unflagged first others).text ++ (run ++ rest)) = .error (.rejected
      ⟨Text.byteLength (unflagged first others).text + Text.byteLength front,
        .duplicateFlag c⟩) := by
  constructor
  · exact parseFlags_append_repeated hrun hstop hrepeats
  · have hreads := Scanner.reads_new_append (unflagged first others).text (run ++ rest)
    obtain ⟨inside, behind, outside, hopen, hbody, hclose, hnone⟩ := reads_literal hreads
    obtain rfl := Scanner.reads_nil.mp hnone
    exact whole_eq_error (pattern_eq_error_of_flags rfl hadmissible hopen hbody hclose
      (flags_eq_reject rfl hrun hstop hrepeats))

/-- Text behind flags is rejected behind a literal as it is behind flags alone. -/
theorem parse_append_trailing (hdistinct : run.Nodup) (hrest : rest ≠ []) :
    parseFlags (run ++ rest) = .error (.rejected ⟨Text.byteLength run, .trailingText⟩) ∧
    parse ((unflagged first others).text ++ (run ++ rest)) = .error (.rejected
      ⟨Text.byteLength (unflagged first others).text + Text.byteLength run, .trailingText⟩) := by
  have hknown : ∀ c ∈ run, c ∈ Flag.letters := by simpa using hrun
  constructor
  · exact parseFlags_append_trailing hrun hstop hdistinct hrest
  · have hreads := Scanner.reads_new_append ((unflagged first others).text ++ run) rest
    rw [← List.append_assoc, ← Text.byteLength_append]
    have htext := text_eq_unflagged ⟨first, others, run, hknown, hdistinct⟩
    refine whole_eq_reject ((pattern_eq_ok_iff rfl).mpr
      ⟨⟨first, others, run, hknown, hdistinct⟩, hadmissible, hstop, ?_, rfl⟩) hrest
    rwa [htext]

end Rejected

/-- A literal whose flags are empty has no flag letters. -/
theorem exists_unflagged {body : List Char} {tree flags : Node} (h : parse body = .ok tree)
    (hflags : tree.node? .flags = some flags) (hempty : flags.properties = []) :
    ∃ first others, (∀ items ∈ first :: others, AdmissibleAlternative 64 items) ∧
      body = (unflagged first others).text ∧ tree = (unflagged first others).tree.place 0 := by
  obtain ⟨⟨first, others, run, known, distinct⟩, hadmissible, rfl, rfl⟩ := parse_eq_ok_iff.mp h
  obtain ⟨flags', hflags', hrun⟩ :=
    (Literal.mk first others run known distinct).exists_flags 0
  obtain rfl : flags = flags' := Option.some.inj (hflags.symm.trans hflags')
  obtain rfl : [] = run := by
    rw [Node.sourceText_eq_spell, hempty] at hrun
    exact hrun
  exact ⟨first, others, hadmissible, rfl, rfl⟩

/-- **Flags behind a literal and flags alone agree.**  Behind a literal without flags, letters are
read as its flags just as they are read alone, and rejected just as they are rejected alone, further
on by the width of the literal. -/
theorem parse_flags_agree {body : List Char} {tree flags : Node} (h : parse body = .ok tree)
    (hflags : tree.node? .flags = some flags) (hempty : flags.properties = [])
    (letters : List Char) :
    (∀ node, parseFlags letters = .ok node →
      parse (body ++ letters) = .ok (tree.withFlags (node.shift (Text.byteLength body))
        (Text.byteLength body + Text.byteLength letters))) ∧
    ∀ position kind, parseFlags letters = .error (.rejected ⟨position, kind⟩) →
      parse (body ++ letters)
        = .error (.rejected ⟨Text.byteLength body + position, kind⟩) := by
  obtain ⟨first, others, hadmissible, rfl, rfl⟩ := exists_unflagged h hflags hempty
  refine ⟨fun node hnode => parse_append_flags hadmissible hnode, fun position kind herror => ?_⟩
  obtain ⟨run, hletters⟩ : ∃ run, ((Scanner.new letters).matched? .flagRun).getD [] = run :=
    ⟨_, rfl⟩
  obtain ⟨rest, hsplit, hrun, hstop⟩ := matched?_flagRun_iff.mp hletters
  obtain rfl : letters = run ++ rest := hsplit
  by_cases hdistinct : run.Nodup
  · by_cases hrest : rest = []
    · have hok : parseFlags (run ++ rest) = .ok ((flagsTree run).place 0) := by
        rw [hrest, List.append_nil]
        exact parseFlags_eq_ok_iff.mpr ⟨by simpa using hrun, hdistinct, rfl⟩
      simp [hok] at herror
    · obtain ⟨halone, hbehind⟩ := parse_append_trailing hrun hstop hadmissible hdistinct hrest
      rw [halone] at herror
      obtain ⟨rfl, rfl⟩ : Text.byteLength run = position ∧ .trailingText = kind := by
        simpa using herror
      exact hbehind
  · obtain ⟨front, c, hrepeats⟩ := exists_repeats hdistinct
    obtain ⟨halone, hbehind⟩ := parse_append_repeated hrun hstop hadmissible hrepeats
    rw [halone] at herror
    obtain ⟨rfl, rfl⟩ : Text.byteLength front = position ∧ .duplicateFlag c = kind := by
      simpa using herror
    exact hbehind

/-- Flags behind a literal, a repeated letter, and text that is no flag. -/
theorem flags_agree_example :
    ∃ tree flags node, parse ['/', 'é', '/'] = .ok tree ∧ tree.node? .flags = some flags ∧
      flags.properties = [] ∧ parseFlags ['y', 'i'] = .ok node ∧
      parse ['/', 'é', '/', 'y', 'i'] = .ok (tree.withFlags (node.shift 4) 6) ∧
      parseFlags ['y', 'i', 'y', '?'] = .error (.rejected ⟨2, .duplicateFlag 'y'⟩) ∧
      parse ['/', 'é', '/', 'y', 'i', 'y', '?'] = .error (.rejected ⟨6, .duplicateFlag 'y'⟩) ∧
      parseFlags ['y', '?'] = .error (.rejected ⟨1, .trailingText⟩) ∧
      parse ['/', 'é', '/', 'y', '?'] = .error (.rejected ⟨5, .trailingText⟩) := by
  have htree : parse ['/', 'é', '/'] = .ok ((unflagged _ []).tree.place 0) := parse_eq_ok_iff.mpr
    ⟨unflagged [(.character (.plain 'é' (by decide)), none)] [], List.forall_mem_singleton.mpr
      (admissible_singleton Atom.admissible_character), rfl, rfl⟩
  have hnode : parseFlags ['y', 'i'] = .ok ((flagsTree ['y', 'i']).place 0) :=
    parseFlags_eq_ok_iff.mpr ⟨by simp [Flag.letters, Flag.all, Flag.letter], by decide, rfl⟩
  have hrepeated : parseFlags ['y', 'i', 'y', '?'] = .error (.rejected ⟨2, .duplicateFlag 'y'⟩) :=
    rfl
  have htrailing : parseFlags ['y', '?'] = .error (.rejected ⟨1, .trailingText⟩) := rfl
  have hagree := fun letters => parse_flags_agree htree rfl rfl letters
  exact ⟨_, _, _, htree, rfl, rfl, hnode, (hagree _).1 _ hnode, hrepeated,
    (hagree _).2 _ _ hrepeated, htrailing, (hagree _).2 _ _ htrailing⟩

end PatternTree
