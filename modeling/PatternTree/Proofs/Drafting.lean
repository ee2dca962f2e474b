import PatternTree.Proofs.Reading

/-!
# Drafts and repetition

A production collects the children of its node in a draft while it reads.  This file says when
a child or an attribute is accepted and what the draft is then, and gives the rule by which all
repetitions are understood: a step that reads one entry wherever an entry may stand, and stops
exactly where none may, collects a list of entries (`collect_eq_ok_iff`).
-/

namespace PatternTree

/-- Whether a node of a kind may have a further child in a slot when the given slots have been
filled. -/
def NodeKind.hasRoom (kind : NodeKind) (filled : List Slot) (slot : Slot) : Bool :=
  match kind.multiplicity? slot with
  | none => false
  | some .many => true
  | some _ => !filled.contains slot

/-- There is room in a slot that has not been filled. -/
theorem NodeKind.hasRoom_of_not_mem {kind : NodeKind} {filled : List Slot} {slot : Slot}
    (known : (kind.multiplicity? slot).isSome = true) (free : slot ∉ filled) :
    kind.hasRoom filled slot = true := by
  unfold hasRoom
  split
  · next hnone => simp [hnone] at known
  · rfl
  · simpa using free

namespace Builder

/-- The slots that have been recorded, in order. -/
def slots (draft : Builder) : List Slot :=
  draft.properties.toList.map Prod.fst

/-- The draft with further children. -/
def extend (draft : Builder) (properties : List Property) : Builder :=
  { draft with properties := draft.properties ++ properties.toArray }

/-- The draft with further attributes. -/
def annotate (draft : Builder) (attributes : List (AttributeName × Attribute)) : Builder :=
  { draft with attributes := draft.attributes ++ attributes.toArray }

@[simp] theorem new_kind (kind : NodeKind) (start : Nat) : (new kind start).kind = kind := rfl

@[simp] theorem extend_kind (draft : Builder) (properties : List Property) :
    (draft.extend properties).kind = draft.kind := rfl

@[simp] theorem annotate_kind (draft : Builder)
    (attributes : List (AttributeName × Attribute)) :
    (draft.annotate attributes).kind = draft.kind := rfl

@[simp] theorem new_slots (kind : NodeKind) (start : Nat) : (new kind start).slots = [] := rfl

@[simp] theorem extend_slots (draft : Builder) (properties : List Property) :
    (draft.extend properties).slots = draft.slots ++ properties.map Prod.fst := by
  simp [slots, extend]

@[simp] theorem annotate_slots (draft : Builder)
    (attributes : List (AttributeName × Attribute)) :
    (draft.annotate attributes).slots = draft.slots := rfl

@[simp] theorem extend_nil (draft : Builder) : draft.extend [] = draft := by
  simp [extend]

@[simp] theorem extend_extend (draft : Builder) (front back : List Property) :
    (draft.extend front).extend back = draft.extend (front ++ back) := by
  simp [extend]

/-- What a draft was extended by is told by the outcome. -/
theorem extend_inj {draft : Builder} {front back : List Property}
    (h : draft.extend front = draft.extend back) : front = back := by
  simpa [extend] using congrArg (·.properties.toList) h

/-- Children and attributes do not depend on the order they are recorded in. -/
theorem extend_annotate (draft : Builder) (properties : List Property)
    (attributes : List (AttributeName × Attribute)) :
    (draft.annotate attributes).extend properties
      = (draft.extend properties).annotate attributes := rfl

@[simp] theorem annotate_nil (draft : Builder) : draft.annotate [] = draft := by
  simp [annotate]

@[simp] theorem annotate_annotate (draft : Builder)
    (front back : List (AttributeName × Attribute)) :
    (draft.annotate front).annotate back = draft.annotate (front ++ back) := by
  simp [annotate]

/-- Whether there is room depends on the kind of a draft and its slots only. -/
theorem hasRoom_of_eq {draft : Builder} {kind : NodeKind} {filled : List Slot} {slot : Slot}
    (hkind : draft.kind = kind) (hslots : draft.slots = filled)
    (room : kind.hasRoom filled slot = true) :
    draft.kind.hasRoom draft.slots slot = true := by
  rw [hkind, hslots]
  exact room

/-- There is always room in a slot that holds many children. -/
theorem hasRoom_of_many {draft : Builder} {kind : NodeKind} {slot : Slot}
    (hkind : draft.kind = kind) (many : kind.multiplicity? slot = some .many) :
    draft.kind.hasRoom draft.slots slot = true := by
  rw [hkind, NodeKind.hasRoom, many]

/-- Whether a slot is free depends on the slots that have been recorded only. -/
theorem isFree_eq (draft : Builder) (slot : Slot) :
    draft.isFree slot = draft.kind.hasRoom draft.slots slot := by
  have hall : ∀ properties : List Property,
      properties.all (·.1 != slot) = !(properties.map Prod.fst).contains slot := by
    intro properties
    induction properties with
    | nil => rfl
    | cons property rest ih =>
        have hcomm : (property.1 != slot) = !(slot == property.1) := by
          rw [bne, BEq.comm]
        rw [List.all_cons, List.map_cons, List.contains_cons, Bool.not_or, ih, hcomm]
  rw [isFree, NodeKind.hasRoom]
  split <;> simp_all [slots]

/-- Recording a child that fits. -/
theorem addChild_eq_ok_iff {draft next : Builder} {slot : Slot} {child : Child Node} :
    draft.addChild slot child = .ok next ↔
      draft.isFree slot = true ∧ next = draft.extend [(slot, child)] := by
  rw [addChild_eq_ok]
  simp [extend]

/-- Recording an attribute that fits. -/
theorem addAttribute_eq_ok_iff {draft next : Builder} {name : AttributeName}
    {value : Attribute} :
    draft.addAttribute name value = .ok next ↔
      name ∈ draft.kind.attributeNames ∧ next = draft.annotate [(name, value)] := by
  rw [addAttribute_eq_ok]
  simp [annotate]

end Builder

namespace Production

variable {α β : Type}

/-- An attempt that succeeds has a result. -/
theorem exists_ok_of_isOk {attempt : Attempt α} (h : attempt.isOk = true) :
    ∃ a, attempt = .ok a := by
  cases attempt with
  | error failure => simp [Except.isOk, Except.toBool] at h
  | ok a => exact ⟨a, rfl⟩

/-- An attempt followed by another succeeds just if both do. -/
theorem bind_eq_ok_iff {attempt : Attempt α} {next : α → Attempt β} {result : β} :
    (attempt >>= next) = .ok result ↔ ∃ a, attempt = .ok a ∧ next a = .ok result := by
  cases attempt with
  | error failure => simp [bind, Except.bind]
  | ok a => simp [bind, Except.bind]

/-- An attempt whose result is shown in another form succeeds just if it does. -/
theorem map_eq_ok_iff {attempt : Attempt α} {view : α → β} {result : β} :
    attempt.map view = .ok result ↔ ∃ a, attempt = .ok a ∧ view a = result := by
  cases attempt with
  | error failure => simp [Except.map]
  | ok a => simp [Except.map]

@[simp] theorem ok_bind (a : α) (next : α → Attempt β) :
    ((.ok a : Attempt α) >>= next) = next a := rfl

@[simp] theorem pure_eq_ok_iff {a result : α} :
    (pure a : Attempt α) = .ok result ↔ result = a := by
  simp [pure, Except.pure, eq_comm]

@[simp] theorem reject_ne_ok {position : Nat} {kind : ErrorKind} {result : α} :
    (reject position kind : Attempt α) = .ok result ↔ False := by
  simp [reject]

/-- What went well is not affected by how failures are reported. -/
theorem mapError_eq_ok_iff {ε δ : Type} {result : Except ε α} {report : ε → δ} {a : α} :
    result.mapError report = .ok a ↔ result = .ok a := by
  cases result with
  | error cause =>
      constructor
      · intro h
        cases h
      · intro h
        cases h
  | ok b =>
      constructor
      · intro h
        exact congrArg Except.ok (Except.ok.inj h)
      · intro h
        exact congrArg Except.ok (Except.ok.inj h)

/-- A child is recorded just if its slot is free, and it comes behind the others. -/
theorem record_eq_ok_iff {draft next : Builder} {slot : Slot} {child : Child Node} :
    record draft slot child = .ok next ↔
      draft.isFree slot = true ∧ next = draft.extend [(slot, child)] := by
  rw [record, ← Builder.addChild_eq_ok_iff]
  exact mapError_eq_ok_iff

/-- An attribute is recorded just if the kind of node has it, and it comes behind the others. -/
theorem note_eq_ok_iff {draft next : Builder} {name : AttributeName} {value : Attribute} :
    note draft name value = .ok next ↔
      name ∈ draft.kind.attributeNames ∧ next = draft.annotate [(name, value)] := by
  rw [note, ← Builder.addAttribute_eq_ok_iff]
  exact mapError_eq_ok_iff

/-- Recording a child in a free slot always goes on. -/
theorem record_bind {draft : Builder} {slot : Slot} {child : Child Node}
    {next : Builder → Attempt β} (free : draft.kind.hasRoom draft.slots slot = true) :
    (record draft slot child >>= next) = next (draft.extend [(slot, child)]) := by
  rw [record_eq_ok_iff.mpr ⟨(Builder.isFree_eq draft slot).trans free, rfl⟩]
  rfl

/-- Recording an attribute that the kind of node has always goes on. -/
theorem note_bind {draft : Builder} {name : AttributeName} {value : Attribute}
    {next : Builder → Attempt β} (known : draft.kind.attributeNames.contains name = true) :
    (note draft name value >>= next) = next (draft.annotate [(name, value)]) := by
  rw [note_eq_ok_iff.mpr ⟨List.contains_iff_mem.mp known, rfl⟩]
  rfl

/-- Attributes are recorded just if the kind of node has them all. -/
theorem noteAll_eq_ok_iff {draft next : Builder}
    {attributes : List (AttributeName × Attribute)} :
    noteAll draft attributes = .ok next ↔
      (∀ entry ∈ attributes, entry.1 ∈ draft.kind.attributeNames) ∧
        next = draft.annotate attributes := by
  induction attributes generalizing draft with
  | nil => simp [noteAll]
  | cons entry rest ih =>
      obtain ⟨name, value⟩ := entry
      have hcons : noteAll draft ((name, value) :: rest)
          = (note draft name value >>= fun noted => noteAll noted rest) := by
        simp [noteAll]
      simp only [hcons, bind_eq_ok_iff, note_eq_ok_iff, List.forall_mem_cons]
      constructor
      · rintro ⟨noted, ⟨hname, rfl⟩, hrest⟩
        obtain ⟨hnames, rfl⟩ := ih.mp hrest
        exact ⟨⟨hname, hnames⟩, by simp⟩
      · rintro ⟨⟨hname, hnames⟩, rfl⟩
        exact ⟨_, ⟨hname, rfl⟩, ih.mpr ⟨hnames, by simp⟩⟩

theorem expect_eq_ok_iff {kind : Token.Kind} {terminal : Terminal} {what : String}
    {scanner after : Scanner} {token : Token} :
    expect kind terminal what scanner = .ok (token, after) ↔
      scanner.take? kind terminal = some (token, after) := by
  unfold expect
  split <;> simp_all

theorem expectClosing_eq_ok_iff {closer : Char} {scanner after : Scanner} {token : Token} :
    expectClosing closer scanner = .ok (token, after) ↔
      scanner.close? .punctuator closer = some (token, after) := by
  unfold expectClosing
  split <;> simp_all

/-- Children that are recorded one after the other while their text is read are laid out one
after the other. -/
theorem extend_placeAll {draft : Builder} {scanner behind : Scanner} {front back : List Property}
    (reads : scanner.Reads (Node.spell front) behind) :
    (draft.extend (Node.placeAll scanner.position front)).extend
        (Node.placeAll behind.position back)
      = draft.extend (Node.placeAll scanner.position (front ++ back)) := by
  rw [Builder.extend_extend, Node.placeAll_append, reads.position]

/-- A draft that has recorded the children and attributes of a tree is completed to that tree
where the scanner stands behind its text. -/
theorem complete_eq (tree : Node) {draft : Builder} {start : Nat} {after : Scanner}
    (stop : after.position = start + Text.byteLength tree.sourceText)
    (recorded : draft = ((Builder.new tree.kind start).extend
      (Node.placeAll start tree.properties)).annotate tree.attributes) :
    complete draft after = (tree.place start, after) := by
  subst recorded
  obtain ⟨kind, span, attributes, properties⟩ := tree
  rw [Node.sourceText_mk] at stop
  simp [complete, Builder.finish, Builder.new, Builder.extend, Builder.annotate, Node.place, stop]

/-! ## Repetition -/

/-- What the entries of a repetition look like. -/
structure Entries (ε : Type) where
  text : ε → List Char
  /-- The children that record an entry, before they are laid out. -/
  properties : ε → List Property
  /-- An entry may stand before the given rest of the text. -/
  joins : ε → List Char → Prop
  /-- No further entry comes at the given rest of the text. -/
  stops : List Char → Prop
  /-- An entry is spelled by the children that record it. -/
  spell_properties : ∀ entry, Node.spell (properties entry) = text entry

variable {ε : Type}

namespace Entries

/-- The text of several entries. -/
def textOf (entries : Entries ε) (list : List ε) : List Char :=
  list.flatMap entries.text

/-- The children that record several entries. -/
def propertiesOf (entries : Entries ε) (list : List ε) : List Property :=
  list.flatMap entries.properties

/-- Every entry may stand before what follows it. -/
def Chain (entries : Entries ε) : List ε → List Char → Prop
  | [], rest => entries.stops rest
  | entry :: list, rest =>
    entries.joins entry (entries.textOf list ++ rest) ∧ entries.Chain list rest

@[simp] theorem spell_propertiesOf (entries : Entries ε) (list : List ε) :
    Node.spell (entries.propertiesOf list) = entries.textOf list := by
  induction list with
  | nil => rfl
  | cons entry list ih =>
      have hsplit : entries.propertiesOf (entry :: list)
          = entries.properties entry ++ entries.propertiesOf list := rfl
      rw [hsplit, Node.spell_append, entries.spell_properties, ih]
      rfl

end Entries

/-- A step that reads an entry wherever one may stand and stops exactly where none comes, for
drafts of one kind of node and under fixed frames. -/
structure Step.ReadsEntries (step : Step) (entries : Entries ε) (kind : NodeKind)
    (frames : List Frame) : Prop where
  more : ∀ {draft scanner extended behind}, draft.kind = kind → scanner.frames = frames →
    (step draft scanner = .ok (some (extended, behind)) ↔
      ∃ entry, scanner.Reads (entries.text entry) behind ∧ entries.joins entry behind.rest ∧
        extended = draft.extend (Node.placeAll scanner.position (entries.properties entry)))
  stop : ∀ {draft scanner}, draft.kind = kind → scanner.frames = frames →
    (step draft scanner = .ok none ↔ entries.stops scanner.rest)
  text_ne_nil : ∀ entry, entries.text entry ≠ []

private theorem collectUpTo_eq_ok_iff {step : Step} {entries : Entries ε} {kind : NodeKind}
    {frames : List Frame} (reads : step.ReadsEntries entries kind frames) (bound : Nat) :
    ∀ {draft filled : Builder} {scanner after : Scanner}, draft.kind = kind →
      scanner.frames = frames → scanner.rest.length < bound →
      (collectUpTo step bound draft scanner = .ok (filled, after) ↔
        ∃ list, scanner.Reads (entries.textOf list) after ∧ entries.Chain list after.rest ∧
          filled = draft.extend (Node.placeAll scanner.position (entries.propertiesOf list))) := by
  induction bound with
  | zero =>
      intro draft filled scanner after _ _ hlength
      omega
  | succ bound ih =>
      intro draft filled scanner after hkind hframes hlength
      rw [collectUpTo, bind_eq_ok_iff]
      constructor
      · rintro ⟨result, hstep, hresult⟩
        cases result with
        | none =>
            obtain ⟨rfl, rfl⟩ := Prod.mk.inj (pure_eq_ok_iff.mp hresult)
            exact ⟨[], Scanner.reads_nil.mpr rfl, (reads.stop hkind hframes).mp hstep, by
              simp [Entries.propertiesOf, Node.placeAll]⟩
        | some taken =>
            obtain ⟨extended, behind⟩ := taken
            obtain ⟨entry, hreads, hjoins, rfl⟩ := (reads.more hkind hframes).mp hstep
            have hless : behind.rest.length < bound := by
              have hne := List.length_pos_iff.mpr (reads.text_ne_nil entry)
              rw [hreads.rest, List.length_append] at hlength
              omega
            obtain ⟨list, hlist, hchain, rfl⟩ :=
              (ih (by simpa using hkind) (hreads.frames.trans hframes) hless).mp hresult
            refine ⟨entry :: list, hreads.trans hlist, ⟨?_, hchain⟩, ?_⟩
            · rw [← hlist.rest]
              exact hjoins
            · rw [Builder.extend_extend, hreads.position, ← entries.spell_properties entry,
                ← Node.placeAll_append]
              rfl
      · rintro ⟨list, hreads, hchain, rfl⟩
        cases list with
        | nil =>
            obtain rfl := Scanner.reads_nil.mp hreads
            exact ⟨none, (reads.stop hkind hframes).mpr hchain, by
              simp [Entries.propertiesOf, Node.placeAll]⟩
        | cons entry list =>
            obtain ⟨behind, hfirst, hlist⟩ := Scanner.reads_append.mp hreads
            have hless : behind.rest.length < bound := by
              have hne := List.length_pos_iff.mpr (reads.text_ne_nil entry)
              rw [hfirst.rest, List.length_append] at hlength
              omega
            have hstep := (reads.more hkind hframes).mpr
              ⟨entry, hfirst, by rw [hlist.rest]; exact hchain.1, rfl⟩
            refine ⟨_, hstep, (ih (by simpa using hkind) (hfirst.frames.trans hframes) hless).mpr
              ⟨list, hlist, hchain.2, ?_⟩⟩
            rw [Builder.extend_extend, hfirst.position, ← entries.spell_properties entry,
              ← Node.placeAll_append]
            rfl

/-- A repetition succeeds just if a list of entries comes, each in a place where it may stand,
and no further one follows; it records them all. -/
theorem collect_eq_ok_iff {step : Step} {entries : Entries ε} {kind : NodeKind}
    {frames : List Frame} (reads : step.ReadsEntries entries kind frames)
    {draft filled : Builder} {scanner after : Scanner} (hkind : draft.kind = kind)
    (hframes : scanner.frames = frames) :
    collect step draft scanner = .ok (filled, after) ↔
      ∃ list, scanner.Reads (entries.textOf list) after ∧ entries.Chain list after.rest ∧
        filled = draft.extend (Node.placeAll scanner.position (entries.propertiesOf list)) :=
  collectUpTo_eq_ok_iff reads _ hkind hframes (Nat.lt_succ_self _)

end Production

end PatternTree
