import PatternTree.Proofs.Workbench.Conformity

/-!
# What is built on a workbench

Builders are numbered in the order that they are opened in, and a log is kept of what accepted calls
have recorded, call after call and each with the number of the builder that was on top
(`Chronicle`).  The log says all there is to say about a builder and about the node that it becomes:
its children and its attributes are those in the log under its number, in the order of the log
(`Chronicle.Tells`).  Other builders that are opened, filled and finished in between leave no trace
in it, nor does a refused call.

* `Chronicle.of` — the workbench after some calls, with its log;
* `Chronicle.Faithful` — the log accounts for all that is on the workbench;
* `workbench_records` — what is known of every builder and every node at any time.
-/

namespace PatternTree

/-! ## The log of a workbench -/

/-- A workbench with what has happened on it. -/
structure Chronicle where
  bench : Workbench
  /-- The kinds and starts of all builders; the place in this list is the number of a builder. -/
  opened : List (NodeKind × Nat)
  /-- The numbers of the builders that are open, the top one first. -/
  current : List Nat
  /-- What accepted calls have recorded, in their order, with the number of the builder. -/
  log : List (Nat × Entry)

namespace Chronicle

/-- Writes down a call, its answer and the workbench behind it. -/
def note (chronicle : Chronicle) (call : Workbench.Call) (reply : Workbench.Reply)
    (bench : Workbench) : Chronicle :=
  match call, reply with
  | .new kind start, .done =>
    { chronicle with
      bench := bench
      opened := chronicle.opened ++ [(kind, start)]
      current := chronicle.opened.length :: chronicle.current }
  | .finish _, .node _ => { chronicle with bench := bench, current := chronicle.current.tail }
  | call, .done =>
    match chronicle.current, call.recorded? chronicle.bench.finished with
    | number :: _, some entry =>
      { chronicle with bench := bench, log := chronicle.log ++ [(number, entry)] }
    | _, _ => { chronicle with bench := bench }
  | _, _ => { chronicle with bench := bench }

/-- Carries out a call and writes it down. -/
def perform (chronicle : Chronicle) (call : Workbench.Call) : Chronicle :=
  let outcome := chronicle.bench.perform call
  chronicle.note call outcome.1 outcome.2

/-- A clear workbench on which nothing has happened. -/
def blank : Chronicle := ⟨.clear, [], [], []⟩

/-- What happens on a clear workbench in the course of some calls. -/
def of (calls : List Workbench.Call) : Chronicle :=
  calls.foldl perform blank

/-- What has been recorded in the builder of a number. -/
def entries (chronicle : Chronicle) (number : Nat) : List Entry :=
  (chronicle.log.filter (·.1 == number)).map Prod.snd

/-- The node has been recorded by the builder of the number, or would be if it were finished now. -/
structure Tells (chronicle : Chronicle) (number : Nat) (node : Node) : Prop where
  opened : chronicle.opened[number]? = some (node.kind, node.span.start)
  properties : node.properties = (chronicle.entries number).filterMap Entry.child?
  attributes : node.attributes = (chronicle.entries number).filterMap Entry.binding?

variable {chronicle next : Chronicle} {call : Workbench.Call} {reply : Workbench.Reply}
  {bench : Workbench} {number : Nat} {node : Node}

/-- What is known of a number stays so as long as nothing is recorded under it. -/
theorem Tells.later (h : chronicle.Tells number node) (hopened : chronicle.opened <+: next.opened)
    (hentries : next.entries number = chronicle.entries number) : next.Tells number node where
  opened := by
    obtain ⟨more, hmore⟩ := hopened
    obtain ⟨hlt, -⟩ := List.getElem?_eq_some_iff.mp h.opened
    rw [← hmore, List.getElem?_append_left hlt, h.opened]
  properties := by rw [hentries, h.properties]
  attributes := by rw [hentries, h.attributes]

/-- One more entry comes behind those that have been recorded under its number. -/
theorem entries_of_log {entry : Entry} (h : next.log = chronicle.log ++ [(number, entry)])
    (other : Nat) :
    next.entries other = chronicle.entries other ++ if number = other then [entry] else [] := by
  rw [entries, h, List.filter_append, List.map_append]
  by_cases hnumber : number = other
  · simp [entries, hnumber]
  · simp [entries, hnumber]

/-- What is known of a number stays so when something is recorded under another one. -/
theorem Tells.beside {entry : Entry} {other : Nat} (h : chronicle.Tells other node)
    (hopened : next.opened = chronicle.opened)
    (hlog : next.log = chronicle.log ++ [(number, entry)]) (hother : number ≠ other) :
    next.Tells other node := by
  refine h.later (hopened ▸ List.prefix_rfl) ?_
  rw [entries_of_log hlog, if_neg hother, List.append_nil]

/-- A builder with one more entry is told by a log with one more entry under its number. -/
theorem Tells.record {builder : Builder} {entry : Entry} {stop : Nat}
    (h : chronicle.Tells number (builder.finish stop)) (hopened : next.opened = chronicle.opened)
    (hlog : next.log = chronicle.log ++ [(number, entry)]) :
    next.Tells number ((builder.record entry).finish stop) := by
  have hentries : next.entries number = chronicle.entries number ++ [entry] := by
    rw [entries_of_log hlog, if_pos rfl]
  constructor
  case opened =>
    rw [hopened, h.opened]
    simp [Builder.finish]
  case properties =>
    have hproperties : builder.properties.toList
        = (chronicle.entries number).filterMap Entry.child? := h.properties
    rw [hentries, List.filterMap_append, ← hproperties]
    cases entry <;> simp [Builder.finish, Entry.child?]
  case attributes =>
    have hattributes : builder.attributes.toList
        = (chronicle.entries number).filterMap Entry.binding? := h.attributes
    rw [hentries, List.filterMap_append, ← hattributes]
    cases entry <;> simp [Builder.finish, Entry.binding?]

/-- A number that the log tells of has been given. -/
theorem Tells.known (h : chronicle.Tells number node) : number < chronicle.opened.length :=
  (List.getElem?_eq_some_iff.mp h.opened).1

/-- Nothing has been recorded under a number that has not been given yet. -/
theorem entries_eq_nil (h : ∀ entry ∈ chronicle.log, entry.1 < number) :
    chronicle.entries number = [] := by
  rw [entries, List.map_eq_nil_iff, List.filter_eq_nil_iff]
  intro entry hentry hnumber
  have hlt := h entry hentry
  have heq := eq_of_beq hnumber
  omega

/-- Where a call is not carried out, nothing is written down but the workbench. -/
theorem note_idle (undone : reply ≠ .done) (unfinished : ∀ node, reply ≠ .node node) :
    chronicle.note call reply bench = { chronicle with bench := bench } := by
  unfold note
  split
  · exact absurd rfl undone
  · exact absurd rfl (unfinished _)
  · exact absurd rfl undone
  · rfl

/-- Where a call is carried out by recording something, that is written down. -/
theorem note_recorded {entry : Entry} {rest : List Nat}
    (hcurrent : chronicle.current = number :: rest)
    (named : call.recorded? chronicle.bench.finished = some entry) :
    chronicle.note call .done bench
      = { chronicle with bench := bench, log := chronicle.log ++ [(number, entry)] } := by
  cases call with
  | new kind start => exact nomatch named
  | finish stop => exact nomatch named
  | _ => simp only [note, hcurrent, named]

/-- The log accounts for all that is on the workbench. -/
structure Faithful (chronicle : Chronicle) : Prop where
  /-- Every open builder has a number, and the log tells what it has recorded. -/
  aligned : chronicle.current.length = chronicle.bench.builders.length
  builders : ∀ number builder, (number, builder) ∈ chronicle.current.zip chronicle.bench.builders →
    ∀ stop, chronicle.Tells number (builder.finish stop)
  /-- Every node has the number of a builder that is not open any more. -/
  nodes : ∀ node, chronicle.bench.Holds node →
    ∃ number, number ∉ chronicle.current ∧ chronicle.Tells number node
  distinct : chronicle.current.Nodup
  known : ∀ number ∈ chronicle.current, number < chronicle.opened.length
  logged : ∀ entry ∈ chronicle.log, entry.1 < chronicle.opened.length

theorem faithful_blank : blank.Faithful where
  aligned := rfl
  builders := fun _ _ h => absurd h List.not_mem_nil
  nodes := by
    intro node hnode
    rcases hnode with ⟨tree, htree, -⟩ | ⟨builder, hbuilder, -⟩
    · exact absurd htree List.not_mem_nil
    · exact absurd hbuilder List.not_mem_nil
  distinct := List.nodup_nil
  known := fun _ h => absurd h List.not_mem_nil
  logged := fun _ h => absurd h List.not_mem_nil

/-- A new builder is given the next number, under which there is nothing yet. -/
theorem Faithful.opened (h : chronicle.Faithful) (kind : NodeKind) (start : Nat) :
    ({ chronicle with
      bench := ⟨.new kind start :: chronicle.bench.builders, chronicle.bench.finished⟩
      opened := chronicle.opened ++ [(kind, start)]
      current := chronicle.opened.length :: chronicle.current } : Chronicle).Faithful where
  aligned := congrArg (· + 1) h.aligned
  builders := by
    intro number builder hmem stop
    rcases List.mem_cons.mp hmem with hnew | hold
    · obtain ⟨rfl, rfl⟩ := Prod.mk.inj hnew
      have hnone : chronicle.entries chronicle.opened.length = [] := entries_eq_nil h.logged
      exact ⟨List.getElem?_concat_length, (congrArg (List.filterMap Entry.child?) hnone).symm,
        (congrArg (List.filterMap Entry.binding?) hnone).symm⟩
    · exact (h.builders number builder hold stop).later (List.prefix_append _ _) rfl
  nodes := by
    intro node hnode
    have hbefore := (Workbench.Outcome.opened.holds hnode).resolve_right nofun
    obtain ⟨number, hclosed, htells⟩ := h.nodes node hbefore
    -- the new number has not been given before, so no node has it
    have hlt := htells.known
    exact ⟨number, List.not_mem_cons_of_ne_of_not_mem (by omega) hclosed,
      htells.later (List.prefix_append _ _) rfl⟩
  distinct := List.nodup_cons.mpr ⟨fun hmem => Nat.lt_irrefl _ (h.known _ hmem), h.distinct⟩
  known := by
    rw [List.length_append, List.length_singleton]
    exact List.forall_mem_cons.mpr
      ⟨Nat.lt_succ_self _, fun number hmem => Nat.lt_succ_of_lt (h.known number hmem)⟩
  logged := by
    rw [List.length_append, List.length_singleton]
    exact fun entry hentry => Nat.lt_succ_of_lt (h.logged entry hentry)

/-- What is known where the top builder has the number at the head. -/
structure Topped (chronicle : Chronicle) (number : Nat) (rest : List Nat) (top : Builder)
    (others : List Builder) : Prop where
  current : chronicle.current = number :: rest
  builders : chronicle.bench.builders = top :: others
  aligned : rest.length = others.length
  told : ∀ stop, chronicle.Tells number (top.finish stop)
  below : ∀ other builder, (other, builder) ∈ rest.zip others →
    number ≠ other ∧ ∀ stop, chronicle.Tells other (builder.finish stop)

/-- The top builder has the first number, and those below it have the other ones. -/
theorem Faithful.topped {top : Builder} {others : List Builder} (h : chronicle.Faithful)
    (hbuilders : chronicle.bench.builders = top :: others) :
    ∃ number rest, chronicle.Topped number rest top others := by
  obtain ⟨number, rest, hcurrent⟩ : ∃ number rest, chronicle.current = number :: rest := by
    have haligned := h.aligned
    rw [hbuilders] at haligned
    exact List.exists_cons_of_length_eq_add_one haligned
  have haligned := h.aligned
  have htold := h.builders
  have hdistinct := h.distinct
  rw [hcurrent, hbuilders] at haligned htold
  rw [hcurrent, List.nodup_cons] at hdistinct
  refine ⟨number, rest, hcurrent, hbuilders, Nat.succ.inj haligned,
    htold number top List.mem_cons_self, fun other builder hmem => ⟨?_, ?_⟩⟩
  · intro heq
    exact hdistinct.1 (heq ▸ (List.of_mem_zip hmem).1)
  · exact htold other builder (List.mem_cons_of_mem _ hmem)

/-- An entry is logged under the number of the top builder, which no other builder and no node
has. -/
theorem Faithful.recorded {entry : Entry} {top : Builder} {others : List Builder} {rest : List Nat}
    (h : chronicle.Faithful) (htopped : chronicle.Topped number rest top others)
    (named : call.recorded? chronicle.bench.finished = some entry) (admitted : top.Admits entry) :
    ({ chronicle with
      bench := ⟨top.record entry :: others, call.spares chronicle.bench.finished⟩
      log := chronicle.log ++ [(number, entry)] } : Chronicle).Faithful where
  aligned := by
    rw [htopped.current]
    exact congrArg (· + 1) htopped.aligned
  builders := by
    rw [htopped.current]
    intro other builder hmem stop
    rcases List.mem_cons.mp hmem with htop | hbelow
    · obtain ⟨rfl, rfl⟩ := Prod.mk.inj htop
      exact (htopped.told stop).record rfl rfl
    · obtain ⟨hother, htold⟩ := htopped.below other builder hbelow
      exact (htold stop).beside rfl rfl hother
  nodes := by
    intro node hnode
    have hbefore := ((Workbench.Outcome.recorded htopped.builders named admitted).holds
      hnode).resolve_right nofun
    obtain ⟨other, hclosed, htells⟩ := h.nodes node hbefore
    -- the top builder is open, so the number is not that of a node
    have hother : number ≠ other := by
      intro heq
      exact hclosed (by rw [htopped.current, heq]; exact List.mem_cons_self)
    exact ⟨other, hclosed, htells.beside rfl rfl hother⟩
  distinct := h.distinct
  known := h.known
  logged := by
    intro logged hlogged
    rcases List.mem_append.mp hlogged with hold | hnew
    · exact h.logged logged hold
    · rw [List.mem_singleton.mp hnew]
      exact (htopped.told 0).known

/-- The node of a builder keeps its number, which is not that of an open builder any more. -/
theorem Faithful.finished {top : Builder} {others : List Builder} {rest : List Nat}
    (h : chronicle.Faithful) (htopped : chronicle.Topped number rest top others) (stop : Nat) :
    ({ chronicle with
      bench := ⟨others, top.finish stop :: chronicle.bench.finished⟩
      current := rest } : Chronicle).Faithful := by
  have hdistinct := h.distinct
  rw [htopped.current, List.nodup_cons] at hdistinct
  constructor
  case aligned => exact htopped.aligned
  case builders =>
    intro other builder hmem stop
    exact ((htopped.below other builder hmem).2 stop).later List.prefix_rfl rfl
  case nodes =>
    intro node hnode
    -- what is below the new node has been finished earlier and has numbers of its own
    rcases (Workbench.Outcome.finished htopped.builders).holds hnode with hbefore | hreply
    · obtain ⟨other, hclosed, htells⟩ := h.nodes node hbefore
      rw [htopped.current] at hclosed
      exact ⟨other, List.not_mem_of_not_mem_cons hclosed, htells.later List.prefix_rfl rfl⟩
    · rw [← Workbench.Reply.node.inj hreply]
      exact ⟨number, hdistinct.1, (htopped.told stop).later List.prefix_rfl rfl⟩
  case distinct => exact hdistinct.2
  case known =>
    intro other hmem
    exact h.known other (by rw [htopped.current]; exact List.mem_cons_of_mem _ hmem)
  case logged => exact h.logged

/-- Where nothing happens to the builders, all nodes have been there before. -/
theorem Faithful.idle (h : chronicle.Faithful) (undone : reply ≠ .done)
    (unfinished : ∀ node, reply ≠ .node node) :
    ({ chronicle with
      bench := ⟨chronicle.bench.builders, call.spares chronicle.bench.finished⟩ } :
        Chronicle).Faithful where
  aligned := h.aligned
  builders := fun number builder hmem stop =>
    (h.builders number builder hmem stop).later List.prefix_rfl rfl
  nodes := by
    intro node hnode
    have hbefore := ((Workbench.Outcome.idle undone unfinished).holds hnode).resolve_right
      (unfinished node)
    obtain ⟨number, hclosed, htells⟩ := h.nodes node hbefore
    exact ⟨number, hclosed, htells.later List.prefix_rfl rfl⟩
  distinct := h.distinct
  known := h.known
  logged := h.logged

/-- Every call is written down so that the log stays faithful. -/
theorem Faithful.note (h : chronicle.Faithful)
    (houtcome : Workbench.Outcome chronicle.bench call reply bench) :
    (chronicle.note call reply bench).Faithful := by
  cases houtcome with
  | opened => exact h.opened _ _
  | recorded builders named admitted =>
      obtain ⟨number, rest, htopped⟩ := h.topped builders
      rw [note_recorded htopped.current named]
      exact h.recorded htopped named admitted
  | @finished stop top others builders =>
      obtain ⟨number, rest, htopped⟩ := h.topped builders
      rw [Chronicle.note, htopped.current]
      exact h.finished htopped stop
  | idle undone unfinished =>
      rw [note_idle undone unfinished]
      exact h.idle undone unfinished

/-! ## Any number of calls -/

@[simp] theorem note_bench : (chronicle.note call reply bench).bench = bench := by
  unfold note
  split
  · rfl
  · rfl
  · split <;> rfl
  · rfl

/-- Writing down what happens does not change what happens. -/
theorem foldl_perform_bench (chronicle : Chronicle) (calls : List Workbench.Call) :
    (calls.foldl perform chronicle).bench = (chronicle.bench.run calls).2 := by
  induction calls generalizing chronicle with
  | nil => rfl
  | cons call calls ih =>
      rw [List.foldl_cons, ih, perform, note_bench]
      rfl

/-- A faithful log is still faithful after any calls. -/
theorem Faithful.foldl_perform (h : chronicle.Faithful) (calls : List Workbench.Call) :
    (calls.foldl perform chronicle).Faithful := by
  induction calls generalizing chronicle with
  | nil => exact h
  | cons call calls ih => exact ih (h.note (chronicle.bench.outcome_perform call))

end Chronicle

/-- After any calls on a clear workbench, the log tells all that open builders and nodes have
recorded and in which order, and what it tells of agrees with the schema.  The text of every node
is that of its children.  A misfit leaves the builders as they are. -/
theorem workbench_records (calls : List Workbench.Call) :
    (Chronicle.of calls).bench = (Workbench.clear.run calls).2 ∧
      (Chronicle.of calls).Faithful ∧
      (Chronicle.of calls).bench.Conforming ∧
      (∀ node, (Chronicle.of calls).bench.Holds node → node.Spelled) ∧
      ∀ call cause, ((Chronicle.of calls).bench.perform call).1 = .misfit cause →
        ((Chronicle.of calls).bench.perform call).2.builders
          = (Chronicle.of calls).bench.builders := by
  have hbench : (Chronicle.of calls).bench = (Workbench.clear.run calls).2 :=
    Chronicle.foldl_perform_bench .blank calls
  refine ⟨hbench, Chronicle.faithful_blank.foldl_perform calls, ?_, fun node _ => node.spelled, ?_⟩
  · rw [hbench]
    exact Workbench.conforming_clear.run calls
  · intro call cause hmisfit
    exact ((Chronicle.of calls).bench.outcome_perform call).builders_of_misfit hmisfit

/-- The second token is refused, since the slot is filled.  The first one is logged for the builder
of the character, whose node is then logged for the other builder. -/
theorem workbench_records_example :
    let letter : Token := .plain .literal ['a'] ⟨0, 1⟩
    let character : Node := ⟨.character, ⟨0, 1⟩, [], [(.value, .token letter)]⟩
    let calls : List Workbench.Call := [.new .alternative 0, .new .character 0,
      .token "value" letter, .token "value" letter, .finish 1, .node "elements"]
    let chronicle := Chronicle.of calls
    chronicle.log
        = [(1, .child (.value, .token letter)), (0, .child (.elements, .node character))] ∧
      chronicle.bench = (Workbench.clear.run calls).2 ∧ chronicle.Tells 1 character ∧
      character.Conforms ∧ character.Spelled ∧
      (chronicle.bench.perform (.null "value")).2.builders = chronicle.bench.builders := by
  intro letter character calls chronicle
  obtain ⟨hbench, hfaithful, hconforming, hspelled, hrefused⟩ := workbench_records calls
  have hholds : chronicle.bench.Holds character :=
    .inr ⟨_, List.mem_cons_self, .elements, character, List.mem_cons_self, .self⟩
  obtain ⟨number, hclosed, htells⟩ := hfaithful.nodes character hholds
  have hnumber : number = 1 := by
    have hlt : number < 2 := htells.known
    have hopen : number ≠ 0 := fun heq => hclosed (heq ▸ List.mem_cons_self)
    omega
  exact ⟨rfl, hbench, hnumber ▸ htells, hconforming.nodes character hholds,
    hspelled character hholds, hrefused (.null "value") _ rfl⟩

end PatternTree
