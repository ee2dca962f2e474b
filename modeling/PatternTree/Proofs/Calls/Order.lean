import PatternTree.Proofs.Calls.Script
import PatternTree.Proofs.Drafting

/-!
# Calls in order

Where a production stands when it makes a call, and where it stands behind the answer, decides
whether the recursion of productions ends and which frames are open meanwhile.  A call is in order
(`Task.Permits`) if it is one that the production makes at all, if it is made further on in the text
or goes to a production of lower rank, and if the frames that are open are those of the production
and the one that it opens for its calls.  A production exits in order (`Task.Exit`) if it leaves the
frames alone and takes some text, unless it is one that may be empty.

A script realizes a production (`Script.Realizes`) if it has the same outcome, makes all of its
calls in order, and exits in order provided that the calls do.  Each of the rules below proves this
of a script that is put together from others.
-/

namespace PatternTree

/-! ## How far a scanner gets -/

namespace Scanner

variable {scanner behind after : Scanner}

/-- The other scanner stands here or further on, under the same frames. -/
def Reaches (scanner after : Scanner) : Prop :=
  ∃ text, scanner.Reads text after

/-- The other scanner stands further on, under the same frames. -/
def Advances (scanner after : Scanner) : Prop :=
  ∃ text, text ≠ [] ∧ scanner.Reads text after

theorem Reaches.refl (scanner : Scanner) : scanner.Reaches scanner :=
  ⟨[], reads_nil.mpr rfl⟩

theorem Advances.reaches (h : scanner.Advances after) : scanner.Reaches after := by
  obtain ⟨text, -, hreads⟩ := h
  exact ⟨text, hreads⟩

theorem Reaches.trans (h : scanner.Reaches behind) (hbehind : behind.Reaches after) :
    scanner.Reaches after := by
  obtain ⟨front, hfront⟩ := h
  obtain ⟨back, hback⟩ := hbehind
  exact ⟨front ++ back, hfront.trans hback⟩

theorem Advances.trans (h : scanner.Advances behind) (hbehind : behind.Reaches after) :
    scanner.Advances after := by
  obtain ⟨front, hne, hfront⟩ := h
  obtain ⟨back, hback⟩ := hbehind
  exact ⟨front ++ back, by simp [hne], hfront.trans hback⟩

theorem Reaches.advances (h : scanner.Reaches behind) (hbehind : behind.Advances after) :
    scanner.Advances after := by
  obtain ⟨front, hfront⟩ := h
  obtain ⟨back, hne, hback⟩ := hbehind
  exact ⟨front ++ back, by simp [hne], hfront.trans hback⟩

/-- Under one more frame a scanner gets as far as without it. -/
theorem reaches_push {frame : Frame} (h : (scanner.push frame).Reaches after) :
    ∃ behind, after = behind.push frame ∧ scanner.Reaches behind := by
  obtain ⟨text, hreads⟩ := h
  obtain ⟨behind, rfl, hbehind⟩ := reads_push.mp hreads
  exact ⟨behind, rfl, text, hbehind⟩

/-- Where the text ends, counted from its start. -/
def stop (scanner : Scanner) : Nat :=
  scanner.position + Text.byteLength scanner.rest

/-- The text ends where it ended before. -/
theorem Reaches.stop_eq (h : scanner.Reaches after) : after.stop = scanner.stop := by
  obtain ⟨text, hreads⟩ := h
  rw [stop, stop, hreads.position, hreads.rest, Text.byteLength_append, Nat.add_assoc]

theorem Reaches.position_le (h : scanner.Reaches after) : scanner.position ≤ after.position := by
  obtain ⟨text, hreads⟩ := h
  rw [hreads.position]
  exact Nat.le_add_right _ _

theorem Advances.position_lt (h : scanner.Advances after) :
    scanner.position < after.position := by
  obtain ⟨text, hne, hreads⟩ := h
  rw [hreads.position]
  exact Nat.lt_add_of_pos_right (Nat.pos_of_ne_zero (hne ∘ Text.byteLength_eq_zero.mp))

/-- Less text is ahead. -/
theorem Advances.length_lt (h : scanner.Advances after) :
    after.rest.length < scanner.rest.length := by
  obtain ⟨text, hne, hreads⟩ := h
  rw [hreads.rest, List.length_append]
  have hsome := List.length_pos_iff.mpr hne
  omega

theorem advances_of_reads {c : Char} (h : scanner.Reads [c] after) : scanner.Advances after :=
  ⟨[c], List.cons_ne_nil c [], h⟩

variable {kind : Token.Kind} {terminal : Terminal} {token : Token}

/-- Whatever is taken is not empty. -/
theorem advances_of_take? (h : scanner.take? kind terminal = some (token, after)) :
    scanner.Advances after := by
  obtain ⟨hne, hrest, -, hposition, hframes⟩ := take?_eq_some h
  exact ⟨token.text, hne, hrest, hposition, hframes⟩

/-- A delimiter is taken and its frame is opened. -/
theorem advances_of_open? {closer : Char} {inside : Option Region}
    (h : scanner.open? kind terminal closer inside = some (token, after)) :
    ∃ behind, after = behind.push (.delimiter closer inside) ∧ scanner.Advances behind := by
  simp only [open?] at h
  split at h
  · cases h
  · next taken behind htake =>
    obtain ⟨-, rfl⟩ := Prod.mk.inj (Option.some.inj h)
    exact ⟨behind, rfl, advances_of_take? htake⟩

/-- A frame is left together with its closer. -/
theorem reaches_of_close? {closer : Char} {inside : Option Region}
    (h : (scanner.push (.delimiter closer inside)).close? .punctuator closer
      = some (token, after)) :
    scanner.Reaches after :=
  ⟨[closer], (close?_push_iff.mp h).1⟩

/-- The scanner with a frame open that may be missing. -/
def under : Option Frame → Scanner → Scanner
  | none, scanner => scanner
  | some frame, scanner => scanner.push frame

@[simp] theorem under_position (frame : Option Frame) (scanner : Scanner) :
    (scanner.under frame).position = scanner.position := by
  cases frame <;> rfl

@[simp] theorem under_stop (frame : Option Frame) (scanner : Scanner) :
    (scanner.under frame).stop = scanner.stop := by
  cases frame <;> rfl

@[simp] theorem under_frames (frame : Option Frame) (scanner : Scanner) :
    (scanner.under frame).frames = frame.toList ++ scanner.frames := by
  cases frame <;> rfl

end Scanner

/-! ## Which production calls which -/

/-- The names of productions. -/
inductive Rule where
  | flags
  | alternatives
  | alternative
  | element
  | atom
  | group
  | quantifier
  | bracedBounds
  | unsignedInteger
  | digit
  | characterClass
  | classElement
  | classRange
  | character
  | escapedKeyword
  | sigil
  | escapedSet
  | escapeSequence
  | escapeCode
  | blockDigits
  | repeated (loop : Loop)
  deriving DecidableEq, Repr

namespace Rule

/-- The productions that a production calls. -/
@[simp] def callees : Rule → List Rule
  | alternatives => [alternative, repeated .alternatives]
  | alternative => [repeated .elements]
  | element => [atom, quantifier]
  | atom => [characterClass, group, sigil, escapedKeyword, escapedSet, character]
  | group => [alternatives]
  | quantifier => [bracedBounds]
  | bracedBounds => [unsignedInteger]
  | unsignedInteger => [repeated .digits]
  | characterClass => [repeated .classElements]
  | classElement => [escapedSet, escapedKeyword, character, classRange]
  | classRange => [character]
  | character => [escapeSequence]
  | escapedSet => [escapedKeyword]
  | escapeSequence => [escapeCode]
  | escapeCode => [blockDigits]
  | repeated .alternatives => [alternative, repeated .alternatives]
  | repeated .elements => [element, repeated .elements]
  | repeated .digits => [digit, repeated .digits]
  | repeated .classElements => [classElement, repeated .classElements]
  | flags | digit | escapedKeyword | sigil | blockDigits => []

/-- A production that is called before any text is taken is of lower rank than its caller. -/
@[simp] def rank : Rule → Nat
  | alternatives => 6
  | alternative => 5
  | repeated .elements => 4
  | element | repeated .classElements => 3
  | atom | classElement | unsignedInteger => 2
  | quantifier | character | escapedSet | repeated .digits => 1
  | _ => 0

/-- The frame that a production opens for its calls. -/
@[simp] def opens : Rule → Option Frame
  | group => some (.delimiter ')' none)
  | characterClass => some (.delimiter ']' (some .characterClass))
  | bracedBounds => some (.delimiter '}' none)
  | escapeSequence => some (.region .escape)
  | _ => none

/-- How many groups a production opens for its calls. -/
@[simp] def deepens : Rule → Nat
  | group => 1
  | _ => 0

end Rule

namespace Task

/-- The name of the production. -/
@[simp] def rule : Task → Rule
  | flags => .flags
  | alternatives _ => .alternatives
  | alternative => .alternative
  | element => .element
  | atom => .atom
  | group _ _ => .group
  | quantifier _ => .quantifier
  | bracedBounds _ => .bracedBounds
  | unsignedInteger => .unsignedInteger
  | digit => .digit
  | characterClass => .characterClass
  | classElement => .classElement
  | classRange _ => .classRange
  | character => .character
  | escapedKeyword _ _ => .escapedKeyword
  | sigil _ _ _ => .sigil
  | escapedSet => .escapedSet
  | escapeSequence => .escapeSequence
  | escapeCode => .escapeCode
  | blockDigits _ _ => .blockDigits
  | repeated loop _ => .repeated loop

/-- A call is in order: the production makes it, with its frame open, and it is made further on or
to a production of lower rank. -/
structure Permits (caller : Task) (start : Place) (callee : Task) (place : Place) : Prop where
  listed : callee.rule ∈ caller.rule.callees
  depth : place.depth = start.depth + caller.rule.deepens
  room : start.depth < Production.deepestNesting ∨ caller.rule.deepens = 0
  reached : ∃ behind, place.scanner = behind.under caller.rule.opens ∧
    (start.scanner.Advances behind ∨
      (start.scanner.Reaches behind ∧ callee.rule.rank < caller.rule.rank))

/-- Whether a result is one that some text has to be taken for.  An alternative and whatever is
repeated may be empty, and so may flags; digits may be missing. -/
def advances : (task : Task) → task.Result → Bool
  | digit, found => found.isSome
  | flags, _ | alternatives _, _ | alternative, _ | unsignedInteger, _ | repeated _ _, _ => false
  | _, _ => true

/-- Whether there is a result at all. -/
def finds : (task : Task) → task.Result → Bool
  | digit, found | unsignedInteger, found => found.isSome
  | _, _ => true

/-- The production exits in order: it leaves the frames alone and does not go back, it takes some
text if it has to, and none if it finds nothing. -/
structure Exit (task : Task) (scanner : Scanner) (result : task.Result) (after : Scanner) :
    Prop where
  reaches : scanner.Reaches after
  advances : task.advances result = true → scanner.Advances after
  missing : task.finds result = false → after = scanner

/-- Whenever the production gives a result here, it exits in order. -/
def Correct (task : Task) (place : Place) : Prop :=
  ∀ result after, task.run place.depth place.scanner = .ok (result, after) →
    task.Exit place.scanner result after

variable {caller callee : Task} {start : Place} {behind : Scanner}

/-- A call that is made at once, to a production of lower rank. -/
theorem Permits.here (h : callee.rule ∈ caller.rule.callees ∧ caller.rule.opens = none ∧
    caller.rule.deepens = 0 ∧ callee.rule.rank < caller.rule.rank) :
    caller.Permits start callee start := by
  obtain ⟨hlisted, hplain, hlevel, hlower⟩ := h
  refine ⟨hlisted, by rw [hlevel, Nat.add_zero], .inr hlevel, start.scanner, ?_,
    .inr ⟨.refl _, hlower⟩⟩
  rw [hplain, Scanner.under]

/-- A call that is made further on, or where some text may have been taken. -/
theorem Permits.further (h : callee.rule ∈ caller.rule.callees ∧ caller.rule.opens = none ∧
    caller.rule.deepens = 0)
    (hreached : start.scanner.Advances behind ∨
      (start.scanner.Reaches behind ∧ callee.rule.rank < caller.rule.rank)) :
    caller.Permits start callee ⟨behind, start.depth⟩ := by
  obtain ⟨hlisted, hplain, hlevel⟩ := h
  refine ⟨hlisted, by rw [hlevel, Nat.add_zero], .inr hlevel, behind, ?_, hreached⟩
  rw [hplain, Scanner.under]

/-- A call that is made inside the frame that has been opened for it. -/
theorem Permits.inside {frame : Frame} {depth : Nat}
    (h : callee.rule ∈ caller.rule.callees ∧ caller.rule.opens = some frame)
    (hdepth : depth = start.depth + caller.rule.deepens)
    (hroom : start.depth < Production.deepestNesting ∨ caller.rule.deepens = 0)
    (hadvances : start.scanner.Advances behind) :
    caller.Permits start callee ⟨behind.push frame, depth⟩ := by
  obtain ⟨hlisted, hopens⟩ := h
  refine ⟨hlisted, hdepth, hroom, behind, ?_, .inl hadvances⟩
  rw [hopens, Scanner.under]

/-- What may be called further on may be called before. -/
theorem Permits.earlier {place : Place}
    (h : caller.Permits ⟨behind, start.depth⟩ callee place)
    (hreaches : start.scanner.Reaches behind) : caller.Permits start callee place := by
  obtain ⟨hlisted, hdepth, hroom, last, hlast, hreached⟩ := h
  refine ⟨hlisted, hdepth, hroom, last, hlast, ?_⟩
  exact hreached.imp hreaches.advances fun ⟨hfurther, hlower⟩ => ⟨hreaches.trans hfurther, hlower⟩

end Task

/-! ## Scripts that realize productions -/

namespace Script

variable {α β γ δ : Type} {allowed : Task → Place → Prop}

/-- All calls of a script are allowed, whatever the earlier ones are answered in order, and the
outcome has the given property then. -/
def Sound (allowed : Task → Place → Prop) (post : α → Prop) : Script α → Prop
  | done attempt => ∀ a, attempt = .ok a → post a
  | call task place next => allowed task place ∧ ∀ result after,
      task.Exit place.scanner result after →
      (next (result, ⟨after, place.depth⟩)).Sound allowed post

theorem Sound.mono {script : Script α} {mid post : α → Prop} (h : script.Sound allowed mid)
    (himp : ∀ a, mid a → post a) : script.Sound allowed post := by
  induction script with
  | done attempt => exact fun a heq => himp a (h a heq)
  | call task place further ih =>
      exact ⟨h.1, fun result after hexit => ih _ (h.2 result after hexit)⟩

theorem Sound.bind {script : Script α} {next : α → Script β} {mid : α → Prop} {post : β → Prop}
    (h : script.Sound allowed mid) (hnext : ∀ a, mid a → (next a).Sound allowed post) :
    (script >>= next).Sound allowed post := by
  induction script with
  | done attempt =>
      cases attempt with
      | error failure => exact fun _ heq => nomatch heq
      | ok a => exact hnext a (h a rfl)
  | call task place further ih =>
      exact ⟨h.1, fun result after hexit => ih _ (h.2 result after hexit)⟩

theorem answer_bind (handler : Handler) (script : Script α) (next : α → Script β) :
    (script >>= next).answer handler
      = script.answer handler >>= fun a => (next a).answer handler := by
  induction script with
  | done attempt => cases attempt <;> rfl
  | call task place further ih =>
      have hcall : (call task place further >>= next).answer handler
          = handler task place >>= fun answer => (further answer >>= next).answer handler := rfl
      rw [hcall, answer, bind_assoc]
      exact congrArg (handler task place >>= ·) (funext ih)

/-- A script realizes a production: its calls are in order, and provided that they are answered in
order, its outcome is that of the production, and as it should be. -/
structure Realizes (allowed : Task → Place → Prop) (script : Script α) (embed : β → α)
    (attempt : Attempt β) (post : β → Prop) : Prop where
  sound : script.Sound allowed fun a => ∃ b, a = embed b ∧ post b
  answers : (∀ task place, allowed task place → task.Correct place) →
    script.answer Task.perform = attempt.map embed
  exits : (∀ task place, allowed task place → task.Correct place) →
    ∀ b, attempt = .ok b → post b

namespace Realizes

variable {embed : β → α} {script : Script α} {attempt : Attempt β} {post : β → Prop}

/-- An attempt without calls. -/
theorem done (h : ∀ b, attempt = .ok b → post b) :
    Realizes allowed (.done (attempt.map embed)) embed attempt post where
  sound := by
    intro a heq
    cases attempt with
    | error failure => cases heq
    | ok b => exact ⟨b, (Except.ok.inj heq).symm, h b rfl⟩
  answers := fun _ => rfl
  exits := fun _ => h

theorem pure {a : α} {b : β} (heq : embed b = a) (h : post b) :
    Realizes allowed (Pure.pure a) embed (Pure.pure b) post := by
  subst heq
  change Realizes allowed (.done (Except.map embed (.ok b))) embed (.ok b) post
  refine done fun c hc => ?_
  obtain rfl := Except.ok.inj hc
  exact h

theorem reject {position : Nat} {kind : ErrorKind} :
    Realizes allowed (.done (Production.reject position kind)) embed
      (Production.reject position kind) post where
  sound := fun _ heq => nomatch heq
  answers := fun _ => rfl
  exits := fun _ _ heq => nomatch heq

/-- An attempt without calls whose result is used further on. -/
theorem lift (h : ∀ b, attempt = .ok b → post b) :
    Realizes allowed (liftM attempt) id attempt post := by
  have hid : attempt.map id = attempt := by cases attempt <;> rfl
  have hdone : Realizes allowed (.done (attempt.map id)) id attempt post := done h
  rwa [hid] at hdone

/-- A call that is allowed. -/
theorem call {task : Task} {place : Place} (h : allowed task place) :
    Realizes allowed (ask task place) (settle place.depth)
      (task.run place.depth place.scanner)
      (fun taken => task.Exit place.scanner taken.1 taken.2) where
  sound := by
    refine ⟨h, fun result after hexit a heq => ?_⟩
    exact ⟨(result, after), (Except.ok.inj heq).symm, hexit⟩
  answers := by
    intro _
    change task.perform place >>= Except.ok = task.perform place
    cases task.perform place <;> rfl
  exits := fun hcorrect taken heq => hcorrect task place h taken.1 taken.2 heq

/-- One script after the other. -/
theorem bind {embed' : δ → γ} {next : α → Script γ} {further : β → Attempt δ} {mid : β → Prop}
    {post : δ → Prop} (h : Realizes allowed script embed attempt mid)
    (hnext : ∀ b, mid b → Realizes allowed (next (embed b)) embed' (further b) post) :
    Realizes allowed (script >>= next) embed' (attempt >>= further) post where
  sound := by
    refine h.sound.bind ?_
    rintro a ⟨b, rfl, hmid⟩
    exact (hnext b hmid).sound
  answers := by
    intro hcorrect
    rw [answer_bind, h.answers hcorrect]
    cases heq : attempt with
    | error failure => rfl
    | ok b => exact (hnext b (h.exits hcorrect b heq)).answers hcorrect
  exits := by
    intro hcorrect d heq
    obtain ⟨b, hb, hfurther⟩ := Production.bind_eq_ok_iff.mp heq
    exact (hnext b (h.exits hcorrect b hb)).exits hcorrect d hfurther

/-- An attempt without calls whose result is used further on. -/
theorem attempt_bind {embed' : δ → γ} {attempt : Attempt β} {next : β → Script γ}
    {further : β → Attempt δ} {post : δ → Prop}
    (hnext : ∀ b, attempt = .ok b → Realizes allowed (next b) embed' (further b) post) :
    Realizes allowed (liftM attempt >>= next) embed' (attempt >>= further) post :=
  (lift fun _ heq => heq).bind hnext

/-- A call whose answer is used further on. -/
theorem call_bind {embed' : δ → γ} {task : Task} {place : Place}
    {next : task.Result × Place → Script γ} {further : task.Result × Scanner → Attempt δ}
    {post : δ → Prop} (h : allowed task place)
    (hnext : ∀ result after, task.Exit place.scanner result after →
      Realizes allowed (next (result, ⟨after, place.depth⟩)) embed' (further (result, after))
        post) :
    Realizes allowed (ask task place >>= next) embed'
      (task.run place.depth place.scanner >>= further) post :=
  (call h).bind fun taken hexit => hnext taken.1 taken.2 hexit

theorem ite {condition : Prop} [Decidable condition] {other : Script α} {otherAttempt : Attempt β}
    (hpos : condition → Realizes allowed script embed attempt post)
    (hneg : ¬ condition → Realizes allowed other embed otherAttempt post) :
    Realizes allowed (if condition then script else other) embed
      (if condition then attempt else otherAttempt) post := by
  by_cases hcondition : condition
  · rw [if_pos hcondition, if_pos hcondition]
    exact hpos hcondition
  · rw [if_neg hcondition, if_neg hcondition]
    exact hneg hcondition

theorem mono {post' : β → Prop} (h : Realizes allowed script embed attempt post)
    (himp : ∀ b, post b → post' b) : Realizes allowed script embed attempt post' where
  sound := by
    refine h.sound.mono ?_
    rintro a ⟨b, rfl, hb⟩
    exact ⟨b, rfl, himp b hb⟩
  answers := h.answers
  exits := fun hcorrect b heq => himp b (h.exits hcorrect b heq)

/-- The attempt may be another one that is the same if calls are answered in order. -/
theorem congr {other : Attempt β} (h : Realizes allowed script embed attempt post)
    (heq : (∀ task place, allowed task place → task.Correct place) → attempt = other) :
    Realizes allowed script embed other post where
  sound := h.sound
  answers := fun hcorrect => heq hcorrect ▸ h.answers hcorrect
  exits := fun hcorrect => heq hcorrect ▸ h.exits hcorrect

/-- A call whose answer is the outcome. -/
theorem passes {task : Task} {place : Place} {post : task.Result × Scanner → Prop}
    (h : allowed task place)
    (hpost : ∀ result after, task.Exit place.scanner result after → post (result, after)) :
    Realizes allowed (ask task place) (settle place.depth) (task.run place.depth place.scanner)
      post :=
  (call h).mono fun taken hexit => hpost taken.1 taken.2 hexit

/-- A call of a production whose results are seen in another form. -/
theorem call_view {task : Task} {place : Place} {view : β → task.Result × Scanner}
    {attempt : Attempt β} (h : allowed task place)
    (hrun : task.run place.depth place.scanner = attempt.map view)
    (onto : ∀ result after, task.Exit place.scanner result after →
      ∃ b, view b = (result, after)) :
    Realizes allowed (ask task place) (settle place.depth ∘ view) attempt
      fun b => task.Exit place.scanner (view b).1 (view b).2 := by
  have hcall : Realizes allowed (ask task place) _ _ _ := call h
  rw [hrun] at hcall
  refine ⟨?_, ?_, ?_⟩
  · refine hcall.sound.mono ?_
    rintro a ⟨⟨result, after⟩, rfl, hexit⟩
    obtain ⟨b, hview⟩ := onto result after hexit
    refine ⟨b, by rw [Function.comp_apply, hview], ?_⟩
    rw [hview]
    exact hexit
  · intro hcorrect
    rw [hcall.answers hcorrect]
    cases attempt <;> rfl
  · rintro hcorrect b rfl
    exact hcall.exits hcorrect (view b) rfl

/-- A production whose results are shown in another form. -/
theorem viewed {view : δ → β} {attempt : Attempt δ}
    (h : Realizes allowed script (embed ∘ view) attempt (post ∘ view)) :
    Realizes allowed script embed (attempt.map view) post where
  sound := by
    refine h.sound.mono ?_
    rintro a ⟨d, rfl, hd⟩
    exact ⟨view d, rfl, hd⟩
  answers := by
    intro hcorrect
    rw [h.answers hcorrect]
    cases attempt <;> rfl
  exits := by
    intro hcorrect b heq
    obtain ⟨d, hattempt, rfl⟩ := Production.map_eq_ok_iff.mp heq
    exact h.exits hcorrect d hattempt

end Realizes

end Script

end PatternTree
