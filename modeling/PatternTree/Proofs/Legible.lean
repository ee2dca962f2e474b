import PatternTree.Attribute
import PatternTree.Proofs.Numeral
import PatternTree.Schema
import PatternTree.Text.Layout
import PatternTree.Token

/-!
# Legible texts

A printed text can only be read back if each part of it shows where it ends.  `Legible write
before` says this of one kind of part: whenever something acceptable stands behind it, the
written value and what stands behind it are both determined by the two written together.  The
pieces that printed trees are made of are legible: names and numerals end where their run of
letters or digits ends (`legible_of_run`), texts end at a quotation mark that cannot occur inside
them (`quotedText_legible`), and lists of entries end at their brace (`braced_legible`).  None of
this depends on the tables of characters that cannot be shown.

* `Attribute.print_legible` — the values of attributes;
* `Token.print_legible` — tokens with all their marks.
-/

namespace PatternTree.Text

/-- Written values can be told apart, and told from the text behind them, as long as this text is
acceptable. -/
def Legible {α : Type} (write : α → List Char) (before : List Char → Prop) : Prop :=
  ∀ ⦃a b : α⦄ ⦃r s : List Char⦄, before r → before s → write a ++ r = write b ++ s → a = b ∧ r = s

/-- No condition on what stands behind. -/
def Anything (_ : List Char) : Prop :=
  True

/-- A text that does not continue a run. -/
def StopsRun (inRun : Char → Bool) (text : List Char) : Prop :=
  ∀ c ∈ text.head?, inRun c = false

@[simp] theorem stopsRun_nil (inRun : Char → Bool) : StopsRun inRun [] := by
  simp [StopsRun]

@[simp] theorem stopsRun_cons {inRun : Char → Bool} {c : Char} {rest : List Char} :
    StopsRun inRun (c :: rest) ↔ inRun c = false := by
  simp [StopsRun]

/-- A run is all that a text begins with before the run stops. -/
theorem takeWhile_append_of_stops {inRun : Char → Bool} {run rest : List Char}
    (hrun : ∀ c ∈ run, inRun c = true) (hrest : StopsRun inRun rest) :
    (run ++ rest).takeWhile inRun = run := by
  rw [List.takeWhile_append_of_pos hrun]
  cases rest with
  | nil => simp
  | cons c rest => simp [stopsRun_cons.mp hrest]

/-- Different runs are legible where the run stops. -/
theorem legible_of_run {α : Type} {write : α → List Char} {inRun : Char → Bool}
    (hrun : ∀ a, ∀ c ∈ write a, inRun c = true) (hinj : ∀ a b, write a = write b → a = b) :
    Legible write (StopsRun inRun) := by
  intro a b r s hr hs heq
  have hwrite : write a = write b := by
    rw [← takeWhile_append_of_stops (hrun a) hr, heq, takeWhile_append_of_stops (hrun b) hs]
  refine ⟨hinj a b hwrite, ?_⟩
  rw [hwrite] at heq
  exact List.append_cancel_left heq

/-- Any number of legible parts is legible up to a character that none of them begins with. -/
theorem Legible.terminated {α : Type} {write : α → List Char} (h : Legible write Anything)
    {stop : Char} (hstop : ∀ a, ∃ c rest, write a = c :: rest ∧ c ≠ stop) :
    Legible (fun as : List α => as.flatMap write ++ [stop]) Anything := by
  intro as
  induction as with
  | nil =>
      intro bs r s _ _ heq
      cases bs with
      | nil => exact ⟨rfl, by simpa using heq⟩
      | cons b bs =>
          obtain ⟨c, rest, hb, hc⟩ := hstop b
          simp only [List.flatMap_nil, List.flatMap_cons, hb, List.nil_append, List.cons_append,
            List.cons.injEq] at heq
          exact absurd heq.1.symm hc
  | cons a as ih =>
      intro bs r s _ _ heq
      cases bs with
      | nil =>
          obtain ⟨c, rest, ha, hc⟩ := hstop a
          simp only [List.flatMap_nil, List.flatMap_cons, ha, List.nil_append, List.cons_append,
            List.cons.injEq] at heq
          exact absurd heq.1 hc
      | cons b bs =>
          simp only [List.flatMap_cons, List.append_assoc] at heq
          obtain ⟨rfl, hrest⟩ := h trivial trivial heq
          obtain ⟨rfl, hbehind⟩ := ih trivial trivial (by simpa using hrest)
          exact ⟨rfl, hbehind⟩

/-- What stands behind a list of entries must not begin like one. -/
def NotBraced (text : List Char) : Prop :=
  ∀ rest, text ≠ ' ' :: '{' :: rest

/-- Entries between commas and a brace are legible if each entry is. -/
theorem entries_legible {α : Type} {write : α → List Char} {before : List Char → Prop}
    (h : Legible write before) (hcomma : ∀ rest, before (',' :: rest))
    (hspace : ∀ rest, before (' ' :: rest)) (a b : α) (as bs : List α) (r s : List Char)
    (heq : [',', ' '].intercalate ((a :: as).map write) ++ ' ' :: '}' :: r
      = [',', ' '].intercalate ((b :: bs).map write) ++ ' ' :: '}' :: s) :
    a :: as = b :: bs ∧ r = s := by
  induction as generalizing a b bs with
  | nil =>
      cases bs with
      | nil =>
          simp only [List.map_cons, List.map_nil, List.intercalate_singleton] at heq
          obtain ⟨rfl, hbehind⟩ := h (hspace _) (hspace _) heq
          exact ⟨rfl, by simpa using hbehind⟩
      | cons b' bs =>
          simp only [List.map_cons, List.map_nil, List.intercalate_singleton,
            List.intercalate_cons_cons, List.append_assoc, List.cons_append] at heq
          obtain ⟨rfl, hbehind⟩ := h (hspace _) (hcomma _) heq
          simp at hbehind
  | cons a' as ih =>
      cases bs with
      | nil =>
          simp only [List.map_cons, List.map_nil, List.intercalate_singleton,
            List.intercalate_cons_cons, List.append_assoc, List.cons_append] at heq
          obtain ⟨rfl, hbehind⟩ := h (hcomma _) (hspace _) heq
          simp at hbehind
      | cons b' bs =>
          simp only [List.map_cons, List.intercalate_cons_cons, List.append_assoc,
            List.cons_append, List.nil_append] at heq
          obtain ⟨rfl, hbehind⟩ := h (hcomma _) (hcomma _) heq
          obtain ⟨htail, hrest⟩ := ih a' b' bs (by simpa using hbehind)
          exact ⟨by rw [htail], hrest⟩

/-- A list of entries is legible, also an empty one, unless a brace follows anyway. -/
theorem braced_legible {α : Type} {write : α → List Char} {before : List Char → Prop}
    (h : Legible write before) (hcomma : ∀ rest, before (',' :: rest))
    (hspace : ∀ rest, before (' ' :: rest)) :
    Legible (fun as : List α => braced (as.map write)) NotBraced := by
  intro as bs r s hr hs heq
  cases as with
  | nil =>
      cases bs with
      | nil => exact ⟨rfl, by simpa using heq⟩
      | cons b bs => exact absurd (by simpa [braced] using heq) (hr _)
  | cons a as =>
      cases bs with
      | nil => exact absurd (by simpa [braced] using heq.symm) (hs _)
      | cons b bs =>
          exact entries_legible h hcomma hspace a b as bs r s (by simpa [braced] using heq)

end PatternTree.Text

/-! ## Numerals -/

namespace PatternTree.Numeral

open Text

/-- The digits of a number denote it again. -/
theorem value_toDigits {base : Nat} (hlow : 1 < base) (hhigh : base ≤ 16) (n : Nat) :
    value base (Nat.toDigits base n) = n := by
  have hdigit : ∀ k : Fin 16, digitValue? (Nat.digitChar k) = some k.val := by decide
  induction n using Nat.strongRecOn with
  | ind n ih =>
      have hlast : n % base < 16 := by
        have hmod := Nat.mod_lt n (Nat.lt_trans Nat.zero_lt_one hlow)
        omega
      rw [Nat.toDigits_eq_if hlow]
      split
      · next hsmall =>
        rw [Nat.mod_eq_of_lt hsmall] at hlast
        simp [value, hdigit ⟨n, hlast⟩]
      · next hlarge =>
        have hfront := ih (n / base) (Nat.div_lt_self (by omega) hlow)
        rw [value] at hfront
        rw [value, List.foldl_append, hfront]
        simp only [List.foldl_cons, List.foldl_nil, hdigit ⟨n % base, hlast⟩, Option.getD_some]
        exact Nat.div_add_mod' n base

/-- A number is written in digits of the base. -/
theorem isDigit_of_mem_toDigits {base : Nat} (hlow : 1 < base) (hhigh : base ≤ 16) (n : Nat) :
    ∀ c ∈ Nat.toDigits base n, isDigit base c = true := by
  have hdigit : ∀ k : Fin 16, digitValue? (Nat.digitChar k) = some k.val := by decide
  have hbelow : ∀ k < base, isDigit base (Nat.digitChar k) = true := by
    intro k hk
    simp [isDigit, hdigit ⟨k, by omega⟩, hk]
  induction n using Nat.strongRecOn with
  | ind n ih =>
      rw [Nat.toDigits_eq_if hlow]
      split
      · next hsmall => simpa using hbelow n hsmall
      · next hlarge =>
        intro c hc
        rcases List.mem_append.mp hc with hc | hc
        · exact ih (n / base) (Nat.div_lt_self (by omega) hlow) c hc
        · rw [List.mem_singleton.mp hc]
          exact hbelow _ (Nat.mod_lt n (by omega))

/-- Numbers are legible up to the first character that is no digit. -/
theorem toDigits_legible {base : Nat} (hlow : 1 < base) (hhigh : base ≤ 16) :
    Legible (Nat.toDigits base) (StopsRun (isDigit base)) := by
  apply legible_of_run (isDigit_of_mem_toDigits hlow hhigh)
  intro n m h
  rw [← value_toDigits hlow hhigh n, h, value_toDigits hlow hhigh m]

end PatternTree.Numeral

namespace PatternTree.Text

/-! ## Texts between quotation marks -/

/-- The character that a shorthand stands for. -/
def ofShorthand (s : Char) : Char :=
  if s = '0' then '\x00'
  else if s = 't' then '\t'
  else if s = 'r' then '\r'
  else if s = 'n' then '\n'
  else s

/-- A shorthand stands for one character only, and never looks like the beginning of a number. -/
theorem of_shorthand?_eq_some {a s : Char} (h : shorthand? a = some s) :
    ofShorthand s = a ∧ s ≠ 'u' := by
  unfold shorthand? at h
  repeat' split at h
  all_goals grind [ofShorthand]

/-- A character without a shorthand is neither the backslash nor the quotation mark. -/
theorem plain_of_shorthand?_eq_none {a : Char} (h : shorthand? a = none) :
    a ≠ '\\' ∧ a ≠ '\x27' := by
  unfold shorthand? at h
  grind

/-- How a character is shown: by a shorthand, by its number or by itself. -/
theorem shown_cases (hidden : Char → Bool) (a : Char) :
    (∃ s, shorthand? a = some s ∧ shown hidden a = ['\\', s]) ∨
      shown hidden a = numbered a ∨ shorthand? a = none ∧ shown hidden a = [a] := by
  unfold shown
  cases h : shorthand? a with
  | some s => exact .inl ⟨s, rfl, rfl⟩
  | none =>
      right
      dsimp only
      split
      · exact .inl rfl
      · exact .inr ⟨rfl, rfl⟩

/-- Characters spelled by their numbers are legible. -/
theorem numbered_legible : Legible numbered Anything := by
  intro a b r s _ _ heq
  simp only [numbered, List.cons_append, List.append_assoc, List.nil_append, List.cons.injEq,
    true_and] at heq
  have hstops : ∀ rest, StopsRun (Numeral.isDigit 16) ('}' :: rest) := by
    intro rest
    exact stopsRun_cons.mpr (by decide)
  obtain ⟨hnumber, hrest⟩ :=
    Numeral.toDigits_legible (by decide) (by decide) (hstops _) (hstops _) heq
  exact ⟨Char.toNat_inj.mp hnumber, (List.cons.inj hrest).2⟩

/-- Shown characters are legible, whichever of them are spelled by their number. -/
theorem shown_legible (hidden : Char → Bool) : Legible (shown hidden) Anything := by
  intro a b r s _ _ heq
  rcases shown_cases hidden a with ⟨x, hx, ha⟩ | ha | ⟨hx, ha⟩ <;>
    rcases shown_cases hidden b with ⟨y, hy, hb⟩ | hb | ⟨hy, hb⟩ <;> rw [ha, hb] at heq
  · simp only [List.cons_append, List.nil_append, List.cons.injEq, true_and] at heq
    obtain ⟨rfl, hrest⟩ := heq
    exact ⟨(of_shorthand?_eq_some hx).1.symm.trans (of_shorthand?_eq_some hy).1, hrest⟩
  · simp only [numbered, List.cons_append, List.nil_append, List.cons.injEq, true_and] at heq
    exact absurd heq.1 (of_shorthand?_eq_some hx).2
  · simp only [List.cons_append, List.nil_append, List.cons.injEq] at heq
    exact absurd heq.1.symm (plain_of_shorthand?_eq_none hy).1
  · simp only [numbered, List.cons_append, List.nil_append, List.cons.injEq, true_and] at heq
    exact absurd heq.1.symm (of_shorthand?_eq_some hy).2
  · exact numbered_legible trivial trivial heq
  · simp only [numbered, List.cons_append, List.nil_append, List.cons.injEq] at heq
    exact absurd heq.1.symm (plain_of_shorthand?_eq_none hy).1
  · simp only [List.cons_append, List.nil_append, List.cons.injEq] at heq
    exact absurd heq.1 (plain_of_shorthand?_eq_none hx).1
  · simp only [numbered, List.cons_append, List.nil_append, List.cons.injEq] at heq
    exact absurd heq.1 (plain_of_shorthand?_eq_none hx).1
  · simpa using heq

/-- A shown character never begins with the quotation mark. -/
theorem shown_head (hidden : Char → Bool) (a : Char) :
    ∃ c rest, shown hidden a = c :: rest ∧ c ≠ '\x27' := by
  rcases shown_cases hidden a with ⟨s, _, h⟩ | h | ⟨hplain, h⟩
  · exact ⟨'\\', [s], h, by decide⟩
  · exact ⟨'\\', _, h, by decide⟩
  · exact ⟨a, [], h, (plain_of_shorthand?_eq_none hplain).2⟩

/-- Texts between quotation marks are legible. -/
theorem quotedText_legible (glyphs : Glyphs) :
    Legible (fun text => quoted (showText glyphs text)) Anything := by
  have hinner : Legible (fun text : List Char => text.flatMap (showInner glyphs) ++ ['\x27'])
      Anything := (shown_legible _).terminated (shown_head _)
  have hhead := shown_head fun c => glyphs.unprintable c || glyphs.extender c
  intro a b r s _ _ heq
  simp only [quoted, List.cons_append, List.append_assoc, List.nil_append, List.cons.injEq,
    true_and] at heq
  cases a with
  | nil =>
      cases b with
      | nil => exact ⟨rfl, by simpa using heq⟩
      | cons y b =>
          obtain ⟨c, rest, hy, hc⟩ := hhead y
          simp only [showText, showFirst, hy, List.nil_append, List.cons_append,
            List.cons.injEq] at heq
          exact absurd heq.1.symm hc
  | cons x a =>
      cases b with
      | nil =>
          obtain ⟨c, rest, hx, hc⟩ := hhead x
          simp only [showText, showFirst, hx, List.nil_append, List.cons_append,
            List.cons.injEq] at heq
          exact absurd heq.1 hc
      | cons y b =>
          simp only [showText, List.append_assoc] at heq
          obtain ⟨rfl, hrest⟩ := shown_legible _ trivial trivial heq
          obtain ⟨rfl, hbehind⟩ := hinner trivial trivial (by simpa using hrest)
          exact ⟨rfl, hbehind⟩

end PatternTree.Text

namespace PatternTree

open Text

/-! ## Names -/

/-- Names in letters are legible up to the first character that is no letter, provided that they
can be looked up. -/
theorem Text.name_legible {α : Type} (name : α → String) (ofName? : String → Option α)
    (hread : ∀ a, ofName? (name a) = some a)
    (hletters : ∀ a, (name a).toList.all Char.isAlpha = true) :
    Legible (fun a => (name a).toList) (StopsRun Char.isAlpha) := by
  apply legible_of_run fun a => List.all_eq_true.mp (hletters a)
  intro a b h
  apply Option.some.inj
  rw [← hread a, String.toList_inj.mp h, hread b]

theorem NodeKind.name_legible :
    Legible (fun kind : NodeKind => kind.name.toList) (StopsRun Char.isAlpha) := by
  apply Text.name_legible NodeKind.name NodeKind.ofName? <;> intro kind <;> cases kind <;> rfl

theorem Slot.name_legible :
    Legible (fun slot : Slot => slot.name.toList) (StopsRun Char.isAlpha) := by
  apply Text.name_legible Slot.name Slot.ofName? <;> intro slot <;> cases slot <;> rfl

theorem AttributeName.name_legible :
    Legible (fun name : AttributeName => name.name.toList) (StopsRun Char.isAlpha) := by
  apply Text.name_legible AttributeName.name AttributeName.ofName? <;> intro name <;>
    rcases name with (_ | _ | _ | _ | _ | _) | _ | _ | _ | _ <;> rfl

theorem Token.Kind.name_legible :
    Legible (fun kind : Token.Kind => kind.name.toList) (StopsRun Char.isAlpha) := by
  apply Text.name_legible Token.Kind.name Token.Kind.ofName? <;> intro kind <;> cases kind <;> rfl

theorem Region.name_legible :
    Legible (fun region : Region => region.name.toList) (StopsRun Char.isAlpha) := by
  apply Text.name_legible Region.name Region.ofName? <;> intro region <;> cases region <;> rfl

/-- The name of a region between quotation marks. -/
theorem Region.quoted_legible :
    Legible (fun region : Region => quoted region.name.toList) Anything := by
  intro a b r s _ _ heq
  simp only [quoted, List.cons_append, List.append_assoc, List.cons.injEq, true_and] at heq
  have hquote : ∀ rest, StopsRun Char.isAlpha (['\x27'] ++ rest) := by
    intro rest
    exact stopsRun_cons.mpr (by decide)
  obtain ⟨hregion, hrest⟩ := Region.name_legible (hquote _) (hquote _) heq
  exact ⟨hregion, List.append_cancel_left hrest⟩

/-! ## Attributes -/

/-- A number is printed with at least one digit. -/
theorem Numeral.decimal_head (n : Nat) :
    ∃ c rest, Numeral.decimal n = c :: rest ∧ Numeral.isDigit 10 c = true := by
  have hall := Numeral.isDigit_of_mem_toDigits (by decide : 1 < 10) (by decide) n
  cases h : Nat.toDigits 10 n with
  | nil => exact absurd h Nat.toDigits_ne_nil
  | cons c rest => exact ⟨c, rest, h, hall c (by simp [h])⟩

/-- What the first character of a printed value says about the value. -/
def Attribute.Announces (c : Char) : Attribute → Prop
  | bool true => c = 't'
  | bool false => c = 'f'
  | integer _ => Numeral.isDigit 10 c = true
  | text _ => c = '\x27'
  | absent => c = 'n'

/-- A printed value begins with a character that announces it. -/
theorem Attribute.print_head (glyphs : Glyphs) (value : Attribute) :
    ∃ c rest, value.print glyphs = c :: rest ∧ value.Announces c := by
  rcases value with (_ | _) | n | text | _
  case integer => exact Numeral.decimal_head n
  all_goals exact ⟨_, _, rfl, rfl⟩

/-- The values of attributes are legible up to a digit. -/
theorem Attribute.print_legible (glyphs : Glyphs) :
    Legible (Attribute.print glyphs) (StopsRun (Numeral.isDigit 10)) := by
  intro a b r s hr hs heq
  obtain ⟨c, rest, ha, hca⟩ := print_head glyphs a
  obtain ⟨d, rest', hb, hdb⟩ := print_head glyphs b
  obtain rfl : c = d := by
    rw [ha, hb] at heq
    exact (List.cons.inj heq).1
  -- Only values of one form are announced by the same character.
  rcases a with (_ | _) | n | text | _ <;> rcases b with (_ | _) | m | text' | _ <;>
    simp only [Announces] at hca hdb
  case integer.integer =>
    obtain ⟨rfl, hrest⟩ := Numeral.toDigits_legible (by decide) (by decide) hr hs
      (by simpa only [print, Numeral.decimal] using heq)
    exact ⟨rfl, hrest⟩
  case text.text =>
    obtain ⟨rfl, hrest⟩ := quotedText_legible glyphs trivial trivial heq
    exact ⟨rfl, hrest⟩
  case bool.false.bool.false | bool.true.bool.true | absent.absent =>
    exact ⟨rfl, List.append_cancel_left heq⟩
  all_goals first
    | rw [hca] at hdb
      exact absurd hdb (by decide)
    | rw [hdb] at hca
      exact absurd hca (by decide)

/-! ## Tokens -/

/-- A single thing that a token opens or closes. -/
inductive Token.Mark where
  | balanced (closer : Char)
  | balancedRegion (region : Region)
  | balancer
  | openRegion (region : Region)
  | closeRegion (region : Region)

namespace Token.Mark

/-- What a mark is printed behind. -/
def label : Mark → String
  | balanced _ => "balanced: "
  | balancedRegion _ => "balancedSpan: "
  | balancer => "balancer: "
  | openRegion _ => "openSpan: "
  | closeRegion _ => "closeSpan: "

/-- What is printed behind the label of a mark. -/
def printValue (glyphs : Glyphs) : Mark → List Char
  | balanced c => Text.quoted (Text.showFirst glyphs c)
  | balancedRegion region => quoted region.name.toList
  | balancer => "true".toList
  | openRegion region => quoted region.name.toList
  | closeRegion region => quoted region.name.toList

/-- The printed form of a mark. -/
def print (glyphs : Glyphs) (mark : Mark) : List Char :=
  mark.label.toList ++ mark.printValue glyphs

/-- The token with a mark added to it. -/
def addTo (token : Token) : Mark → Token
  | balanced c => { token with balanced := some c }
  | balancedRegion region => { token with balancedRegion := some region }
  | balancer => { token with balancer := true }
  | openRegion region => { token with openRegion := some region }
  | closeRegion region => { token with closeRegion := some region }

end Token.Mark

namespace Token

/-- The marks of a token, in the order they are printed in. -/
def markList (token : Token) : List Mark :=
  (token.balanced.map .balanced).toList ++ (token.balancedRegion.map .balancedRegion).toList
    ++ (if token.balancer then [.balancer] else []) ++ (token.openRegion.map .openRegion).toList
    ++ (token.closeRegion.map .closeRegion).toList

/-- The printed marks are those of the list. -/
theorem marks_eq (glyphs : Glyphs) (token : Token) :
    token.marks glyphs = token.markList.map (Mark.print glyphs) := by
  have hoption : ∀ {α : Type} (o : Option α) (mark : α → Mark),
      ((o.map mark).toList).map (Mark.print glyphs)
        = (o.map fun a => (mark a).label.toList ++ (mark a).printValue glyphs).toList := by
    intro α o mark
    cases o <;> rfl
  have hbalancer : (if token.balancer then [Mark.balancer] else []).map (Mark.print glyphs)
      = if token.balancer then ["balancer: true".toList] else [] := by
    have htext : Mark.print glyphs .balancer = "balancer: true".toList := by
      change "balancer: ".toList ++ "true".toList = "balancer: true".toList
      decide
    split
    · rw [List.map_singleton, htext]
    · rfl
  simp only [markList, List.map_append, hbalancer]
  rw [hoption, hoption, hoption, hoption]
  rfl

/-- A token is its text with all its marks added. -/
theorem foldl_addTo_markList (token : Token) :
    token.markList.foldl Mark.addTo (plain token.kind token.text token.span) = token := by
  obtain ⟨kind, text, span, balanced, balancedRegion, balancer, openRegion, closeRegion⟩ := token
  cases balanced <;> cases balancedRegion <;> cases balancer <;> cases openRegion <;>
    cases closeRegion <;> rfl

/-- Marks are legible. -/
theorem Mark.print_legible (glyphs : Glyphs) : Legible (Mark.print glyphs) Anything := by
  intro a b r s _ _ heq
  rw [Mark.print, Mark.print, List.append_assoc, List.append_assoc] at heq
  cases a <;> cases b
  case balanced.balanced c d =>
    have hvalue : quoted (showText glyphs [c]) ++ r = quoted (showText glyphs [d]) ++ s := by
      rw [showText_singleton, showText_singleton]
      exact List.append_cancel_left heq
    obtain ⟨hchar, hrest⟩ := quotedText_legible glyphs trivial trivial hvalue
    exact ⟨by rw [List.singleton_inj.mp hchar], hrest⟩
  case balancer.balancer =>
    exact ⟨rfl, List.append_cancel_left (List.append_cancel_left heq)⟩
  case balancedRegion.balancedRegion | openRegion.openRegion | closeRegion.closeRegion =>
    obtain ⟨rfl, hrest⟩ := Region.quoted_legible trivial trivial (List.append_cancel_left heq)
    exact ⟨rfl, hrest⟩
  all_goals simp [Mark.label] at heq

/-- Tokens are legible but for their spans. -/
theorem print_legible (glyphs : Glyphs) {a b : Token} {r s : List Char}
    (heq : a.print glyphs ++ r = b.print glyphs ++ s) :
    ({ a with span := b.span } : Token) = b ∧ r = s := by
  simp only [print, List.append_assoc, marks_eq] at heq
  have hspace : ∀ rest, StopsRun Char.isAlpha ([' '] ++ rest) := by
    intro rest
    exact stopsRun_cons.mpr (by decide)
  obtain ⟨hkind, heq⟩ := Kind.name_legible (hspace _) (hspace _) (List.append_cancel_left heq)
  obtain ⟨htext, heq⟩ := quotedText_legible glyphs trivial trivial (List.append_cancel_left heq)
  have hslash : ∀ rest, NotBraced (" />".toList ++ rest) := by
    intro rest behind h
    simp at h
  have hentries := braced_legible (Mark.print_legible glyphs) (fun _ => trivial) fun _ => trivial
  obtain ⟨hmarks, heq⟩ := hentries (hslash _) (hslash _) heq
  refine ⟨?_, List.append_cancel_left heq⟩
  calc ({ a with span := b.span } : Token)
      = a.markList.foldl Mark.addTo (plain a.kind a.text b.span) :=
        (foldl_addTo_markList { a with span := b.span }).symm
    _ = b.markList.foldl Mark.addTo (plain b.kind b.text b.span) := by rw [hmarks, hkind, htext]
    _ = b := foldl_addTo_markList b

end Token

end PatternTree
