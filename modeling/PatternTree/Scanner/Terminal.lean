import PatternTree.Flag
import PatternTree.Text.Numeral

/-!
# Terminals

A terminal is something that can be matched at the front of a text.  A match is never empty,
and it splits the text into the matched part and the rest (`split?_eq_some`).
-/

namespace PatternTree

/-- What can be matched at the front of a text. -/
inductive Terminal where
  /-- The given character. -/
  | char (c : Char)
  /-- The given text; the empty text is never matched. -/
  | word (text : List Char)
  /-- Any one of the given characters. -/
  | oneOf (choices : List Char)
  /-- As many flag letters as there are. -/
  | flagRun
  /-- One decimal digit. -/
  | digit
  /-- As many hexadecimal digits as there are. -/
  | hexRun
  /-- Two hexadecimal digits. -/
  | hexPair
  /-- Four hexadecimal digits. -/
  | hexQuad
  /-- Any character but a line feed, a carriage return and a tab. -/
  | plain
  deriving DecidableEq, Repr

namespace Terminal

/-- Whether a character may stand unescaped in a pattern literal. -/
def isPlain (c : Char) : Bool :=
  c != '\n' && c != '\r' && c != '\t'

/-- Splits off one character of a class. -/
def splitOne? (accepts : Char → Bool) : List Char → Option (List Char × List Char)
  | c :: rest => if accepts c then some ([c], rest) else none
  | [] => none

/-- Splits off a given text that is not empty. -/
def splitWord? (word text : List Char) : Option (List Char × List Char) :=
  if word ≠ [] ∧ word.isPrefixOf text then some (word, text.drop word.length) else none

/-- Splits off as many characters of a class as there are, and at least one. -/
def splitRun? (accepts : Char → Bool) (text : List Char) : Option (List Char × List Char) :=
  let run := text.takeWhile accepts
  if run ≠ [] then some (run, text.dropWhile accepts) else none

/-- Splits off a fixed, positive number of characters of a class. -/
def splitBlock? (accepts : Char → Bool) (size : Nat) (text : List Char) :
    Option (List Char × List Char) :=
  let block := text.take size
  if 0 < size ∧ block.length = size ∧ block.all accepts then some (block, text.drop size)
  else none

/-- Splits a text into the part that a terminal matches at its front and the rest. -/
def split? : Terminal → List Char → Option (List Char × List Char)
  | char c => splitOne? (· == c)
  | word text => splitWord? text
  | oneOf choices => splitOne? choices.contains
  | flagRun => splitRun? Flag.letters.contains
  | digit => splitOne? (Numeral.isDigit 10)
  | hexRun => splitRun? (Numeral.isDigit 16)
  | hexPair => splitBlock? (Numeral.isDigit 16) 2
  | hexQuad => splitBlock? (Numeral.isDigit 16) 4
  | plain => splitOne? isPlain

private theorem splitOne?_eq_some {accepts : Char → Bool} {text matched rest : List Char}
    (h : splitOne? accepts text = some (matched, rest)) :
    matched ≠ [] ∧ text = matched ++ rest := by
  cases text with
  | nil => simp [splitOne?] at h
  | cons c text =>
    simp only [splitOne?] at h
    split at h
    · obtain ⟨rfl, rfl⟩ := Prod.mk.inj (Option.some.inj h)
      simp
    · simp at h

private theorem splitWord?_eq_some {word text matched rest : List Char}
    (h : splitWord? word text = some (matched, rest)) :
    matched ≠ [] ∧ text = matched ++ rest := by
  simp only [splitWord?] at h
  split at h
  · next hw =>
    obtain ⟨rfl, rfl⟩ := Prod.mk.inj (Option.some.inj h)
    obtain ⟨tail, rfl⟩ := List.isPrefixOf_iff_prefix.mp hw.2
    simp [hw.1]
  · simp at h

private theorem splitRun?_eq_some {accepts : Char → Bool} {text matched rest : List Char}
    (h : splitRun? accepts text = some (matched, rest)) :
    matched ≠ [] ∧ text = matched ++ rest := by
  simp only [splitRun?] at h
  split at h
  · next hr =>
    obtain ⟨rfl, rfl⟩ := Prod.mk.inj (Option.some.inj h)
    exact ⟨hr, List.takeWhile_append_dropWhile.symm⟩
  · simp at h

private theorem splitBlock?_eq_some {accepts : Char → Bool} {size : Nat}
    {text matched rest : List Char}
    (h : splitBlock? accepts size text = some (matched, rest)) :
    matched ≠ [] ∧ text = matched ++ rest := by
  simp only [splitBlock?] at h
  split at h
  · next hb =>
    obtain ⟨rfl, rfl⟩ := Prod.mk.inj (Option.some.inj h)
    refine ⟨?_, (List.take_append_drop _ _).symm⟩
    intro hnil
    have hlen := hb.2.1
    rw [hnil] at hlen
    simp at hlen
    omega
  · simp at h

/-- A match is not empty, and with the rest it makes up the text. -/
theorem split?_eq_some {terminal : Terminal} {text matched rest : List Char}
    (h : terminal.split? text = some (matched, rest)) :
    matched ≠ [] ∧ text = matched ++ rest := by
  cases terminal with
  | char c => exact splitOne?_eq_some h
  | word text => exact splitWord?_eq_some h
  | oneOf choices => exact splitOne?_eq_some h
  | flagRun => exact splitRun?_eq_some h
  | digit => exact splitOne?_eq_some h
  | hexRun => exact splitRun?_eq_some h
  | hexPair => exact splitBlock?_eq_some h
  | hexQuad => exact splitBlock?_eq_some h
  | plain => exact splitOne?_eq_some h

end Terminal

end PatternTree
