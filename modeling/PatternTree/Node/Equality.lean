import PatternTree.Node.Basic

/-!
# Equality of trees

Two trees are equal if they agree in kind, span, attributes and properties, all the way down.
This file decides it.
-/

namespace PatternTree.Node

mutual
/-- Equality of trees is decided child by child. -/
def decideEq (a b : Node) : Decidable (a = b) :=
  match a, b with
  | ⟨kind, span, attributes, properties⟩, ⟨kind', span', attributes', properties'⟩ =>
    if h : kind = kind' ∧ span = span' ∧ attributes = attributes' then
      match decideEqList properties properties' with
      | isTrue hp => isTrue (by simp [h, hp])
      | isFalse hp => isFalse (by simp [h, hp])
    else
      isFalse fun heq => h (by injection heq; simp_all)
/-- Equality of lists of properties is decided from left to right. -/
def decideEqList (a b : List Property) : Decidable (a = b) :=
  match a, b with
  | [], [] => isTrue rfl
  | [], _ :: _ => isFalse (fun h => nomatch h)
  | _ :: _, [] => isFalse (fun h => nomatch h)
  | (slot, child) :: rest, (slot', child') :: rest' =>
    if h : slot = slot' then
      match decideEqChild child child', decideEqList rest rest' with
      | isTrue hc, isTrue hr => isTrue (by simp [h, hc, hr])
      | isFalse hc, _ => isFalse (by simp [hc])
      | _, isFalse hr => isFalse (by simp [hr])
    else
      isFalse (by simp [h])
/-- Equality of children is decided by what they hold. -/
def decideEqChild (a b : Child Node) : Decidable (a = b) :=
  match a, b with
  | .node n, .node m =>
    match decideEq n m with
    | isTrue h => isTrue (by rw [h])
    | isFalse h => isFalse (by simpa using h)
  | .token t, .token u => if h : t = u then isTrue (by rw [h]) else isFalse (by simpa using h)
  | .null, .null => isTrue rfl
  | .node _, .token _ => isFalse (fun h => nomatch h)
  | .node _, .null => isFalse (fun h => nomatch h)
  | .token _, .node _ => isFalse (fun h => nomatch h)
  | .token _, .null => isFalse (fun h => nomatch h)
  | .null, .node _ => isFalse (fun h => nomatch h)
  | .null, .token _ => isFalse (fun h => nomatch h)
end

instance : DecidableEq Node := decideEq

end PatternTree.Node
