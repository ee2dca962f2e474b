import PatternTree.Production.Basic

/-!
# Flags

The flags of a pattern are letters in any order, none of them twice.  A first pass over the letters
collects the flags that they set, each by its place in the canonical order.  Every flag is then
recorded as an attribute, set or not, in that order; the letters are recorded as they come.
-/

namespace PatternTree.Production

/-- The places of the flags that letters set, besides those that have been `seen`.  A letter whose
flag has been seen is rejected where it stands; a letter without a flag is passed over. -/
def seeFlags (position : Nat) (seen : List Nat) : List Char → Attempt (List Nat)
  | [] => .ok seen
  | c :: rest =>
    match Flag.index? c with
    | none => seeFlags (position + c.utf8Size) seen rest
    | some index =>
      if index ∈ seen then reject position (.duplicateFlag c)
      else seeFlags (position + c.utf8Size) (index :: seen) rest

/-- All flags as attributes, set just if their places have been seen. -/
def flagAttributes (seen : List Nat) : List (AttributeName × Attribute) :=
  Flag.all.zipIdx.map fun (flag, index) => (.flag flag, .bool (seen.contains index))

/-- Every flag is an attribute of flags. -/
theorem name_mem_of_mem_flagAttributes {seen : List Nat} :
    ∀ entry ∈ flagAttributes seen, entry.1 ∈ NodeKind.flags.attributeNames := by
  intro entry hentry
  obtain ⟨⟨flag, index⟩, -, rfl⟩ := List.mem_map.mp hentry
  exact List.mem_map.mpr ⟨flag, flag.mem_all, rfl⟩

/-- The given letters as one keyword each. -/
def flagTokens : List Char → Builder → Scanner → Attempt (Builder × Scanner)
  | [], draft, scanner => .ok (draft, scanner)
  | c :: rest, draft, scanner => do
    let (token, after) ← expect .keyword (.char c) "flag" scanner
    let extended ← record draft .tokens (.token token)
    flagTokens rest extended after

/-- As many flag letters as there are. -/
def flags (scanner : Scanner) : Attempt (Node × Scanner) := do
  let letters := (scanner.matched? .flagRun).getD []
  let seen ← seeFlags scanner.position [] letters
  let noted ← noteAll (.new .flags scanner.position) (flagAttributes seen)
  let (filled, after) ← flagTokens letters noted scanner
  return complete filled after

end PatternTree.Production
