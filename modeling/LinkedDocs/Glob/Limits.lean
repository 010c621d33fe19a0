import LinkedDocs.Glob.Basic

/-!
# How large a pattern may be

Two measures bound a pattern that is well formed otherwise. Its depth counts the levels on which
parts stand: an alternation, a run, a class and every group of things side by side open a level. Its
weight is what the parts take, in bytes, when they are laid out as states over the bytes of a text;
a character of any kind takes a thousand, because it may be one to four bytes long.

Without operators a class is never deep (`CharClass.depth_le_of_without_eq_nil`), so all other depth
comes from alternations. Putting parts side by side adds their weights (`weight_append`) and takes
the greater depth (`deepestPart_append`).
-/

namespace LinkedDocs.Glob

/-- The depth of `count` things of which the deepest has depth `deepest`: several side by side are
one level above the deepest, a single one is no level of its own. -/
def sideBySide (count deepest : Nat) : Nat := if count < 2 then deepest else deepest + 1

/-- The depth of the members between two operators of a class. -/
def operandDepth (members : List ClassMember) : Nat := sideBySide members.length 0

/-- The depth of a class: one level for itself and one for each operator, which holds all that
stands before it. -/
def CharClass.depth (k : CharClass) : Nat :=
  1 + k.without.foldl (fun deepest members => 1 + max deepest (operandDepth members))
    (operandDepth k.members)

mutual

/-- The depth of a part. -/
def Part.depth : Part → Nat
  | .literal _ => 0
  | .anyOne => 0
  | .anyRun => 1
  | .oneOf chars => chars.depth
  | .alternation branches => 1 + sideBySide branches.length (deepestBranch branches)

/-- The depth of the deepest branch. -/
def deepestBranch : List (List Part) → Nat
  | [] => 0
  | branch :: branches =>
    max (sideBySide branch.length (deepestPart branch)) (deepestBranch branches)

/-- The depth of the deepest part. -/
def deepestPart : List Part → Nat
  | [] => 0
  | part :: parts => max part.depth (deepestPart parts)

end

/-- The depth of a sequence of parts. -/
def depth (parts : List Part) : Nat := sideBySide parts.length (deepestPart parts)

/-- The greatest depth that a pattern may have. -/
def maxDepth : Nat := 248

/-- What a single character takes that is given by a test. -/
def charWeight : Nat := 1000

mutual

/-- The weight of a part. -/
def Part.weight : Part → Nat
  | .literal _ => 80
  | .anyOne => charWeight
  | .anyRun => charWeight + 40
  | .oneOf _ => charWeight
  | .alternation branches => 64 + weightOfBranches branches

/-- The weight of all branches. -/
def weightOfBranches : List (List Part) → Nat
  | [] => 0
  | branch :: branches => 4 + weight branch + weightOfBranches branches

/-- The weight of all parts. -/
def weight : List Part → Nat
  | [] => 0
  | part :: parts => part.weight + weight parts

end

/-- The greatest weight that a pattern may have: ten mebibytes. -/
def maxWeight : Nat := 10 * 1024 * 1024

theorem le_sideBySide (count deepest : Nat) : deepest ≤ sideBySide count deepest := by
  unfold sideBySide
  split <;> omega

theorem sideBySide_le (count deepest : Nat) : sideBySide count deepest ≤ deepest + 1 := by
  unfold sideBySide
  split <;> omega

theorem weight_append (parts more : List Part) :
    weight (parts ++ more) = weight parts + weight more := by
  induction parts with
  | nil => simp [weight]
  | cons part parts ih => simp [weight, ih, Nat.add_assoc]

theorem deepestPart_append (parts more : List Part) :
    deepestPart (parts ++ more) = max (deepestPart parts) (deepestPart more) := by
  induction parts with
  | nil => simp [deepestPart]
  | cons part parts ih => simp [deepestPart, ih, Nat.max_assoc]

/-- A class without operators has depth one or two. -/
theorem CharClass.depth_le_of_without_eq_nil {k : CharClass} (h : k.without = []) :
    k.depth ≤ 2 := by
  have := sideBySide_le k.members.length 0
  simp only [CharClass.depth, h, List.foldl_nil, operandDepth]
  omega

end LinkedDocs.Glob
