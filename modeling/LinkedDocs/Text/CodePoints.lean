/-!
# Sets of code points

Character classes are given as lists of ranges of code points, both ends included. This module holds
the membership test and the one small class that fits in a line: the blank characters.
-/

namespace LinkedDocs.Text

/-- A list of ranges of code points, both ends included. -/
abbrev CodePoints := List (Nat × Nat)

/-- Whether one of the ranges holds the character. -/
def CodePoints.has (ranges : CodePoints) (c : Char) : Bool :=
  ranges.any fun range => range.1 ≤ c.toNat && c.toNat ≤ range.2

theorem CodePoints.has_iff (ranges : CodePoints) (c : Char) :
    ranges.has c = true ↔ ∃ range ∈ ranges, range.1 ≤ c.toNat ∧ c.toNat ≤ range.2 := by
  simp [CodePoints.has]

/-- The code points with the property White_Space. -/
def blanks : CodePoints :=
  [(0x9, 0xD), (0x20, 0x20), (0x85, 0x85), (0xA0, 0xA0), (0x1680, 0x1680), (0x2000, 0x200A),
   (0x2028, 0x2029), (0x202F, 0x202F), (0x205F, 0x205F), (0x3000, 0x3000)]

/-- Whether the character is white space. -/
def isBlank (c : Char) : Bool := blanks.has c

/-- The text without white space at either end. -/
def trim (text : List Char) : List Char :=
  ((text.dropWhile isBlank).reverse.dropWhile isBlank).reverse

end LinkedDocs.Text
