import LinkedDocs.Text.Folding

/-!
# Character classes

The body of a class is a list of members: characters and ranges `x-y`. A hyphen is a member where it
cannot join two others: at the start, at the end, or right after a range. Two hyphens in a row,
except at the start, are an operator: what follows them is taken away from what comes before. All
comparisons are up to case, also those that take characters away.
-/

namespace LinkedDocs.Glob

/-- A member of a character class. -/
inductive ClassMember where
  | char (c : Char)
  | range (first last : Char)
  deriving DecidableEq

/-- Whether a code point is the member or lies in it. -/
def ClassMember.has (point : Nat) : ClassMember → Bool
  | .char c => point == c.toNat
  | .range first last => first.toNat ≤ point && point ≤ last.toNat

/-- A character class: its members, less those of each list in `without`, or all others. -/
structure CharClass where
  negated : Bool
  members : List ClassMember
  without : List (List ClassMember)
  deriving DecidableEq

namespace CharClass

/-- Whether a character is, up to case, one of the members. -/
def oneOf (members : List ClassMember) (c : Char) : Bool :=
  (Text.caseVariants c).any fun point => members.any (ClassMember.has point)

/-- Whether a character belongs to the class. -/
def has (k : CharClass) (c : Char) : Bool :=
  (oneOf k.members c && !k.without.any (oneOf · c)) != k.negated

/-- Puts a member in front of the first operand. -/
def addMember (m : ClassMember) :
    List ClassMember × List (List ClassMember) → List ClassMember × List (List ClassMember)
  | (first, others) => (m :: first, others)

/-- The members before the first operator, and those after each operator; none if the ends of a
range are in the wrong order. -/
def operands? : List Char → Option (List ClassMember × List (List ClassMember))
  | [] => some ([], [])
  | '-' :: '-' :: rest => (operands? rest).map fun (first, others) => ([], first :: others)
  | c :: '-' :: last :: rest =>
    if last = '-' then (operands? rest).map fun (first, others) => ([.char c], first :: others)
    else if c ≤ last then (operands? rest).map (addMember (.range c last))
    else none
  | c :: rest => (operands? rest).map (addMember (.char c))

/-- The class with this body; hyphens at the start are members. -/
def ofBody? (negated : Bool) (body : List Char) : Option CharClass :=
  let hyphens := (body.takeWhile (· == '-')).map ClassMember.char
  (operands? (body.dropWhile (· == '-'))).map fun (first, others) =>
    ⟨negated, hyphens ++ first, others⟩

end CharClass

end LinkedDocs.Glob
