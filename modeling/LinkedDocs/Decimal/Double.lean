/-!
# Finite 64-bit floating-point numbers, exactly

A `Double` is a sign, a significand below `2^53` and a scale: its value is
`± significand · 2^scale · 2^-1074`. The form is canonical (a scale above zero needs a full
significand), so a value other than zero has one representation and equality of representations
is equality of numbers, apart from the two zeros. All arithmetic is on natural numbers: `units`
gives the value as a whole number of `2^-1074`, and rounding picks the nearest representable
number, a tie going to the even significand.
-/

namespace LinkedDocs

/-- The quotient rounded to the nearest whole number, a tie going to the even one. -/
def roundDiv (num den : Nat) : Nat :=
  let q := num / den
  let r := num % den
  if 2 * r < den ∨ (2 * r = den ∧ q % 2 = 0) then q else q + 1

/-- The least significand of 53 bits, `2^52`. -/
abbrev leastFull : Nat := 0x10000000000000

/-- A finite number of 64 bits; its value is `± significand · 2^scale · 2^-1074`. -/
structure Double where
  negative : Bool
  significand : Nat
  scale : Nat
  significand_lt : significand < 2 * leastFull
  scale_le : scale ≤ 2045
  canonical : scale = 0 ∨ leastFull ≤ significand
  deriving DecidableEq

namespace Double

/-- Zero with a sign. -/
def zero (negative : Bool) : Double := ⟨negative, 0, 0, by decide, by decide, .inl rfl⟩

instance : Inhabited Double := ⟨zero false⟩

/-- The number with these parts, if they are those of a finite number. -/
def ofParts? (negative : Bool) (significand scale : Nat) : Option Double :=
  if h : significand < 2 * leastFull ∧ scale ≤ 2045 ∧ (scale = 0 ∨ leastFull ≤ significand) then
    some ⟨negative, significand, scale, h.1, h.2.1, h.2.2⟩
  else none

/-- The absolute value in units of `2^-1074`. -/
def magnitude (x : Double) : Nat := x.significand <<< x.scale

/-- The value in units of `2^-1074`. -/
def units (x : Double) : Int := if x.negative then -(x.magnitude : Int) else x.magnitude

/-- Whether the value is zero, of either sign. -/
def isZero (x : Double) : Bool := x.significand == 0

/-- The same number, with zero made positive. -/
def unsignedZero (x : Double) : Double := if x.isZero then zero false else x

/-- The same number with the sign given. -/
def withSign (x : Double) (negative : Bool) : Double := { x with negative }

/-- How far a magnitude of that many units must be shifted to leave 53 bits. -/
def shiftFor (units : Nat) : Nat := units.log2 - 52

/-- The representable number nearest to `num / den`, a tie going to the even significand;
none if that is beyond the largest finite number. -/
def nearest? (negative : Bool) (num den : Nat) : Option Double :=
  let units := num <<< 1074
  let shift := shiftFor (units / den)
  let significand := roundDiv units (den <<< shift)
  if significand < 2 * leastFull then ofParts? negative significand shift
  else ofParts? negative leastFull (shift + 1)

/-- The product, rounded; none on overflow. -/
def mul? (x y : Double) : Option Double :=
  nearest? (x.negative != y.negative) (x.magnitude * y.magnitude) (1 <<< 2148)

/-- The quotient, rounded; none on overflow. -/
def div? (x y : Double) : Option Double :=
  nearest? (x.negative != y.negative) x.magnitude y.magnitude

/-- A whole number rounded to 53 significant bits, a tie going to the even significand. -/
def roundNat (n : Nat) : Nat :=
  let unit := 1 <<< shiftFor n
  roundDiv n unit * unit

/-- A whole number rounded to 53 significant bits and written in units of `2^-1074`. -/
def unitsOfInt : Int → Int
  | .ofNat n => (roundNat n <<< 1074 : Nat)
  | .negSucc n => -(roundNat (n + 1) <<< 1074 : Nat)

/-! ## From decimals -/

/-- The number nearest to `10^k`. -/
def powTen? (k : Nat) : Option Double := nearest? false (Nat.pow 10 k) 1

/-- Divides by the largest finite power of ten, `10^308`, as often as told or until zero is reached.
-/
def underLargestPower? : Nat → Double → Option Double
  | 0, x => some x
  | n + 1, x =>
    if x.isZero then some x
    else ((powTen? 308).bind x.div?).bind (underLargestPower? n)

/-- Divides by `10^k` for `k` above zero: beyond `10^308` in steps. -/
def overPowTen? (x : Double) (k : Nat) : Option Double :=
  let steps := (k - 1) / 308
  (underLargestPower? steps x).bind fun y => (powTen? (k - 308 * steps)).bind y.div?

/-- The value given to the decimal `significand · 10^exponent`: the significand is rounded to 53
bits, then scaled by the rounded power of ten, which rounds again. None on overflow. -/
def ofDecimal? (negative : Bool) (significand : Nat) (exponent : Int) : Option Double :=
  (nearest? false significand 1).bind fun x =>
    let scaled :=
      match exponent with
      | .ofNat k =>
        if k ≤ 308 then (powTen? k).bind x.mul?
        else if x.isZero then some x
        else none
      | .negSucc k => x.overPowTen? (k + 1)
    scaled.map (·.withSign negative)

end Double

end LinkedDocs
