import LinkedDocs.Decimal.Double

/-!
# The shortest decimal of a number

The text of a `Double` uses the fewest digits that read back as the same number. For each count of
digits from 1 to 17 the two neighbours of the value on the decimal grid are tested, in exact
arithmetic, against the interval of reals that round to it; the first grid with a hit wins, of two
hits the nearer one, and an exact tie goes to the even digit. Between `10^-5` and `10^16` the digits
are written positionally, with at least one decimal, otherwise with an exponent.
-/

namespace LinkedDocs

/-- A positive decimal: the digits `d₁d₂…dₙ` stand for `d₁.d₂…dₙ · 10^exponent`. -/
structure Decimal where
  digits : List Char
  exponent : Int
  deriving DecidableEq

/-- The decimal digits of a natural number. -/
def decimalDigits (n : Nat) : List Char := Nat.toDigits 10 n

namespace Decimal

/-- The decimal `mantissa · 10^exponent`, without zeros at its end. -/
def ofScaled (mantissa : Nat) (exponent : Int) : Decimal :=
  let digits := decimalDigits mantissa
  let kept := (digits.reverse.dropWhile (· == '0')).reverse
  ⟨kept, exponent + digits.length - 1⟩

/-- Positional notation, with at least one decimal. -/
def positional (d : Decimal) : List Char :=
  match d.exponent with
  | .ofNat e =>
    let whole := d.digits.take (e + 1)
    let fraction := d.digits.drop (e + 1)
    whole ++ List.replicate (e + 1 - whole.length) '0' ++ '.' ::
      (if fraction.isEmpty then ['0'] else fraction)
  | .negSucc e => '0' :: '.' :: List.replicate e '0' ++ d.digits

/-- Notation with an exponent, whose sign is always written. -/
def scientific (d : Decimal) : List Char :=
  let mantissa :=
    match d.digits with
    | first :: second :: rest => first :: '.' :: second :: rest
    | digits => digits
  let exponent :=
    match d.exponent with
    | .ofNat e => '+' :: decimalDigits e
    | .negSucc e => '-' :: decimalDigits (e + 1)
  mantissa ++ 'e' :: exponent

/-- Exponents from -5 to 15 are written positionally. -/
def text (d : Decimal) : List Char :=
  if -5 ≤ d.exponent ∧ d.exponent ≤ 15 then d.positional else d.scientific

end Decimal

namespace Double

/-- Four times the lower and upper end of the interval that rounds to a number other than zero,
in units of `2^-1074`. Below a power of two the neighbour is only half as far away. -/
def interval (x : Double) : Nat × Nat :=
  let gap := 1 <<< x.scale
  let below := if x.significand = leastFull ∧ 0 < x.scale then gap else 2 * gap
  (4 * x.magnitude - below, 4 * x.magnitude + 2 * gap)

/-- The exponent of the leading decimal digit of `num / den`, which is not zero. -/
def decimalExponent (num den : Nat) : Int :=
  if den ≤ num then ((decimalDigits (num / den)).length : Int) - 1
  else -((decimalDigits ((den + num - 1) / num - 1)).length : Int)

/-- The neighbours of `num / den` on the grid of step `10^exponent`, with the exact tests that
the digit search needs: `num / den` is scaled to `scaledNum / scaledDen` grid steps. -/
def onGrid (num den : Nat) (exponent : Int) : Nat × Nat :=
  match exponent with
  | .ofNat k => (num, den * Nat.pow 10 k)
  | .negSucc k => (num * Nat.pow 10 (k + 1), den)

/-- The decimal of `count` digits that rounds to the number and is nearest to it, if there is one.
-/
def withDigits? (x : Double) (exponent : Int) (count : Nat) : Option Decimal :=
  let step := exponent - (count : Int) + 1
  let (low, high) := x.interval
  let (num, den) := onGrid (4 * x.magnitude) (4 <<< 1074) step
  let (lowNum, _) := onGrid low (4 <<< 1074) step
  let (highNum, _) := onGrid high (4 <<< 1074) step
  let closed := x.significand % 2 = 0
  let inside (m : Nat) : Bool :=
    if closed then lowNum ≤ m * den && m * den ≤ highNum
    else lowNum < m * den && m * den < highNum
  let floor := num / den
  let rest := num % den
  match inside floor && floor != 0, inside (floor + 1) with
  | true, false => some (Decimal.ofScaled floor step)
  | false, true => some (Decimal.ofScaled (floor + 1) step)
  | true, true =>
    if 2 * rest < den ∨ (2 * rest = den ∧ floor % 2 = 0) then some (Decimal.ofScaled floor step)
    else some (Decimal.ofScaled (floor + 1) step)
  | false, false => none

/-- The shortest decimal that reads back as the number, which is not zero. -/
def shortest (x : Double) : Decimal :=
  let exponent := decimalExponent x.magnitude (1 <<< 1074)
  ((List.range' 1 17).findSome? (x.withDigits? exponent)).getD
    (Decimal.ofScaled (x.magnitude >>> 1074) 0)

/-- The text of a number; zero keeps its sign. -/
def text (x : Double) : String :=
  let digits := if x.isZero then ['0', '.', '0'] else x.shortest.text
  String.ofList (if x.negative then '-' :: digits else digits)

end Double

end LinkedDocs
