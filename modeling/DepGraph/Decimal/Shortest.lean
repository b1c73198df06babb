import DepGraph.Decimal.Binary

/-!
# The shortest decimals of binary numbers

Of the decimals that are nearer to a binary number than to its neighbours, the shortest have the
fewest digits, and of those the nearest one is taken. For each count of digits it is enough to look
at the two decimals next to the number: if any decimal of that count is near enough, so is one of
them.
-/

namespace DepGraph.Decimal

/-- The decimal `digits * 10 ^ exponent`. -/
structure Scientific where
  digits : Nat
  exponent : Int
  deriving Repr, DecidableEq

/-- Which of two decimals at the same distance is taken. -/
inductive Tie where
  | larger
  | even
  deriving Repr, DecidableEq

/-! ## Fractions -/

/-- `numerator / denominator`, where the denominator is not zero. -/
structure Fraction where
  numerator : Nat
  denominator : Nat

/-- `n * base ^ exponent`. -/
def Fraction.power (n base : Nat) (exponent : Int) : Fraction :=
  if 0 ≤ exponent then ⟨n * base.pow exponent.toNat, 1⟩ else ⟨n, base.pow (-exponent).toNat⟩

/-- Is the first fraction at most the second? -/
def Fraction.le (a b : Fraction) : Bool :=
  a.numerator * b.denominator ≤ b.numerator * a.denominator

/-- Is the first fraction smaller than the second? -/
def Fraction.lt (a b : Fraction) : Bool :=
  a.numerator * b.denominator < b.numerator * a.denominator

/-! ## The interval of a number -/

/-- What is nearer to `significand * 2 ^ exponent` than to its neighbours. The ends, which are as
near to a neighbour, belong to it when the significand is even. -/
structure Interval where
  low : Fraction
  high : Fraction
  closed : Bool

/-- The interval of a number. -/
def intervalOf (significand : Nat) (exponent : Int) (narrow : Bool) : Interval where
  low := .power (4 * significand - (if narrow then 1 else 2)) 2 (exponent - 2)
  high := .power (4 * significand + 2) 2 (exponent - 2)
  closed := significand % 2 == 0

/-- Is the fraction in the interval? -/
def Interval.contains (i : Interval) (x : Fraction) : Bool :=
  if i.closed then i.low.le x && x.le i.high else i.low.lt x && x.lt i.high

/-! ## The search -/

/-- The number of decimal digits. -/
def digitCount (n : Nat) : Nat :=
  (Nat.toDigits 10 n).length

/-- The exponent `e` with `10 ^ (e - 1) ≤ x < 10 ^ e`, for a fraction above zero. -/
def magnitude (x : Fraction) : Int :=
  let e : Int := (digitCount x.numerator : Int) - digitCount x.denominator
  if (Fraction.power 1 10 e).le x then e + 1 else e

/-- The decimal with the given exponent that is nearest to `x` among those in the interval. -/
def nearest? (tie : Tie) (i : Interval) (x : Fraction) (exponent : Int) : Option Scientific :=
  let unit := Fraction.power 1 10 exponent
  let floor := x.numerator * unit.denominator / (x.denominator * unit.numerator)
  let below := i.contains (.power floor 10 exponent)
  let above := i.contains (.power (floor + 1) 10 exponent)
  -- the half between the two decides which is nearer
  let half : Fraction := ⟨(2 * floor + 1) * unit.numerator, 2 * unit.denominator⟩
  let takeAbove :=
    above && (!below || half.lt x || (half.le x && (tie == .larger || floor % 2 == 1)))
  if takeAbove then some ⟨floor + 1, exponent⟩
  else if below then some ⟨floor, exponent⟩
  else none

/-- Tries counts of digits from the smallest on. -/
def searchFrom (tie : Tie) (i : Interval) (x : Fraction) (magnitude : Int) :
    Nat → Nat → Option Scientific
  | 0, _ => none
  | fuel + 1, count =>
    match nearest? tie i x (magnitude - count) with
    | some s => some s
    | none => searchFrom tie i x magnitude fuel (count + 1)

/-- The decimal without zeros at its end. -/
def dropZeros : Nat → Scientific → Scientific
  | 0, s => s
  | fuel + 1, s =>
    if s.digits != 0 && s.digits % 10 == 0 then dropZeros fuel ⟨s.digits / 10, s.exponent + 1⟩
    else s

/-- The shortest decimal of a number. Seventeen digits tell all numbers of double precision
apart. -/
def shortest (tie : Tie) (significand : Nat) (exponent : Int) (narrow : Bool) : Scientific :=
  if significand == 0 then ⟨0, 0⟩
  else
    let x := Fraction.power significand 2 exponent
    let i := intervalOf significand exponent narrow
    dropZeros 20 ((searchFrom tie i x (magnitude x) 17 1).getD ⟨0, 0⟩)

end DepGraph.Decimal
