import DepGraph.Decimal.Shortest

/-!
# Layouts of numbers

A layout says how the shortest decimal of a number is written down: which numbers are written with
an exponent, and whether a whole number shows its first place. `plain` is the layout of tables and
`document` the layout of JSON.
-/

namespace DepGraph.Decimal

/-- How numbers are written. -/
structure Layout where
  /-- Which of two shortest decimals is taken. -/
  tie : Tie
  /-- Numbers below `10 ^ low`, and from `10 ^ high` on, are written with an exponent. -/
  positional : Option (Int × Int)
  /-- Does a whole number end in `.0`? -/
  showsPlace : Bool
  /-- What stands for infinity, and for what is no number. -/
  infinity : Bool → String
  nan : String

/-- The layout of tables: no exponents, and whole numbers without places. -/
def Layout.plain : Layout where
  tie := .larger
  positional := none
  showsPlace := false
  infinity negative := if negative then "-inf" else "inf"
  nan := "NaN"

/-- The layout of JSON, which has no infinite numbers. -/
def Layout.document : Layout where
  tie := .even
  positional := some (-5, 16)
  showsPlace := true
  infinity _ := "null"
  nan := "null"

/-- A decimal without an exponent. -/
def positionalText (layout : Layout) (s : Scientific) : String :=
  let digits := Nat.toDigits 10 s.digits
  if 0 ≤ s.exponent then
    String.ofList (digits ++ List.replicate s.exponent.toNat '0') ++
      (if layout.showsPlace then ".0" else "")
  else
    let places := (-s.exponent).toNat
    let digits := List.replicate (places + 1 - digits.length) '0' ++ digits
    String.ofList (digits.take (digits.length - places)) ++ "." ++
      String.ofList (digits.drop (digits.length - places))

/-- A decimal with an exponent: one digit before the point and a sign in the exponent. -/
def exponentText (s : Scientific) : String :=
  let digits := Nat.toDigits 10 s.digits
  let exponent := s.exponent + digits.length - 1
  let places := digits.drop 1
  String.ofList (digits.take 1) ++ (if places.isEmpty then "" else "." ++ String.ofList places) ++
    "e" ++ (if exponent < 0 then "-" else "+") ++ toString exponent.natAbs

/-- The number with the given bits, written down. -/
def Layout.write (layout : Layout) (bits : Nat) : String :=
  match unpack bits with
  | .nan => layout.nan
  | .infinite negative => layout.infinity negative
  | .finite negative significand exponent narrow =>
    let s := shortest layout.tie significand exponent narrow
    let magnitude := s.exponent + digitCount s.digits
    let text :=
      match layout.positional with
      | some (low, high) =>
        if s.digits != 0 && (magnitude ≤ low || high < magnitude) then exponentText s
        else positionalText layout s
      | none => positionalText layout s
    (if negative then "-" else "") ++ text

/-- A number in the layout of tables. -/
def plain (x : Float) : String :=
  Layout.plain.write x.toBits.toNat

/-- A number in the layout of JSON. -/
def document (x : Float) : String :=
  Layout.document.write x.toBits.toNat

/-! ## Fixed places -/

/-- The quotient rounded to the nearest natural number; a half goes to the even neighbour. -/
def roundHalfEven (numerator denominator : Nat) : Nat :=
  let floor := numerator / denominator
  let rest := 2 * (numerator % denominator)
  if rest > denominator || (rest == denominator && floor % 2 == 1) then floor + 1 else floor

/-- The number with the given bits and so many places after the point. -/
def fixedOfBits (places bits : Nat) : String :=
  match unpack bits with
  | .nan => "NaN"
  | .infinite negative => if negative then "-inf" else "inf"
  | .finite negative significand exponent _ =>
    let x := Fraction.power (significand * Nat.pow 10 places) 2 exponent
    let s : Scientific := ⟨roundHalfEven x.numerator x.denominator, -(places : Int)⟩
    (if negative then "-" else "") ++ positionalText Layout.plain s

/-- A number with so many places after the point. -/
def fixed (places : Nat) (x : Float) : String :=
  fixedOfBits places x.toBits.toNat

/-! ## Bits -/

/-- The sixteen hexadecimal digits of the bits of a number. -/
def bitsText (x : Float) : String :=
  let digits := Nat.toDigits 16 x.toBits.toNat
  String.ofList (List.replicate (16 - digits.length) '0' ++ digits)

end DepGraph.Decimal
