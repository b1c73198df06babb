/-!
# Reading numbers

A number is a sign, digits with a point anywhere among them, and an exponent; only some digit has to
be there. The words for infinity and for what is no number may be written in any case.
-/

namespace DepGraph.Decimal

/-- The value of decimal digits. -/
def digitsValue (digits : List Char) : Nat :=
  digits.foldl (fun value c => 10 * value + (c.toNat - '0'.toNat)) 0

/-- A text with an optional sign, and whether it is negative. -/
def splitSign : List Char → Bool × List Char
  | '-' :: rest => (true, rest)
  | '+' :: rest => (false, rest)
  | text => (false, text)

/-- The exponent at the end of a number, which has at least one digit. -/
def readExponent? : List Char → Option Int
  | [] => some 0
  | e :: rest =>
    let (negative, digits) := splitSign rest
    if (e == 'e' || e == 'E') && !digits.isEmpty && digits.all Char.isDigit then
      let value : Int := digitsValue digits
      some (if negative then -value else value)
    else none

/-- The number `digits * 10 ^ exponent`, rounded to double precision. An exponent far out of range
does not have to be computed with. -/
def ofDigits (digits : List Char) (exponent : Int) : Float :=
  let value := digitsValue digits
  let magnitude := exponent + (Nat.toDigits 10 value).length
  if value == 0 || magnitude < -400 then 0.0
  else if 400 < magnitude then 1.0 / 0.0
  else Float.ofScientific value (exponent < 0) exponent.natAbs

/-- Reads a number without its sign. -/
def readUnsigned? (text : List Char) : Option Float :=
  let lower := String.ofList (text.map Char.toLower)
  if lower == "inf" || lower == "infinity" then some (1.0 / 0.0)
  else if lower == "nan" then some (0.0 / 0.0)
  else
    let whole := text.takeWhile Char.isDigit
    let rest := text.dropWhile Char.isDigit
    let (places, rest) := match rest with
      | '.' :: rest => (rest.takeWhile Char.isDigit, rest.dropWhile Char.isDigit)
      | rest => ([], rest)
    if whole.isEmpty && places.isEmpty then none
    else (readExponent? rest).map fun e => ofDigits (whole ++ places) (e - places.length)

/-- Reads a number. -/
def read? (text : String) : Option Float :=
  let (negative, rest) := splitSign text.toList
  (readUnsigned? rest).map fun x => if negative then -x else x

end DepGraph.Decimal
