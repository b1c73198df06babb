/-!
# Binary floating point numbers

A finite number of double precision is a natural number times a power of two. `unpack` reads the two
from the bits of the number.

* `unpack_zero`: zero has significand zero.
-/

namespace DepGraph.Decimal

/-- A number of double precision: `significand * 2 ^ exponent` with a sign, or no such number.
`narrow` says that the next smaller number is only half as far away as the next larger one. -/
inductive Binary where
  | finite (negative : Bool) (significand : Nat) (exponent : Int) (narrow : Bool)
  | infinite (negative : Bool)
  | nan
  deriving Repr, DecidableEq

/-- Reads the sign, the exponent and the significand from the 64 bits of a number. -/
def unpack (bits : Nat) : Binary :=
  let negative := (bits >>> 63) % 2 == 1
  let exponent : Nat := (bits >>> 52) % 2048
  let fraction : Nat := bits % (1 <<< 52)
  if exponent == 2047 then
    if fraction == 0 then .infinite negative else .nan
  else if exponent == 0 then .finite negative fraction (-1074) false
  else
    .finite negative ((1 <<< 52) + fraction) ((exponent : Int) - 1075) (fraction == 0 && exponent > 1)

theorem unpack_zero : unpack 0 = .finite false 0 (-1074) false := by decide

end DepGraph.Decimal
