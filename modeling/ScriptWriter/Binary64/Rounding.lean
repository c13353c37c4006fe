import ScriptWriter.Binary64.Basic

/-!
# Rounding to binary64

`nearestBits` rounds a quotient of units to the nearest number, a tie to the even significand.
Whole numbers and decimals reach binary64 through it.
-/

namespace ScriptWriter

/-- The whole number nearest `num / den`, a half to the even one. -/
def roundHalfEven (num den : Nat) : Nat :=
  let quotient := num / den
  let rest := 2 * (num % den)
  if rest < den ∨ rest = den ∧ quotient % 2 = 0 then quotient else quotient + 1

namespace Binary64

/-- The pattern of the number nearest `num / den` units, infinity past the largest one. A
significand that rounds up to `2 ^ 53` carries into the exponent by itself. -/
def nearestBits (num den : Nat) : Nat :=
  let exponent := (num / den).log2 - 52
  let pattern := exponent * fractions + roundHalfEven num (den <<< exponent)
  if pattern < infinityBits then pattern else infinityBits

/-- The number nearest a whole number. -/
def ofInt (n : Int) : Binary64 := ofMagnitude (n < 0) (nearestBits (n.natAbs <<< 1074) 1)

/-- The number nearest `digits * 10 ^ exponent`. From `10 ^ 310` on that is infinity and below
`10 ^ -325` zero, whatever the digits, so no power of ten grows past the digits given. -/
def ofDecimal (negative : Bool) (digits : Nat) (exponent : Int) : Binary64 :=
  let pattern :=
    if digits = 0 then 0
    else if 309 < exponent then infinityBits
    else if exponent + digits.log2 + 1 < -324 then 0
    else nearestBits ((digits * Nat.pow 10 exponent.toNat) <<< 1074) (Nat.pow 10 (-exponent).toNat)
  ofMagnitude negative pattern

end Binary64

end ScriptWriter
