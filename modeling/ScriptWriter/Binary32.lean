import ScriptWriter.Binary64.Rounding

/-!
# Binary32 numbers

A binary32 number is its bit pattern, and it is also a binary64 number.
-/

namespace ScriptWriter

/-- A binary32 number, given by its bit pattern with the sign first. -/
structure Binary32 where
  bits : UInt32
deriving DecidableEq

namespace Binary32

/-- The bit of the sign, `2 ^ 31`. -/
def signBit : Nat := 0x80000000

/-- The fractions that share an exponent, `2 ^ 23` of them. -/
def fractions : Nat := 0x800000

/-- The pattern of infinity: every larger one without a sign is a NaN. -/
def infinityBits : Nat := 0x7F800000

def magnitudeBits (x : Binary32) : Nat := x.bits.toNat % signBit

def isNegative (x : Binary32) : Bool := signBit ≤ x.bits.toNat

def exponent (x : Binary32) : Nat := x.magnitudeBits / fractions - 1

def significand (x : Binary32) : Nat := x.magnitudeBits - x.exponent * fractions

/-- The magnitude of a finite number in units of `2 ^ -149`. -/
def units (x : Binary32) : Nat := x.significand <<< x.exponent

/-- The same number in binary64, whose units are `2 ^ 925` times smaller. -/
def toBinary64 (x : Binary32) : Binary64 :=
  if infinityBits < x.magnitudeBits then .nan
  else if x.magnitudeBits = infinityBits then .ofMagnitude x.isNegative Binary64.infinityBits
  else .ofMagnitude x.isNegative (Binary64.nearestBits (x.units <<< 925) 1)

end Binary32

end ScriptWriter
