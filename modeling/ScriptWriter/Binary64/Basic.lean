/-!
# Binary64 numbers

A binary64 number is its bit pattern. The magnitude of a finite one is a whole number of units
`2 ^ -1074`, the least positive number, so the order and the distance of finite numbers are facts
about natural numbers.
-/

namespace ScriptWriter

/-- A binary64 number, given by its bit pattern with the sign first. -/
structure Binary64 where
  bits : UInt64
deriving DecidableEq

namespace Binary64

/-- The bit of the sign, `2 ^ 63`. -/
def signBit : Nat := 0x8000000000000000

/-- The fractions that share an exponent, `2 ^ 52` of them. -/
def fractions : Nat := 0x10000000000000

/-- The pattern of infinity: every larger one without a sign is a NaN. -/
def infinityBits : Nat := 0x7FF0000000000000

/-- The bit pattern without its sign. It grows with the magnitude. -/
def magnitudeBits (x : Binary64) : Nat := x.bits.toNat % signBit

def isNegative (x : Binary64) : Bool := signBit ≤ x.bits.toNat

/-- The number with the given sign and the given pattern below it. -/
def ofMagnitude (negative : Bool) (pattern : Nat) : Binary64 :=
  ⟨UInt64.ofNat (if negative then signBit + pattern else pattern)⟩

def isNaN (x : Binary64) : Bool := infinityBits < x.magnitudeBits

def isInfinite (x : Binary64) : Bool := x.magnitudeBits = infinityBits

def isFinite (x : Binary64) : Bool := x.magnitudeBits < infinityBits

def isZero (x : Binary64) : Bool := x.magnitudeBits = 0

def nan : Binary64 := ofMagnitude false 0x7FF8000000000000

/-- The power of two, in units, that one step of the significand is worth. -/
def exponent (x : Binary64) : Nat := x.magnitudeBits / fractions - 1

/-- The significand: from `2 ^ 52` up to `2 ^ 53`, or below it where the exponent is zero. -/
def significand (x : Binary64) : Nat := x.magnitudeBits - x.exponent * fractions

/-- The magnitude of a finite number in units of `2 ^ -1074`. -/
def units (x : Binary64) : Nat := x.significand <<< x.exponent

/-- Equality of numbers: a NaN equals nothing and the two zeros are equal. -/
def sameNumber (x y : Binary64) : Bool :=
  !x.isNaN && !y.isNaN && (x.bits == y.bits || (x.isZero && y.isZero))

end Binary64

end ScriptWriter
