/-!
# Decimals and their texts

A decimal is a whole number of digits and a power of ten. `positional` writes it with a point or
with zeros in place, `scientific` with one digit before the point and a signed exponent, and
`exponential` leaves out the plus there.
-/

namespace ScriptWriter

/-- The decimal text of a whole number. -/
def intText (n : Int) : String :=
  let digits := Nat.toDigits 10 n.natAbs
  String.ofList (if n < 0 then '-' :: digits else digits)

/-- The number `digits * 10 ^ exponent`. -/
structure Decimal where
  digits : Nat
  exponent : Int
deriving DecidableEq

namespace Decimal

/-- The digits as characters. -/
def numerals (d : Decimal) : List Char := Nat.toDigits 10 d.digits

/-- Where the point stands, counted from before the first digit. -/
def point (d : Decimal) : Int := d.numerals.length + d.exponent

/-- No digit stands after the point. -/
def isWhole (d : Decimal) : Bool := 0 ≤ d.exponent

/-- The text without an exponent, filled up with zeros to or from the point. -/
def positional (d : Decimal) : List Char :=
  if 0 ≤ d.exponent then
    d.numerals ++ List.replicate d.exponent.toNat '0'
  else if 0 < d.point then
    d.numerals.take d.point.toNat ++ '.' :: d.numerals.drop d.point.toNat
  else
    '0' :: '.' :: (List.replicate (-d.point).toNat '0' ++ d.numerals)

/-- One digit, and a point before the others if there are any. -/
def mantissa (d : Decimal) : List Char :=
  d.numerals.take 1 ++ match d.numerals.drop 1 with
    | [] => []
    | rest => '.' :: rest

/-- The mantissa and the exponent with its sign. -/
def scientific (d : Decimal) : List Char :=
  let shift := d.point - 1
  d.mantissa ++ 'e' :: (if shift < 0 then '-' else '+') :: Nat.toDigits 10 shift.natAbs

/-- The mantissa and the exponent as a whole number, so with a sign below zero only. -/
def exponential (d : Decimal) : List Char := d.mantissa ++ 'e' :: (intText (d.point - 1)).toList

end Decimal

end ScriptWriter
