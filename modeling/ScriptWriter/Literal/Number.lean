import ScriptWriter.Binary64.Rounding
import ScriptWriter.Decimal.Shortest

/-!
# Number literals

An integer is written in decimal. A binary64 number is written with the fewest digits that read
back, positionally from `1e-6` up to `1e21` and with an exponent outside; NaN and the infinities
are written by name.
-/

namespace ScriptWriter.Literal

def int (n : Int64) : String := intText n.toInt

/-- The least magnitude written positionally. -/
def leastPositional : Binary64 := .ofDecimal false 1 (-6)

/-- The least magnitude past it that is written with an exponent again. -/
def pastPositional : Binary64 := .ofDecimal false 1 21

def isPositional (x : Binary64) : Bool :=
  leastPositional.magnitudeBits ≤ x.magnitudeBits ∧ x.magnitudeBits < pastPositional.magnitudeBits

/-- The text before and after the first mark of an exponent. -/
def splitExponent? (text : List Char) : Option (List Char × List Char) :=
  match text.dropWhile (· ≠ 'e') with
  | [] => none
  | _ :: shift => some (text.takeWhile (· ≠ 'e'), shift)

/-- An exponent with a plus where it has no sign. -/
def signedShift : List Char → List Char
  | '-' :: digits => '-' :: digits
  | digits => '+' :: digits

/-- The text with a sign in its exponent, or as it is if it has none. -/
def withSignedExponent (text : List Char) : List Char :=
  match splitExponent? text with
  | some (mantissa, shift) => mantissa ++ 'e' :: signedShift shift
  | none => text

/-- The literal of a number's magnitude; of two equally near digits the larger is written. -/
def magnitude (x : Binary64) : String :=
  if x.isInfinite then "Infinity"
  else if x.isZero then "0"
  else
    let decimal := x.shortest .away
    String.ofList
      (if isPositional x then decimal.positional else withSignedExponent decimal.exponential)

def float (x : Binary64) : String :=
  if x.isNaN then "NaN"
  else if x.isNegative then "-" ++ magnitude x
  else magnitude x

end ScriptWriter.Literal
