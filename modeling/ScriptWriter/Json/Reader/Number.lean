import ScriptWriter.Json.Reader.Basic

/-!
# Reading numbers

A numeral is read as it is written and then taken for a number: an integer where it is written as
one and fits, the nearest binary64 number otherwise.
-/

namespace ScriptWriter.Json.Reader

/-- A number as it is written. -/
structure Numeral where
  negative : Bool
  /-- The digits before the point. -/
  whole : List Char
  /-- The digits after the point, if there is one. -/
  fraction : Option (List Char)
  /-- The exponent, if there is one: whether it is negative, and its digits. -/
  exponent : Option (Bool × List Char)

namespace Numeral

/-- The natural number that digits stand for. -/
def value (digits : List Char) : Nat := Nat.ofDigitChars 10 digits 0

/-- The binary64 number nearest a numeral. That reading rounds correctly is an assumption about the
reader: one that is built without its `float_roundtrip` feature may give a neighbour instead. -/
def toBinary64 (n : Numeral) : Binary64 :=
  let fraction := n.fraction.getD []
  let shift : Int := match n.exponent with
    | none => 0
    | some (true, digits) => -value digits
    | some (false, digits) => value digits
  .ofDecimal n.negative (value (n.whole ++ fraction)) (shift - fraction.length)

/-- Neither a point nor an exponent is written. -/
def isInteger (n : Numeral) : Bool := n.fraction.isNone && n.exponent.isNone

/-- The number a numeral stands for: an integer if it is written as one and fits, except that
minus zero is a binary64 number. None is out of the range of binary64. -/
def toNumber? (n : Numeral) : Option Number :=
  let integer := value n.whole
  if n.isInteger ∧ n.negative = false ∧ integer < UInt64.size then
    some (.natural (UInt64.ofNat integer))
  else if n.isInteger ∧ n.negative ∧ 0 < integer ∧ integer ≤ 0x8000000000000000 then
    some (.negative (Int64.ofInt (-integer)))
  else if n.toBinary64.isFinite then some (.float n.toBinary64)
  else none

end Numeral

/-- A run of digits, at least one; `cut` says what it means that the text ends before it. -/
def digits (cut : ReadError) : Reader (List Char) := fun cs =>
  match cs.takeWhile Char.isDigit, cs.dropWhile Char.isDigit with
  | [], [] => .error cut
  | [], _ => .error .malformed
  | ds, rest => .ok (ds, rest)

/-- The digits before the point: a zero stands alone. -/
def whole (cut : ReadError) : Reader (List Char) := do
  match ← digits cut with
  | '0' :: _ :: _ => throw .malformed
  | ds => pure ds

/-- Takes off the character if it is next. -/
def accept (p : Char → Bool) : Reader (Option Char) := fun cs =>
  match cs with
  | c :: rest => if p c then .ok (some c, rest) else .ok (none, cs)
  | [] => .ok (none, [])

def fraction (cut : ReadError) : Reader (Option (List Char)) := do
  match ← accept (· = '.') with
  | some _ => some <$> digits cut
  | none => pure none

def exponent (cut : ReadError) : Reader (Option (Bool × List Char)) := do
  match ← accept (fun c => c = 'e' ∨ c = 'E') with
  | some _ => do
    let sign ← accept (fun c => c = '+' ∨ c = '-')
    let ds ← digits cut
    pure (some (sign = some '-', ds))
  | none => pure none

def numeral (cut : ReadError) : Reader Numeral := do
  let sign ← accept (· = '-')
  pure { negative := sign.isSome
         whole := ← whole cut
         fraction := ← fraction cut
         exponent := ← exponent cut }

def number : Reader Number := do
  match (← numeral .unexpectedEnd).toNumber? with
  | some n => pure n
  | none => throw .malformed

end ScriptWriter.Json.Reader
