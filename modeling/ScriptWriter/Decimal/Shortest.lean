import ScriptWriter.Binary64.Basic
import ScriptWriter.Decimal.Basic

/-!
# The shortest decimal of a binary64 number

The decimals that round to one number fill an interval around it. Scaled by `4 * 10 ^ 1074` its
ends and the number itself are natural numbers. The search goes through the grids `10 ^ j` from
the widest on; the first grid with a point in the interval gives the fewest digits, and of its
points the nearest is one of the two beside the number. On the finest grid the number is a point
itself, so the search always ends with one.
-/

namespace ScriptWriter

/-- Which of two decimals equally near the number is taken. -/
inductive Tie where
  /-- The one of larger magnitude. -/
  | away
  /-- The one with the even last digit. -/
  | even

/-- A number `mid` and the range around it that rounds to it, its ends included if `closed`. -/
structure Interval where
  low : Nat
  mid : Nat
  high : Nat
  closed : Bool

namespace Interval

def contains (i : Interval) (n : Nat) : Bool :=
  if i.closed then i.low ≤ n ∧ n ≤ i.high else i.low < n ∧ n < i.high

/-- The multiple of `step` in the interval that is nearest to `mid`, as a count of steps. -/
def nearestMultiple? (i : Interval) (tie : Tie) (step : Nat) : Option Nat :=
  let count := i.mid / step
  let below := count * step
  let above := below + step
  match i.contains below, i.contains above with
  | false, false => none
  | true, false => some count
  | false, true => some (count + 1)
  | true, true =>
    if i.mid - below < above - i.mid then some count
    else if above - i.mid < i.mid - below then some (count + 1)
    else match tie with
      | .away => some (count + 1)
      | .even => some (if count % 2 = 0 then count else count + 1)

/-- The point of the widest grid `10 ^ j` that has one in the interval, for `j` from the given
one down. Ends and grid are in quarters, so the last grid holds `mid` itself. -/
def widestGrid (i : Interval) (tie : Tie) : Nat → Nat × Nat
  | 0 => (i.mid / 4, 0)
  | j + 1 =>
    match i.nearestMultiple? tie (4 * Nat.pow 10 (j + 1)) with
    | some count => (count, j + 1)
    | none => i.widestGrid tie j

end Interval

namespace Binary64

/-- The decimals that round to a finite number other than zero, in quarters of `10 ^ -1074`. An
even significand takes the ties on both sides; at a power of two the gap below is half as wide. -/
def interval (x : Binary64) : Interval :=
  let scale := Nat.pow 5 1074 <<< x.exponent
  let gap := if x.significand = fractions ∧ 0 < x.exponent then 1 else 2
  { low := (4 * x.significand - gap) * scale
    mid := 4 * x.significand * scale
    high := (4 * x.significand + 2) * scale
    closed := x.significand % 2 = 0 }

/-- A power of ten past `n`, from `2 ^ 93 < 10 ^ 28`. -/
def powerPast (n : Nat) : Nat := (n.log2 + 1) * 28 / 93 + 1

/-- The decimal with the fewest digits that rounds to `x`, and the nearest of those. No grid wider
than the numbers of the interval has a point in it. -/
def shortest (tie : Tie) (x : Binary64) : Decimal :=
  let interval := x.interval
  let grid := interval.widestGrid tie (powerPast interval.high)
  { digits := grid.1, exponent := grid.2 - 1074 }

end Binary64

end ScriptWriter
