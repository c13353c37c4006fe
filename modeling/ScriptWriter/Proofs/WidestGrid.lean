import ScriptWriter.Proofs.ShortestDecimal

/-!
# The widest grid

The search for the shortest decimal goes through the grids `10 ^ j` from a wide one on. On each grid
it looks at the two points beside the number only. That is enough: the interval is convex and holds
the number, so if it holds any point of the grid it holds one of the two (`beside_of_contains`), and
no point of the grid in the interval is nearer than the nearer of them.

So the decimal that the search ends with lies on the widest grid that has a decimal of the number,
and is the nearest of those on its grid (`isWidest_shortest`).
-/

namespace ScriptWriter

/-! ## Multiples beside the number -/

namespace Interval

variable {i : Interval} {tie : Tie} {step : Nat}

theorem contains_of_between {a b n : Nat} (ha : i.contains a = true) (hb : i.contains b = true)
    (han : a ≤ n) (hnb : n ≤ b) : i.contains n = true := by
  unfold contains at *
  cases hclosed : i.closed <;> simp only [hclosed, if_true, Bool.false_eq_true, if_false,
    decide_eq_true_eq] at * <;> omega

theorem lt_above (mid : Nat) (hstep : 0 < step) : mid < mid / step * step + step := by
  have hmod := Nat.div_add_mod' mid step
  have hlt := Nat.mod_lt mid hstep
  omega

/-- A multiple in the interval lies behind one of the two beside the number, which is in the
interval as well. -/
theorem beside_of_contains (hmid : i.contains i.mid = true) (hstep : 0 < step) {k : Nat}
    (hk : i.contains (k * step) = true) :
    (k * step ≤ i.mid / step * step ∧ i.contains (i.mid / step * step) = true)
      ∨ (i.mid / step * step + step ≤ k * step
        ∧ i.contains (i.mid / step * step + step) = true) := by
  have hbelow := Nat.div_mul_le_self i.mid step
  have habove := lt_above i.mid hstep
  rcases Nat.lt_or_ge (i.mid / step) k with hlt | hle
  · have hbehind : (i.mid / step + 1) * step ≤ k * step := Nat.mul_le_mul_right step hlt
    rw [Nat.add_mul, Nat.one_mul] at hbehind
    exact Or.inr ⟨hbehind, contains_of_between hmid hk habove.le hbehind⟩
  · have hbehind : k * step ≤ i.mid / step * step := Nat.mul_le_mul_right step hle
    exact Or.inl ⟨hbehind, contains_of_between hk hmid hbehind hbelow⟩

theorem not_contains_of_nearestMultiple? (hmid : i.contains i.mid = true) (hstep : 0 < step)
    (h : i.nearestMultiple? tie step = none) (k : Nat) : ¬ i.contains (k * step) = true := by
  intro hk
  obtain ⟨-, hbelow, habove⟩ | ⟨hfound, -⟩ | ⟨hfound, -⟩ := nearestMultiple?_cases i tie step
  · rcases beside_of_contains hmid hstep hk with ⟨-, hb⟩ | ⟨-, ha⟩
    · rw [hb] at hbelow
      cases hbelow
    · rw [ha] at habove
      cases habove
  · rw [h] at hfound
    cases hfound
  · rw [h] at hfound
    cases hfound

/-- No multiple in the interval is nearer to the number. -/
theorem nearest_nearestMultiple? (hmid : i.contains i.mid = true) (hstep : 0 < step) {count : Nat}
    (h : i.nearestMultiple? tie step = some count) {k : Nat} (hk : i.contains (k * step) = true) :
    ((count * step : Nat) - i.mid : ℤ).natAbs ≤ ((k * step : Nat) - i.mid : ℤ).natAbs := by
  have hbelow := Nat.div_mul_le_self i.mid step
  have habove := lt_above i.mid hstep
  have hnext : (i.mid / step + 1) * step = i.mid / step * step + step := by
    rw [Nat.add_mul, Nat.one_mul]
  have hbeside := beside_of_contains hmid hstep hk
  obtain ⟨hfound, -⟩ | ⟨hfound, -, hnear⟩ | ⟨hfound, -, hnear⟩ :=
      nearestMultiple?_cases i tie step <;>
    rw [hfound] at h <;> cases h
  · rcases hbeside with ⟨hle, -⟩ | ⟨hge, ha⟩
    · omega
    · have := hnear ha
      omega
  · rcases hbeside with ⟨hle, hb⟩ | ⟨hge, -⟩
    · have := hnear hb
      omega
    · omega

/-- Of the grids from the given one on, the one that the search ends at is the widest with a point
in the interval, and the point is the nearest of that grid. -/
theorem widestGrid_spec (tie : Tie) (hmid : i.contains i.mid = true) (hfour : i.mid % 4 = 0) : ∀ j,
    (∀ j' k, (i.widestGrid tie j).2 < j' → j' ≤ j → ¬ i.contains (k * (4 * 10 ^ j')) = true)
      ∧ ∀ k, i.contains (k * (4 * 10 ^ (i.widestGrid tie j).2)) = true →
        (((i.widestGrid tie j).1 * (4 * 10 ^ (i.widestGrid tie j).2) : Nat) - i.mid : ℤ).natAbs
          ≤ ((k * (4 * 10 ^ (i.widestGrid tie j).2) : Nat) - i.mid : ℤ).natAbs
  | 0 => by
    have hcount : i.mid / 4 * (4 * 10 ^ 0) = i.mid := by omega
    simp only [widestGrid, hcount]
    exact ⟨by omega, fun k _ => by omega⟩
  | j + 1 => by
    have hstep : 0 < 4 * 10 ^ (j + 1) := Nat.mul_pos (by decide) (Nat.pow_pos (by decide))
    rw [widestGrid]
    split
    · rename_i count hcount
      exact ⟨by omega, fun k hk => nearest_nearestMultiple? hmid hstep hcount hk⟩
    · rename_i hnone
      obtain ⟨hwidest, hnearest⟩ := widestGrid_spec tie hmid hfour j
      refine ⟨fun j' k hlt hle => ?_, hnearest⟩
      rcases Nat.lt_or_ge j j' with hj | hj
      · obtain rfl : j' = j + 1 := by omega
        exact not_contains_of_nearestMultiple? hmid hstep hnone k
      · exact hwidest j' k hlt hj

end Interval

/-! ## The grid of the shortest decimal -/

/-- The number with the pattern covers the decimal. -/
def Decimal.CoveredBy (d : Decimal) (p : Nat) : Prop := Binary64.Covers p (d.toRat * 2 ^ 1074)

namespace Binary64

theorem lt_ten_pow_powerPast (n : Nat) : n < 10 ^ powerPast n := by
  have hconst : 2 ^ 93 ≤ 10 ^ 28 := by decide
  have hbits : (n.log2 + 1) * 28 ≤ 93 * powerPast n := by
    unfold powerPast
    omega
  have hpow : (2 ^ (n.log2 + 1)) ^ 28 ≤ (10 ^ powerPast n) ^ 28 :=
    calc (2 ^ (n.log2 + 1)) ^ 28 = 2 ^ ((n.log2 + 1) * 28) := (pow_mul 2 _ 28).symm
      _ ≤ 2 ^ (93 * powerPast n) := Nat.pow_le_pow_right (by decide) hbits
      _ = (2 ^ 93) ^ powerPast n := pow_mul 2 93 _
      _ ≤ (10 ^ 28) ^ powerPast n := Nat.pow_le_pow_left hconst _
      _ = (10 ^ powerPast n) ^ 28 := by rw [← pow_mul, ← pow_mul, Nat.mul_comm]
  calc n < 2 ^ (n.log2 + 1) := Nat.lt_log2_self
    _ ≤ 10 ^ powerPast n := (Nat.pow_le_pow_iff_left (by decide)).1 hpow

theorem coveredBy_iff_contains {x : Binary64} (h0 : x.magnitudeBits ≠ 0) (count place : Nat) :
    Decimal.CoveredBy ⟨count, (place : ℤ) - (1074 : Nat)⟩ x.magnitudeBits
      ↔ x.interval.contains (count * (4 * 10 ^ place)) = true := by
  rw [Decimal.CoveredBy, toRat_mul_two_pow, ← cast_quarters, ← contains_interval_iff h0]

theorem not_coveredBy_zero {p : Nat} (hp : p ≠ 0) (e : ℤ) : ¬ Decimal.CoveredBy ⟨0, e⟩ p := by
  intro h
  rw [Decimal.CoveredBy, Decimal.toRat, Nat.cast_zero, zero_mul, zero_mul] at h
  exact hp h.eq_zero

/-- No point past the interval is in it. -/
theorem not_contains_of_powerPast {x : Binary64} (h0 : x.magnitudeBits ≠ 0) {count place : Nat}
    (h : powerPast x.interval.high < place) :
    ¬ x.interval.contains (count * (4 * 10 ^ place)) = true := by
  intro hcontains
  have hpast := lt_ten_pow_powerPast x.interval.high
  have hgrid : 10 ^ powerPast x.interval.high ≤ 10 ^ place :=
    Nat.pow_le_pow_right (by decide) h.le
  rcases Nat.eq_zero_or_pos count with rfl | hpos
  · exact not_coveredBy_zero h0 _ ((coveredBy_iff_contains h0 0 place).2 hcontains)
  · have hcount : 4 * 10 ^ place ≤ count * (4 * 10 ^ place) := Nat.le_mul_of_pos_left _ hpos
    unfold Interval.contains at hcontains
    split at hcontains <;> rw [decide_eq_true_eq] at hcontains <;> omega

/-- The decimal is covered by the number and lies on the widest grid that has one, and no decimal on
this grid that is covered is nearer. -/
structure IsWidest (p : Nat) (d : Decimal) : Prop where
  covered : d.CoveredBy p
  widest : ∀ d' : Decimal, d'.CoveredBy p → d'.exponent ≤ d.exponent
  nearest : ∀ d' : Decimal, d'.CoveredBy p → d'.exponent = d.exponent →
    |d.toRat - magnitudeAt p| ≤ |d'.toRat - magnitudeAt p|

/-- How far a point of a grid is from the number. -/
theorem abs_toRat_sub_magnitudeAt (x : Binary64) (count place : Nat) :
    |Decimal.toRat ⟨count, (place : ℤ) - (1074 : Nat)⟩ - magnitudeAt x.magnitudeBits|
      = ((count * (4 * 10 ^ place) : Nat) - x.interval.mid : ℤ).natAbs / (quarters * 2 ^ 1074) := by
  have hscale : (0 : ℚ) < 2 ^ 1074 := pow_pos two_pos _
  have hquarters : (0 : ℚ) < quarters := Nat.cast_pos.2 quarters_pos
  have hpoint := toRat_mul_two_pow count place 1074
  have hmid : (x.interval.mid : ℚ) = unitsAt x.magnitudeBits * quarters := by
    exact_mod_cast interval_mid x
  rw [← cast_quarters] at hpoint
  rw [eq_div_of_mul_eq hscale.ne' hpoint, magnitudeAt, Nat.cast_natAbs, Int.cast_abs]
  generalize (2 : ℚ) ^ 1074 = scale at *
  push_cast
  rw [hmid, ← sub_div, abs_div, abs_of_pos hscale, ← div_div, ← abs_of_pos hquarters, ← abs_div,
    sub_div, abs_of_pos hquarters, mul_div_cancel_right₀ _ hquarters.ne']

theorem exponent_shortest (x : Binary64) (tie : Tie) : (x.shortest tie).exponent
    = (x.interval.widestGrid tie (powerPast x.interval.high)).2 - (1074 : Nat) := rfl

theorem isWidest_shortest {x : Binary64} (h0 : x.magnitudeBits ≠ 0) (tie : Tie) :
    IsWidest x.magnitudeBits (x.shortest tie) := by
  obtain ⟨hwidest, hnearest⟩ := Interval.widestGrid_spec tie (contains_mid h0)
    (mid_mod_four x) (powerPast x.interval.high)
  refine ⟨covers_shortest h0 tie, fun d' hd' => ?_, fun d' hd' he => ?_⟩
  · -- a wider grid is none of those the search went through, and past them all there is nothing
    by_contra hlt
    obtain ⟨count, e⟩ := d'
    rw [exponent_shortest] at hlt
    dsimp only at hlt
    obtain ⟨place, rfl⟩ : ∃ place : Nat, e = (place : ℤ) - (1074 : Nat) :=
      ⟨(e + 1074).toNat, by omega⟩
    rw [coveredBy_iff_contains h0] at hd'
    rcases Nat.lt_or_ge (powerPast x.interval.high) place with hpast | hle
    · exact not_contains_of_powerPast h0 hpast hd'
    · exact hwidest place count (by omega) hle hd'
  · obtain ⟨count, e⟩ := d'
    obtain rfl : e = (x.interval.widestGrid tie (powerPast x.interval.high)).2 - (1074 : Nat) := he
    rw [coveredBy_iff_contains h0] at hd'
    rw [shortest_eq, abs_toRat_sub_magnitudeAt, abs_toRat_sub_magnitudeAt]
    refine div_le_div_of_nonneg_right (Nat.cast_le.2 (hnearest count hd')) ?_
    exact mul_nonneg (Nat.cast_nonneg _) (pow_nonneg zero_le_two _)

end Binary64

end ScriptWriter
