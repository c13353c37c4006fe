import ScriptWriter.Proofs.LiteralReading
import ScriptWriter.Proofs.RoundsTo
import ScriptWriter.Proofs.WidestGrid

/-!
# The fewest digits

The text of a finite number is the decimal with the fewest significant digits that rounds to it, and
of these the closest (`isShortest_numeralOf`). The search for it looks for the widest grid instead,
which is nearly the same: a decimal on a finer grid with no more digits is below the leading power
of ten, so that this power is covered too, and then it is on the widest grid already. A decimal with
one digit below it may be left, such as nine tenths of the power, and there the power is the closer
one. For this the gap after a number has to be small beside the number. That fails among the first
few units only, where there is a single power of ten to look at (`first_power_bounds`).

Since a number is read back from its text, two texts are the same only for the same bits, and for
NaNs (`float_eq_iff`).
-/

namespace ScriptWriter

namespace Decimal

/-! ## Powers of ten -/

theorem toRat_nonneg (d : Decimal) : 0 ≤ d.toRat :=
  mul_nonneg (Nat.cast_nonneg _) (zpow_nonneg (by norm_num) _)

theorem toRat_one (e : ℤ) : toRat ⟨1, e⟩ = 10 ^ e := by
  rw [toRat, Nat.cast_one, one_mul]

/-- Fewer digits on a grid that is no wider stay below the power of ten. -/
theorem toRat_lt_ten_zpow {d : Decimal} {n : Nat} {e : ℤ} (hdigits : d.digits < 10 ^ n)
    (he : n + d.exponent ≤ e) : d.toRat < 10 ^ e := by
  have hcast : (d.digits : ℚ) < 10 ^ (n : ℤ) := by
    rw [zpow_natCast]
    exact_mod_cast hdigits
  calc d.toRat < 10 ^ (n : ℤ) * 10 ^ d.exponent :=
        mul_lt_mul_of_pos_right hcast (zpow_pos (by norm_num) _)
    _ = 10 ^ (n + d.exponent) := (zpow_add₀ (by norm_num) _ _).symm
    _ ≤ 10 ^ e := zpow_le_zpow_right₀ (by norm_num) he

theorem ten_zpow_le_toRat {d : Decimal} {n : Nat} (hdigits : 10 ^ n ≤ d.digits) :
    (10 : ℚ) ^ (n + d.exponent) ≤ d.toRat := by
  have hcast : (10 : ℚ) ^ (n : ℤ) ≤ d.digits := by
    rw [zpow_natCast]
    exact_mod_cast hdigits
  rw [zpow_add₀ (by norm_num)]
  exact mul_le_mul_of_nonneg_right hcast (zpow_nonneg (by norm_num) _)

/-! ## Significant digits -/

/-- The digits but the zeros at the end, which only move the point. -/
def significantDigits (d : Decimal) : Nat := ((Nat.digits 10 d.digits).dropWhile (· == 0)).length

theorem significantDigits_le (d : Decimal) :
    d.significantDigits ≤ (Nat.digits 10 d.digits).length :=
  (List.dropWhile_sublist _).length_le

theorem significantDigits_of_mod {d : Decimal} (h : d.digits % 10 ≠ 0) :
    d.significantDigits = (Nat.digits 10 d.digits).length := by
  have hpos : 0 < d.digits := by omega
  rw [significantDigits, Nat.digits_def' (by decide) hpos, List.dropWhile_cons,
    if_neg (by simpa using h)]

theorem significantDigits_mul (m k : Nat) (e e' : ℤ) :
    significantDigits ⟨10 ^ k * m, e⟩ = significantDigits ⟨m, e'⟩ := by
  rcases Nat.eq_zero_or_pos m with rfl | hpos
  · rfl
  · rw [significantDigits, significantDigits, Nat.digits_base_pow_mul (by decide) hpos,
      List.dropWhile_append_of_pos (by simp)]

theorem toRat_mul (m k : Nat) (e : ℤ) : toRat ⟨10 ^ k * m, e⟩ = toRat ⟨m, k + e⟩ := by
  rw [toRat, toRat, zpow_add₀ (by norm_num), zpow_natCast]
  push_cast
  ring

/-- How many digits are significant depends on the number only. -/
theorem significantDigits_eq {d d' : Decimal} (h : d.toRat = d'.toRat) :
    d.significantDigits = d'.significantDigits := by
  wlog hle : d.exponent ≤ d'.exponent
  · exact (this h.symm (by omega)).symm
  obtain ⟨m, e⟩ := d
  obtain ⟨m', e'⟩ := d'
  obtain ⟨k, rfl⟩ : ∃ k : Nat, e' = k + e := ⟨(e' - e).toNat, by dsimp only at hle; omega⟩
  rw [← toRat_mul, toRat, toRat, mul_left_inj' (zpow_pos (by norm_num) e).ne'] at h
  obtain rfl : m = 10 ^ k * m' := by exact_mod_cast h
  exact significantDigits_mul m' k e _

/-- The same number with significant digits only. -/
theorem exists_reduced (d : Decimal) : ∃ d' : Decimal, d'.toRat = d.toRat
    ∧ (Nat.digits 10 d'.digits).length = d.significantDigits := by
  obtain ⟨m, e⟩ := d
  rcases eq_or_ne m 0 with rfl | hne
  · exact ⟨_, rfl, rfl⟩
  · obtain ⟨k, m, hm, rfl⟩ := Nat.exists_eq_pow_mul_and_not_dvd hne 10 (by decide)
    refine ⟨⟨m, k + e⟩, (toRat_mul m k e).symm, ?_⟩
    rw [significantDigits_mul m k e (k + e), significantDigits_of_mod]
    exact fun h0 => hm (Nat.dvd_of_mod_eq_zero h0)

end Decimal

namespace Binary64

/-! ## Decimals between covered ones -/

theorem Covers.of_between {p : Nat} {a b q : ℚ} (ha : Covers p a) (hb : Covers p b) (haq : a ≤ q)
    (hqb : q ≤ b) : Covers p q where
  low := by linarith [ha.low]
  high := by linarith [hb.high]
  odd h := ⟨by linarith [(ha.odd h).1], by linarith [(hb.odd h).2]⟩

theorem coveredBy_of_between {p : Nat} {a b d : Decimal} (ha : a.CoveredBy p) (hb : b.CoveredBy p)
    (had : a.toRat ≤ d.toRat) (hdb : d.toRat ≤ b.toRat) : d.CoveredBy p := by
  have hscale : (0 : ℚ) ≤ 2 ^ 1074 := pow_nonneg zero_le_two _
  exact Covers.of_between ha hb (mul_le_mul_of_nonneg_right had hscale)
    (mul_le_mul_of_nonneg_right hdb hscale)

namespace IsWidest

variable {p : Nat} {d d' : Decimal}

/-- A covered decimal below the leading power of ten has that power covered as well, so the power is
on the grid of the decimal, which has one digit. -/
theorem covered_leading (h : IsWidest p d) (hd' : d'.CoveredBy p) {n : Nat}
    (hleading : 10 ^ n ≤ d.digits) (hle : d'.toRat ≤ 10 ^ (n + d.exponent)) :
    n = 0 ∧ Decimal.CoveredBy ⟨1, d.exponent⟩ p := by
  have hpower : Decimal.CoveredBy ⟨1, n + d.exponent⟩ p :=
    coveredBy_of_between hd' h.covered (by rwa [Decimal.toRat_one])
      (by rw [Decimal.toRat_one]; exact Decimal.ten_zpow_le_toRat hleading)
  have hexponent : n + d.exponent ≤ d.exponent := h.widest _ hpower
  obtain rfl : n = 0 := by omega
  rw [Nat.cast_zero, zero_add] at hpower
  exact ⟨rfl, hpower⟩

theorem digits_ne_zero (h : IsWidest p d) (hp : p ≠ 0) : d.digits ≠ 0 := by
  obtain ⟨digits, e⟩ := d
  rintro rfl
  exact not_coveredBy_zero hp e h.covered

theorem exists_length (h : IsWidest p d) (hp : p ≠ 0) :
    ∃ n, (Nat.digits 10 d.digits).length = n + 1 ∧ 10 ^ n ≤ d.digits := by
  have hne := h.digits_ne_zero hp
  have hpos : 0 < (Nat.digits 10 d.digits).length :=
    List.length_pos_of_ne_nil (Nat.digits_ne_nil_iff_ne_zero.2 hne)
  refine ⟨(Nat.digits 10 d.digits).length - 1, by omega, ?_⟩
  exact (Nat.lt_digits_length_iff (by decide) _).1 (by omega)

/-- No covered decimal has fewer digits. -/
theorem length_le (h : IsWidest p d) (hp : p ≠ 0) (hd' : d'.CoveredBy p) :
    (Nat.digits 10 d.digits).length ≤ (Nat.digits 10 d'.digits).length := by
  obtain ⟨n, hlength, hleading⟩ := h.exists_length hp
  by_contra hlt
  have hdigits : d'.digits < 10 ^ n := (Nat.digits_length_le_iff (by decide) _).1 (by omega)
  have hexponent := h.widest d' hd'
  obtain ⟨rfl, -⟩ := h.covered_leading hd' hleading
    (Decimal.toRat_lt_ten_zpow hdigits (by omega)).le
  obtain ⟨digits, e⟩ := d'
  obtain rfl : digits = 0 := Nat.lt_one_iff.1 hdigits
  exact not_coveredBy_zero hp e hd'

end IsWidest

/-! ## Powers of ten just above a number -/

/-- The gap after a number is a unit or small beside the number. -/
theorem exists_gap (p : Nat) : ∃ gap, unitsAt (p + 1) = unitsAt p + gap
    ∧ (gap = 1 ∨ fractions * gap ≤ unitsAt p) := by
  obtain ⟨e, m, rfl, hm, he⟩ := exists_exponent_significand p
  rw [unitsAt_add hm he, unitsAt_add_one hm he]
  refine ⟨2 ^ e, by ring, ?_⟩
  rcases he with rfl | hle
  · exact Or.inl rfl
  · exact Or.inr (Nat.mul_le_mul_right _ hle)

/-- The only power of ten among the first units, in units. -/
theorem first_power_bounds : (2 : ℚ) < 10 ^ (-323 : ℤ) * 2 ^ 1074
    ∧ (10 : ℚ) ^ (-323 : ℤ) * 2 ^ 1074 < 21 / 10 := by
  have hlow : (2 : ℚ) * 10 ^ 323 < 2 ^ 1074 := by
    exact_mod_cast (by decide +kernel : 2 * 10 ^ 323 < 2 ^ 1074)
  have hhigh : (10 : ℚ) * 2 ^ 1074 < 21 * 10 ^ 323 := by
    exact_mod_cast (by decide +kernel : 10 * 2 ^ 1074 < 21 * 10 ^ 323)
  have hpos : (0 : ℚ) < 10 ^ 323 := pow_pos (by norm_num) _
  rw [show (-323 : ℤ) = -((323 : Nat) : ℤ) from rfl, zpow_neg, zpow_natCast, inv_mul_eq_div]
  generalize (10 : ℚ) ^ 323 = power at *
  generalize (2 : ℚ) ^ 1074 = scale at *
  exact ⟨by rwa [lt_div_iff₀ hpos], by rw [div_lt_iff₀ hpos]; linarith⟩

/-- In units, a power of ten below the tenth unit and above the first is that one. -/
theorem eq_of_ten_zpow_lt {e : ℤ} (hlow : 1 < (10 : ℚ) ^ e * 2 ^ 1074)
    (hhigh : (10 : ℚ) ^ e * 2 ^ 1074 < 10) : e = -323 := by
  obtain ⟨hfirst, hfirst'⟩ := first_power_bounds
  have hscale : (0 : ℚ) ≤ 2 ^ 1074 := pow_nonneg zero_le_two _
  generalize (2 : ℚ) ^ 1074 = scale at *
  have hten (e : ℤ) : (10 : ℚ) ^ (e + 1) * scale = 10 * (10 ^ e * scale) := by
    rw [zpow_add_one₀ (by norm_num)]
    ring
  have hmono {a b : ℤ} (hab : a ≤ b) : (10 : ℚ) ^ a * scale ≤ 10 ^ b * scale :=
    mul_le_mul_of_nonneg_right (zpow_le_zpow_right₀ (by norm_num) hab) hscale
  rcases lt_trichotomy e (-323) with hlt | heq | hgt
  · have hle := hmono (show e + 1 ≤ -323 by omega)
    rw [hten] at hle
    linarith
  · exact heq
  · have hle := hmono (show -323 + 1 ≤ e by omega)
    rw [hten] at hle
    linarith

/-- A power of ten just above a number that covers it is near the number, compared with its size.
Among the first few units, where the gaps are wide, there is but one power of ten. -/
theorem le_units_of_covers_ten_zpow {p : Nat} (hp : p ≠ 0) {e : ℤ}
    (h : Covers p (10 ^ e * 2 ^ 1074)) (hlt : unitsAt p < (10 : ℚ) ^ e * 2 ^ 1074) :
    19 * ((10 : ℚ) ^ e * 2 ^ 1074) ≤ 20 * unitsAt p := by
  obtain ⟨gap, hnext, hgap⟩ := exists_gap p
  have hhigh := h.high
  rw [hnext, Nat.cast_add] at hhigh
  have hsmall : 10 * gap ≤ unitsAt p ∨ gap = 1 ∧ unitsAt p < 10 := by
    unfold fractions at hgap
    omega
  rcases hsmall with hsmall | ⟨rfl, hfew⟩
  · have hsmall' : (10 * gap : ℚ) ≤ unitsAt p := by exact_mod_cast hsmall
    generalize (10 : ℚ) ^ e * 2 ^ 1074 = power at *
    linarith
  · have hone : (1 : ℚ) ≤ unitsAt p := by
      exact_mod_cast unitsAt_zero ▸ strictMono_unitsAt (Nat.pos_of_ne_zero hp)
    have hfew' : (unitsAt p : ℚ) ≤ 9 := by exact_mod_cast Nat.le_of_lt_succ hfew
    push_cast at hhigh
    have hbelow : (10 : ℚ) ^ e * 2 ^ 1074 < 10 := by
      generalize (10 : ℚ) ^ e * 2 ^ 1074 = power at *
      linarith
    obtain rfl := eq_of_ten_zpow_lt (hone.trans_lt hlt) hbelow
    obtain ⟨hfirst, hfirst'⟩ := first_power_bounds
    generalize (10 : ℚ) ^ (-323 : ℤ) * 2 ^ 1074 = power at *
    -- this power is just above two units, and a smaller number does not cover it
    have htwo : (2 : ℚ) ≤ unitsAt p := by
      have : 1 < unitsAt p := by
        exact_mod_cast (show (1 : ℚ) < unitsAt p by linarith)
      exact_mod_cast this
    linarith

/-- Of two decimals with one digit, a power of ten that the number covers and a smaller decimal, the
power is the nearer one. -/
theorem abs_ten_zpow_sub_le {p : Nat} (hp : p ≠ 0) {e : ℤ} (h : Decimal.CoveredBy ⟨1, e⟩ p)
    {q : ℚ} (hq : q ≤ 9 * 10 ^ (e - 1)) :
    |(10 : ℚ) ^ e - magnitudeAt p| ≤ |q - magnitudeAt p| := by
  have hten : (10 : ℚ) ^ e = 10 * 10 ^ (e - 1) := by
    rw [← zpow_one_add₀ (by norm_num)]
    congr 1
    omega
  have hpos : (0 : ℚ) < 10 ^ (e - 1) := zpow_pos (by norm_num) _
  rcases le_or_gt ((10 : ℚ) ^ e) (magnitudeAt p) with hle | hlt
  · rw [abs_sub_comm, abs_sub_comm q, abs_of_nonneg (by linarith), abs_of_nonneg (by linarith)]
    linarith
  · have hnear : 19 * (10 : ℚ) ^ (e - 1) ≤ 2 * magnitudeAt p := by
      have hscale : (0 : ℚ) < 2 ^ 1074 := pow_pos two_pos _
      rw [Decimal.CoveredBy, Decimal.toRat_one] at h
      rw [magnitudeAt, div_lt_iff₀ hscale] at hlt
      have hunits := le_units_of_covers_ten_zpow hp h hlt
      rw [magnitudeAt, ← mul_div_assoc, le_div_iff₀ hscale]
      rw [hten] at hunits
      generalize (2 : ℚ) ^ 1074 = scale at *
      linarith
    rw [abs_of_pos (by linarith), abs_sub_comm, abs_of_nonneg (by linarith)]
    linarith

/-- No covered decimal with as many digits is nearer. -/
theorem IsWidest.closest {p : Nat} {d d' : Decimal} (h : IsWidest p d) (hp : p ≠ 0)
    (hd' : d'.CoveredBy p)
    (hlength : (Nat.digits 10 d'.digits).length ≤ (Nat.digits 10 d.digits).length) :
    |d.toRat - magnitudeAt p| ≤ |d'.toRat - magnitudeAt p| := by
  rcases (h.widest d' hd').eq_or_lt with heq | hlt
  · exact h.nearest d' hd' heq
  · -- on a finer grid as many digits stay below the leading power of ten
    obtain ⟨n, hn, hleading⟩ := h.exists_length hp
    have hdigits : d'.digits < 10 ^ (n + 1) :=
      (Nat.digits_length_le_iff (by decide) _).1 (hn ▸ hlength)
    obtain ⟨rfl, hpower⟩ := h.covered_leading hd' hleading
      (Decimal.toRat_lt_ten_zpow hdigits (by push_cast; omega)).le
    have hnine : d'.toRat ≤ 9 * 10 ^ (d.exponent - 1) := by
      have hcast : (d'.digits : ℚ) ≤ 9 := by exact_mod_cast Nat.le_of_lt_succ hdigits
      exact mul_le_mul hcast (zpow_le_zpow_right₀ (by norm_num) (by omega))
        (zpow_nonneg (by norm_num) _) (by norm_num)
    have hnearest := h.nearest _ hpower rfl
    rw [Decimal.toRat_one] at hnearest
    exact hnearest.trans (abs_ten_zpow_sub_le hp hpower hnine)

/-! ## The shortest decimal -/

theorem IsWidest.significantDigits_le {p : Nat} {d d' : Decimal} (h : IsWidest p d) (hp : p ≠ 0)
    (hd' : d'.CoveredBy p) : d.significantDigits ≤ d'.significantDigits := by
  obtain ⟨r, hr, hlength⟩ := d'.exists_reduced
  rw [Decimal.CoveredBy, ← hr] at hd'
  exact hlength ▸ d.significantDigits_le.trans (h.length_le hp hd')

theorem IsWidest.closest_of_significantDigits_le {p : Nat} {d d' : Decimal} (h : IsWidest p d)
    (hp : p ≠ 0) (hd' : d'.CoveredBy p) (hle : d'.significantDigits ≤ d.significantDigits) :
    |d.toRat - magnitudeAt p| ≤ |d'.toRat - magnitudeAt p| := by
  obtain ⟨r, hr, hlength⟩ := d'.exists_reduced
  rw [Decimal.CoveredBy, ← hr] at hd'
  rw [← hr]
  exact h.closest hp hd' (hlength.trans_le (hle.trans d.significantDigits_le))

/-- The decimal with the sign rounds to the number. No decimal that does has fewer significant
digits, and none with as many is closer to the number. -/
structure IsShortest (x : Binary64) (negative : Bool) (d : Decimal) : Prop where
  rounds : RoundsTo (signed negative d.toRat) x
  fewest : ∀ (s : Bool) (d' : Decimal), RoundsTo (signed s d'.toRat) x →
    d.significantDigits ≤ d'.significantDigits
  closest : ∀ (s : Bool) (d' : Decimal), RoundsTo (signed s d'.toRat) x →
    d'.significantDigits = d.significantDigits →
      |signed negative d.toRat - x.toRat| ≤ |signed s d'.toRat - x.toRat|

theorem roundsTo_of_coveredBy {x : Binary64} (hfin : x.isFinite = true) {d : Decimal}
    (h : d.CoveredBy x.magnitudeBits) : RoundsTo (signed x.isNegative d.toRat) x := by
  have hrounds := roundsTo_of_covers x.isNegative (of_decide_eq_true hfin) d.toRat_nonneg h
  rwa [ofMagnitude_self] at hrounds

theorem isShortest_of_toRat_eq {x : Binary64} (hfin : x.isFinite = true)
    (h0 : x.magnitudeBits ≠ 0) {tie : Tie} {d : Decimal} (hd : d.toRat = (x.shortest tie).toRat) :
    IsShortest x x.isNegative d := by
  have hwidest := isWidest_shortest h0 tie
  have hcovered : d.CoveredBy x.magnitudeBits := by
    rw [Decimal.CoveredBy, hd]
    exact hwidest.covered
  refine ⟨roundsTo_of_coveredBy hfin hcovered, fun s d' hd' => ?_, fun s d' hd' heq => ?_⟩
  · rw [Decimal.significantDigits_eq hd]
    exact hwidest.significantDigits_le h0 (covers_of_roundsTo d'.toRat_nonneg hd')
  · rw [Decimal.significantDigits_eq hd] at heq
    have hclosest := hwidest.closest_of_significantDigits_le h0
      (covers_of_roundsTo d'.toRat_nonneg hd') heq.le
    rw [toRat_eq, hd, abs_signed_sub_signed]
    refine hclosest.trans ?_
    rw [abs_sub_comm, abs_sub_comm (signed s d'.toRat)]
    exact abs_sub_le_signed (magnitudeAt_nonneg _) d'.toRat_nonneg _ _

/-- Zero needs no significant digit. -/
theorem isShortest_zero {x : Binary64} (h0 : x.magnitudeBits = 0) (e : ℤ) :
    IsShortest x x.isNegative ⟨0, e⟩ := by
  have hzero : Decimal.toRat ⟨0, e⟩ = 0 := by rw [Decimal.toRat, Nat.cast_zero, zero_mul]
  have hvalue : signed x.isNegative (Decimal.toRat ⟨0, e⟩) = x.toRat := by
    rw [toRat_eq, h0, magnitudeAt, unitsAt_zero, Nat.cast_zero, zero_div, hzero]
  have hfin : x.isFinite = true := by
    rw [isFinite, h0]
    rfl
  refine ⟨roundsTo_of_coveredBy hfin ?_, fun s d' _ => Nat.zero_le _, fun s d' _ _ => ?_⟩
  · rw [Decimal.CoveredBy, hzero, zero_mul, h0]
    refine ⟨?_, ?_, fun hodd => absurd hodd (by decide)⟩
    · simp [unitsAt_zero]
    · simp [unitsAt_zero]
  · rw [hvalue, sub_self, abs_zero]
    exact abs_nonneg _

end Binary64

/-! ## The texts of numbers -/

open Json.Reader

/-- The number that a numeral stands for, without the sign. -/
def Json.Reader.Numeral.decimal (n : Numeral) : Decimal :=
  ⟨Numeral.value (n.whole ++ n.fraction.getD []), n.shift - (n.fraction.getD []).length⟩

namespace Literal

theorem isShortest_numeralOf {x : Binary64} (hfin : x.isFinite = true) :
    x.IsShortest x.isNegative (numeralOf x).decimal := by
  by_cases h0 : x.isZero = true
  · have hbits : x.magnitudeBits = 0 := by simpa [Binary64.isZero] using h0
    unfold numeralOf
    rw [if_pos h0]
    exact Binary64.isShortest_zero hbits 0
  · have hbits : x.magnitudeBits ≠ 0 := by simpa [Binary64.isZero] using h0
    exact Binary64.isShortest_of_toRat_eq hfin hbits (magnitude_numeralOf h0)

/-- The sign and the decimal determine the number. -/
theorem roundsTo_numeralOf_iff {x : Binary64} (hfin : x.isFinite = true) (y : Binary64) :
    Binary64.RoundsTo (Binary64.signed x.isNegative (numeralOf x).decimal.toRat) y
      ∧ y.isNegative = x.isNegative ↔ y = x := by
  have hx := (isShortest_numeralOf hfin).rounds
  refine ⟨fun ⟨hy, hsign⟩ => ?_, by rintro rfl; exact ⟨hx, rfl⟩⟩
  have hnonneg := (numeralOf x).decimal.toRat_nonneg
  have hbits := (Binary64.covers_of_roundsTo hnonneg hy).unique
    (Binary64.covers_of_roundsTo hnonneg hx)
  rw [← Binary64.ofMagnitude_self y, ← Binary64.ofMagnitude_self x, hbits, hsign]

theorem float_eq_iff (x y : Binary64) :
    float x = float y ↔ x = y ∨ x.isNaN = true ∧ y.isNaN = true := by
  constructor
  · intro h
    have hx := readsBack_float {} x _ "" (Nat.le_refl _) trivial
    have hy := readsBack_float {} y _ "" (Nat.le_refl _) trivial
    rw [render, h, ← render, hy, Value.meaning, Value.meaning, Option.some_inj, Prod.mk.injEq,
      Datum.number.injEq] at hx
    have hnan : Binary64.nan.isNaN = true := by decide
    by_cases hnx : x.isNaN = true <;> by_cases hny : y.isNaN = true
    · exact Or.inr ⟨hnx, hny⟩
    · rw [if_pos hnx, if_neg hny] at hx
      exact absurd (hx.1 ▸ hnan) hny
    · rw [if_neg hnx, if_pos hny] at hx
      exact absurd (hx.1 ▸ hnan) hnx
    · rw [if_neg hnx, if_neg hny] at hx
      exact Or.inl hx.1.symm
  · rintro (rfl | ⟨hx, hy⟩)
    · rfl
    · rw [float, float, if_pos hx, if_pos hy]

/-- The text of a finite number is a decimal that rounds to this number and to no other with the
sign of the text, and the reader gives back its bits. No decimal that rounds to the number has fewer
significant digits, and none with as many is closer to it. Numbers with the same text have the same
bits, NaNs apart. -/
theorem float_writes_shortest_decimal (x y : Binary64) :
    (x.isFinite = true → ∃ n : Numeral,
      Json.Reader.numeral .malformed (float x).toList = .ok (n, [])
        ∧ n.toBinary64 = x
        ∧ x.IsShortest n.negative n.decimal
        ∧ ∀ z : Binary64, Binary64.RoundsTo (Binary64.signed n.negative n.decimal.toRat) z
          ∧ z.isNegative = n.negative ↔ z = x)
      ∧ (float x = float y ↔ x = y ∨ x.isNaN = true ∧ y.isNaN = true) := by
  refine ⟨fun hfin => ⟨numeralOf x, ?_, toBinary64_numeralOf hfin, ?_, ?_⟩, float_eq_iff x y⟩
  · have hread := numeral_text .malformed (wellFormed_numeralOf x) (r := []) trivial
    rwa [List.append_nil, text_numeralOf hfin] at hread
  · rw [negative_numeralOf]
    exact isShortest_numeralOf hfin
  · rw [negative_numeralOf]
    exact roundsTo_numeralOf_iff hfin

/-- The second number after zero, to which `8e-324` and `9e-324` round as well. -/
theorem secondUnit_shortest : Binary64.isFinite ⟨2⟩ = true ∧ float ⟨2⟩ = "1e-323"
    ∧ Binary64.IsShortest ⟨2⟩ false ⟨1, -323⟩ ∧ float ⟨2⟩ ≠ float ⟨1⟩ := by
  have hfin : Binary64.isFinite ⟨2⟩ = true := by decide
  have htext : float ⟨2⟩ = "1e-323" := by decide +kernel
  obtain ⟨hread, hinj⟩ := float_writes_shortest_decimal ⟨2⟩ ⟨1⟩
  refine ⟨hfin, htext, ?_, by rw [Ne, hinj]; decide⟩
  obtain ⟨n, hn, -, hshortest, -⟩ := hread hfin
  rw [htext] at hn
  cases hn
  exact hshortest

end Literal

end ScriptWriter
