import ScriptWriter.Proofs.FewestDigits

/-!
# The layout of numbers

A script lays a number out by its shortest digits and by where the point stands among them
(`layout`). The writer chooses the layout before it has any digits: it compares the number with the
numbers nearest `1e-6` and `1e21`. Near these two the digits could in principle be rounded into
another decade than the number itself. They are not, for any power of ten: a number from the one
nearest the power on has its point past the power, since on the widest grid the power of ten is a
candidate itself, and a smaller number has not, since its digits are none that the power's number
covers (`le_magnitudeBits_iff_lt_point`). So both choices are the same one (`isPositional_iff`).
-/

namespace ScriptWriter

/-! ## Digits and decades -/

namespace Decimal

theorem numerals_bounds {d : Decimal} (h : d.digits ≠ 0) :
    10 ^ (d.numerals.length - 1) ≤ d.digits ∧ d.digits < 10 ^ d.numerals.length := by
  have hpos : 0 < d.numerals.length := List.length_pos_of_ne_nil d.digits_numerals.1
  refine ⟨?_, (Nat.length_toDigits_le_iff (by decide) hpos).1 (Nat.le_refl _)⟩
  rcases Nat.eq_zero_or_pos (d.numerals.length - 1) with hone | hmore
  · rw [hone, pow_zero]
    omega
  · refine not_lt.1 fun hlt => ?_
    have hle : d.numerals.length ≤ d.numerals.length - 1 :=
      (Nat.length_toDigits_le_iff (by decide) hmore).2 hlt
    omega

/-- The point stands past a power of ten exactly if the decimal reaches it. -/
theorem lt_point_iff {d : Decimal} (h : d.digits ≠ 0) (e : ℤ) :
    e < d.point ↔ (10 : ℚ) ^ e ≤ d.toRat := by
  have hpos : 0 < d.numerals.length := List.length_pos_of_ne_nil d.digits_numerals.1
  obtain ⟨hlow, hhigh⟩ := numerals_bounds h
  unfold point
  constructor
  · intro hlt
    refine le_trans (zpow_le_zpow_right₀ (by norm_num) ?_) (ten_zpow_le_toRat hlow)
    omega
  · intro hle
    by_contra hge
    exact absurd (toRat_lt_ten_zpow hhigh (not_lt.1 hge)) (not_lt.2 hle)

end Decimal

namespace Binary64

theorem Covers.le_of_lt {p p' : Nat} {q q' : ℚ} (h : Covers p q) (h' : Covers p' q')
    (hlt : p < p') : q ≤ q' := by
  have hnext : (unitsAt (p + 1) : ℚ) ≤ unitsAt p' := by
    exact_mod_cast strictMono_unitsAt.monotone hlt
  have hbefore : (unitsAt p : ℚ) ≤ unitsAt (p' - 1) := by
    exact_mod_cast strictMono_unitsAt.monotone (Nat.le_sub_one_of_lt hlt)
  linarith [h.high, h'.low]

namespace IsWidest

variable {p : Nat} {d : Decimal}

/-- A zero at the end would leave a wider grid. -/
theorem digits_mod_ten_ne_zero (h : IsWidest p d) : d.digits % 10 ≠ 0 := by
  intro hmod
  obtain ⟨digits, e⟩ := d
  obtain ⟨m, rfl⟩ : 10 ∣ digits := Nat.dvd_of_mod_eq_zero hmod
  have hcovered : Decimal.CoveredBy ⟨10 ^ 1 * m, e⟩ p := h.covered
  rw [Decimal.CoveredBy, Decimal.toRat_mul] at hcovered
  have hle := h.widest ⟨m, (1 : Nat) + e⟩ hcovered
  dsimp only at hle
  omega

/-- The decimal of a number reaches a power of ten exactly if the number comes no sooner than the
one that covers the power. -/
theorem ten_zpow_le_iff (h : IsWidest p d) (hp : p ≠ 0) {b : Nat} {e : ℤ}
    (hb : Covers b (10 ^ e * 2 ^ 1074)) : (10 : ℚ) ^ e ≤ d.toRat ↔ b ≤ p := by
  have hscale : (0 : ℚ) < 2 ^ 1074 := pow_pos two_pos _
  constructor
  · intro hle
    by_contra hlt
    have hge := h.covered.le_of_lt hb (not_le.1 hlt)
    have heq : d.toRat = 10 ^ e := le_antisymm (le_of_mul_le_mul_right hge hscale) hle
    have hcovered := h.covered
    rw [Decimal.CoveredBy, heq] at hcovered
    exact hlt (hcovered.unique hb).ge
  · intro hle
    rcases hle.eq_or_lt with rfl | hlt
    · -- the power itself is covered, so the grid of the decimal is no finer
      have hpower : Decimal.CoveredBy ⟨1, e⟩ b := by rwa [Decimal.CoveredBy, Decimal.toRat_one]
      have hgrid : e ≤ (0 : Nat) + d.exponent := by simpa using h.widest _ hpower
      have hone : 10 ^ 0 ≤ d.digits := Nat.one_le_iff_ne_zero.2 (h.digits_ne_zero hp)
      exact (zpow_le_zpow_right₀ (by norm_num) hgrid).trans (Decimal.ten_zpow_le_toRat hone)
    · exact le_of_mul_le_mul_right (hb.le_of_lt h.covered hlt) hscale

end IsWidest

/-- Comparing a number with the one nearest a power of ten tells where the point of its shortest
decimal stands. -/
theorem le_magnitudeBits_iff_lt_point {x : Binary64} (h0 : x.magnitudeBits ≠ 0) (tie : Tie) {e : ℤ}
    (h : (ofDecimal false 1 e).isFinite = true) :
    (ofDecimal false 1 e).magnitudeBits ≤ x.magnitudeBits ↔ e < (x.shortest tie).point := by
  have hwidest := isWidest_shortest h0 tie
  have hpower := covers_ofDecimal h
  rw [Nat.cast_one, one_mul] at hpower
  rw [Decimal.lt_point_iff (hwidest.digits_ne_zero h0), hwidest.ten_zpow_le_iff h0 hpower]

end Binary64

/-! ## Layouts -/

namespace Literal

/-- The layout of a script number with the given digits and the point after the first `n` of them,
counted on past the digits and before them. -/
def layout (numerals : List Char) (n : Int) : List Char :=
  if numerals.length ≤ n ∧ n ≤ 21 then
    numerals ++ List.replicate (n - numerals.length).toNat '0'
  else if 0 < n ∧ n ≤ 21 then
    numerals.take n.toNat ++ '.' :: numerals.drop n.toNat
  else if -6 < n ∧ n ≤ 0 then
    '0' :: '.' :: (List.replicate (-n).toNat '0' ++ numerals)
  else
    numerals.take 1 ++ (if numerals.length = 1 then [] else '.' :: numerals.drop 1)
      ++ 'e' :: (if n - 1 < 0 then '-' else '+') :: Nat.toDigits 10 (n - 1).natAbs

theorem positional_eq_layout {d : Decimal} (hlow : -6 < d.point) (hhigh : d.point ≤ 21) :
    d.positional = layout d.numerals d.point := by
  have hpoint : d.point = d.numerals.length + d.exponent := rfl
  unfold Decimal.positional layout
  by_cases hwhole : 0 ≤ d.exponent
  · rw [if_pos hwhole, if_pos ⟨by omega, hhigh⟩,
      show d.point - d.numerals.length = d.exponent by omega]
  · have hshort : ¬ (d.numerals.length ≤ d.point ∧ d.point ≤ 21) := by omega
    rw [if_neg hwhole, if_neg hshort]
    by_cases hinside : 0 < d.point
    · rw [if_pos hinside, if_pos ⟨hinside, hhigh⟩]
    · rw [if_neg hinside, if_neg fun h => hinside h.1, if_pos ⟨hlow, not_lt.1 hinside⟩]

theorem scientific_eq_layout {d : Decimal} (h : ¬ (-6 < d.point ∧ d.point ≤ 21)) :
    d.scientific = layout d.numerals d.point := by
  have hpos : 0 < d.numerals.length := List.length_pos_of_ne_nil d.digits_numerals.1
  have hmantissa : d.mantissa = d.numerals.take 1
      ++ (if d.numerals.length = 1 then [] else '.' :: d.numerals.drop 1) := by
    unfold Decimal.mantissa
    split
    · rename_i hnil
      have hle := List.drop_eq_nil_iff.1 hnil
      rw [if_pos (by omega)]
    · rename_i hne
      have hle := mt List.drop_eq_nil_iff.2 hne
      rw [if_neg (by omega)]
  unfold Decimal.scientific layout
  rw [if_neg fun hn => h ⟨by omega, hn.2⟩, if_neg fun hn => h ⟨by omega, hn.2⟩,
    if_neg fun hn => h ⟨hn.1, by omega⟩, hmantissa]

/-- The test of the writer, which compares numbers, decides as the digits would. -/
theorem isPositional_iff {x : Binary64} (h0 : x.magnitudeBits ≠ 0) :
    isPositional x = true ↔ -6 < (x.shortest .away).point ∧ (x.shortest .away).point ≤ 21 := by
  have hleast : leastPositional.magnitudeBits ≤ x.magnitudeBits ↔ -6 < (x.shortest .away).point :=
    Binary64.le_magnitudeBits_iff_lt_point h0 .away (by decide +kernel)
  have hpast : pastPositional.magnitudeBits ≤ x.magnitudeBits ↔ 21 < (x.shortest .away).point :=
    Binary64.le_magnitudeBits_iff_lt_point h0 .away (by decide +kernel)
  rw [isPositional, decide_eq_true_iff]
  exact and_congr hleast (not_le.symm.trans ((not_congr hpast).trans not_lt))

theorem magnitude_eq_layout {x : Binary64} (hfin : x.isFinite = true) (h0 : x.isZero = false) :
    (magnitude x).toList = layout (x.shortest .away).numerals (x.shortest .away).point := by
  have hbits : x.magnitudeBits ≠ 0 := by simpa [Binary64.isZero] using h0
  have hnonzero : ¬ x.isZero = true := by simp [h0]
  unfold magnitude
  rw [if_neg (Binary64.not_isInfinite_of_isFinite hfin), if_neg hnonzero, String.toList_ofList]
  by_cases hpositional : isPositional x = true
  · obtain ⟨hlow, hhigh⟩ := (isPositional_iff hbits).1 hpositional
    rw [if_pos hpositional, positional_eq_layout hlow hhigh]
  · rw [if_neg hpositional, withSignedExponent_exponential,
      scientific_eq_layout (mt (isPositional_iff hbits).2 hpositional)]

/-- A finite number other than zero is laid out by its shortest digits, of which the last is no
zero, and by where the point stands among them, after a minus exactly if it is negative. The
comparison with the numbers nearest `1e-6` and `1e21` decides on an exponent as the point does, and
where there is one, its mark is found. -/
theorem float_follows_layout (x : Binary64) (hfin : x.isFinite = true) (h0 : x.isZero = false) :
    x.IsShortest x.isNegative (x.shortest .away)
      ∧ (x.shortest .away).digits % 10 ≠ 0
      ∧ (float x).toList = (if x.isNegative then ['-'] else [])
        ++ layout (x.shortest .away).numerals (x.shortest .away).point
      ∧ (isPositional x = true ↔ -6 < (x.shortest .away).point ∧ (x.shortest .away).point ≤ 21)
      ∧ splitExponent? (x.shortest .away).exponential ≠ none := by
  have hbits : x.magnitudeBits ≠ 0 := by simpa [Binary64.isZero] using h0
  refine ⟨Binary64.isShortest_of_toRat_eq hfin hbits rfl,
    (Binary64.isWidest_shortest hbits .away).digits_mod_ten_ne_zero, ?_, isPositional_iff hbits, ?_⟩
  · rw [float, if_neg (Binary64.not_isNaN_of_isFinite hfin), ← magnitude_eq_layout hfin h0]
    split
    · rw [String.toList_append]
      rfl
    · rfl
  · simp [splitExponent?_exponential]

/-- The last number before `1e21`, whose digits stop just short of the next decade. -/
theorem beforePast_follows_layout : Binary64.isFinite ⟨0xC44B1AE4D6E2EF4F⟩ = true
    ∧ Binary64.isZero ⟨0xC44B1AE4D6E2EF4F⟩ = false
    ∧ (float ⟨0xC44B1AE4D6E2EF4F⟩).toList = '-' :: layout "9999999999999999".toList 21
    ∧ float ⟨0xC44B1AE4D6E2EF4F⟩ = "-999999999999999900000" := by
  have hfin : Binary64.isFinite ⟨0xC44B1AE4D6E2EF4F⟩ = true := by decide
  have h0 : Binary64.isZero ⟨0xC44B1AE4D6E2EF4F⟩ = false := by decide
  have hshortest : Binary64.shortest .away ⟨0xC44B1AE4D6E2EF4F⟩ = ⟨9999999999999999, 5⟩ := by
    decide +kernel
  obtain ⟨-, -, htext, -⟩ := float_follows_layout ⟨0xC44B1AE4D6E2EF4F⟩ hfin h0
  rw [hshortest] at htext
  refine ⟨hfin, h0, htext, ?_⟩
  rw [← String.ofList_toList (s := float _), htext]
  decide

end Literal

end ScriptWriter
