import ScriptWriter.Decimal.Shortest
import ScriptWriter.Proofs.Rounding

/-!
# The shortest decimal is read back

The interval around a number holds exactly the decimals that the number covers
(`contains_interval_iff`). The search for the shortest one only ever takes points of the interval,
so what it finds is covered (`covers_shortest`). A decimal is read as the number that covers it,
however digits and exponent are divided (`ofDecimal_spec`), so the shortest decimal of a number is
read as that number (`ofDecimal_of_eq_shortest`).
-/

namespace ScriptWriter

/-- The number that a decimal stands for. -/
def Decimal.toRat (d : Decimal) : ℚ := d.digits * 10 ^ d.exponent

/-! ## Points of the interval -/

namespace Interval

/-- What the search finds on a grid: one of the two points beside the number if the interval holds
one, and if it holds both the nearer one. -/
theorem nearestMultiple?_cases (i : Interval) (tie : Tie) (step : Nat) :
    (i.nearestMultiple? tie step = none ∧ i.contains (i.mid / step * step) = false
        ∧ i.contains (i.mid / step * step + step) = false)
      ∨ (i.nearestMultiple? tie step = some (i.mid / step)
        ∧ i.contains (i.mid / step * step) = true
        ∧ (i.contains (i.mid / step * step + step) = true →
          i.mid - i.mid / step * step ≤ i.mid / step * step + step - i.mid))
      ∨ (i.nearestMultiple? tie step = some (i.mid / step + 1)
        ∧ i.contains (i.mid / step * step + step) = true
        ∧ (i.contains (i.mid / step * step) = true →
          i.mid / step * step + step - i.mid ≤ i.mid - i.mid / step * step)) := by
  unfold nearestMultiple?
  dsimp only
  rcases hb : i.contains (i.mid / step * step) with _ | _ <;>
    rcases ha : i.contains (i.mid / step * step + step) with _ | _ <;> dsimp only
  · exact Or.inl ⟨rfl, rfl, rfl⟩
  · exact Or.inr (Or.inr ⟨rfl, rfl, nofun⟩)
  · exact Or.inr (Or.inl ⟨rfl, rfl, nofun⟩)
  · split
    · exact Or.inr (Or.inl ⟨rfl, rfl, fun _ => by omega⟩)
    split
    · exact Or.inr (Or.inr ⟨rfl, rfl, fun _ => by omega⟩)
    -- a tie goes one way or the other
    cases tie with
    | away => exact Or.inr (Or.inr ⟨rfl, rfl, fun _ => by omega⟩)
    | even =>
      dsimp only
      split
      · exact Or.inr (Or.inl ⟨rfl, rfl, fun _ => by omega⟩)
      · exact Or.inr (Or.inr ⟨rfl, rfl, fun _ => by omega⟩)

theorem contains_of_nearestMultiple? {i : Interval} {tie : Tie} {step count : Nat}
    (h : i.nearestMultiple? tie step = some count) : i.contains (count * step) = true := by
  obtain ⟨hfound, -⟩ | ⟨hfound, hcontains, -⟩ | ⟨hfound, hcontains, -⟩ :=
      nearestMultiple?_cases i tie step <;>
    rw [hfound] at h <;> cases h
  · exact hcontains
  · rwa [Nat.add_mul, Nat.one_mul]

/-- On the finest grid the number is a point itself. -/
theorem contains_widestGrid {i : Interval} (tie : Tie) (hmid : i.contains i.mid = true)
    (hfour : i.mid % 4 = 0) : ∀ j, i.contains
      ((i.widestGrid tie j).1 * (4 * 10 ^ (i.widestGrid tie j).2)) = true
  | 0 => by
    have hcount : i.mid / 4 * (4 * 10 ^ 0) = i.mid := by omega
    simp only [widestGrid, hcount, hmid]
  | j + 1 => by
    rw [widestGrid]
    split
    · rename_i count hcount
      exact contains_of_nearestMultiple? hcount
    · exact contains_widestGrid tie hmid hfour j

end Interval

namespace Binary64

theorem magnitudeBits_eq (x : Binary64) : x.magnitudeBits = x.exponent * fractions + x.significand
    ∧ x.significand < 2 * fractions ∧ (x.exponent = 0 ∨ fractions ≤ x.significand) := by
  unfold significand exponent fractions
  omega

/-- The quarters of `10 ^ -1074` that make a unit. -/
def quarters : Nat := 4 * Nat.pow 5 1074

/-- The middles of the gaps beside a number. -/
theorem interval_ends {x : Binary64} (h0 : x.magnitudeBits ≠ 0) :
    2 * x.interval.low
        = (unitsAt (x.magnitudeBits - 1) + unitsAt x.magnitudeBits) * quarters
      ∧ 2 * x.interval.high
        = (unitsAt x.magnitudeBits + unitsAt (x.magnitudeBits + 1)) * quarters := by
  obtain ⟨hp, hm, he⟩ := x.magnitudeBits_eq
  have hpos : 0 < x.significand := by
    rw [hp] at h0
    unfold fractions at h0 he
    omega
  unfold interval quarters
  dsimp only
  rw [Nat.shiftLeft_eq]
  generalize Nat.pow 5 1074 = t
  rw [hp, unitsAt_add_one hm he, unitsAt_add hm he]
  generalize x.significand = m at hm he hpos
  generalize x.exponent = e at he
  refine ⟨?_, by ring⟩
  split
  · rename_i hedge
    obtain ⟨rfl, hepos⟩ := hedge
    obtain ⟨k, rfl⟩ : ∃ k, e = k + 1 := ⟨e - 1, by omega⟩
    obtain ⟨f, hf⟩ : ∃ f, fractions = f + 1 := ⟨fractions - 1, by decide⟩
    rw [unitsAt_pred_carry, hf, pow_succ, show 4 * (f + 1) - 1 = 4 * f + 3 by omega,
      show 2 * (f + 1) - 1 = 2 * f + 1 by omega]
    ring
  · rename_i hedge
    obtain ⟨k, rfl⟩ : ∃ k, m = k + 1 := ⟨m - 1, by omega⟩
    rw [unitsAt_pred hm (by omega) hpos, Nat.add_sub_cancel,
      show 4 * (k + 1) - 2 = 4 * k + 2 by omega]
    ring

theorem quarters_pos : 0 < quarters := by
  unfold quarters
  generalize 1074 = k
  exact Nat.mul_pos (by decide) (Nat.pow_pos (by decide))

theorem contains_interval_iff {x : Binary64} (h0 : x.magnitudeBits ≠ 0) (n : Nat) :
    x.interval.contains n = true
      ↔ Covers x.magnitudeBits (n / quarters) := by
  obtain ⟨hlow, hhigh⟩ := interval_ends h0
  rw [covers_div_iff quarters_pos, ← hlow, ← hhigh, ← significand_mod_two, Interval.contains]
  have hclosed : x.interval.closed = decide (x.significand % 2 = 0) := rfl
  rw [hclosed]
  rcases Nat.mod_two_eq_zero_or_one x.significand with heven | hodd
  · simp only [heven, decide_true, if_true, decide_eq_true_eq, Nat.zero_ne_one, false_imp_iff,
      and_true]
    omega
  · simp only [hodd, Nat.one_ne_zero, decide_false, Bool.false_eq_true, if_false,
      decide_eq_true_eq, forall_const]
    omega

theorem interval_mid (x : Binary64) :
    x.interval.mid = unitsAt x.magnitudeBits * quarters := by
  unfold interval quarters unitsAt
  dsimp only
  rw [Nat.shiftLeft_eq, ← exponent, ← significand, Nat.shiftLeft_eq]
  ring

/-- The number itself lies between the middles. -/
theorem contains_mid {x : Binary64} (h0 : x.magnitudeBits ≠ 0) :
    x.interval.contains x.interval.mid = true := by
  rw [contains_interval_iff h0, interval_mid, Nat.cast_mul,
    mul_div_cancel_right₀ _ (Nat.cast_ne_zero.2 quarters_pos.ne')]
  exact covers_unitsAt x.magnitudeBits

theorem mid_mod_four (x : Binary64) : x.interval.mid % 4 = 0 := by
  have hmid : x.interval.mid = 4 * x.significand * (Nat.pow 5 1074 <<< x.exponent) := rfl
  rw [hmid, Nat.mul_assoc]
  exact Nat.mul_mod_right 4 _

/-- A point of a grid, in units. -/
theorem zpow_sub_mul_two_pow (j k : Nat) :
    (10 : ℚ) ^ ((j : ℤ) - k) * 2 ^ k = 10 ^ j / 5 ^ k := by
  rw [zpow_sub₀ (by norm_num), zpow_natCast, zpow_natCast, show (10 : ℚ) ^ k = 2 ^ k * 5 ^ k by
    rw [← mul_pow]; norm_num]
  field_simp

theorem cast_quarters : (quarters : ℚ) = 4 * 5 ^ 1074 := by
  unfold quarters
  generalize 1074 = k
  rw [Nat.cast_mul, show Nat.pow 5 k = 5 ^ k from rfl, Nat.cast_pow, Nat.cast_ofNat,
    Nat.cast_ofNat]

theorem shortest_eq (x : Binary64) (tie : Tie) : x.shortest tie
    = ⟨(x.interval.widestGrid tie (powerPast x.interval.high)).1,
      ((x.interval.widestGrid tie (powerPast x.interval.high)).2 : ℤ) - (1074 : Nat)⟩ := rfl

theorem toRat_mul_two_pow (count place k : Nat) :
    Decimal.toRat ⟨count, (place : ℤ) - k⟩ * 2 ^ k
      = (count * (4 * 10 ^ place) : Nat) / (4 * 5 ^ k) := by
  rw [Decimal.toRat, mul_assoc, zpow_sub_mul_two_pow]
  push_cast
  field_simp

theorem covers_shortest {x : Binary64} (h0 : x.magnitudeBits ≠ 0) (tie : Tie) :
    Covers x.magnitudeBits ((x.shortest tie).toRat * 2 ^ 1074) := by
  rw [shortest_eq, toRat_mul_two_pow, ← cast_quarters, ← contains_interval_iff h0]
  exact Interval.contains_widestGrid tie (contains_mid h0) (mid_mod_four x) _

/-! ## Decimals that a number covers -/

/-- What a finite number covers is less than the first power of two past all of them. -/
theorem Covers.lt_of_lt {p : Nat} {q : ℚ} (h : Covers p q) (hp : p < infinityBits) :
    q < 2 ^ 2098 := by
  have hle : unitsAt (p + 1) ≤ 2 ^ 2098 :=
    unitsAt_infinityBits ▸ strictMono_unitsAt.monotone (Nat.succ_le_of_lt hp)
  have hlt := unitsAt_lt_succ p
  have hle' : (unitsAt (p + 1) : ℚ) ≤ 2 ^ 2098 := by exact_mod_cast hle
  have hlt' : (unitsAt p : ℚ) < unitsAt (p + 1) := by exact_mod_cast hlt
  have hhigh := h.high
  generalize (2 : ℚ) ^ 2098 = bound at *
  linarith

/-- Less than half a unit is covered by zero only. -/
theorem Covers.eq_zero_of_lt {p : Nat} {q : ℚ} (h : Covers p q) (hq : 2 * q < 1) : p = 0 := by
  by_contra hne
  have hpos := strictMono_unitsAt (Nat.pos_of_ne_zero hne)
  rw [unitsAt_zero] at hpos
  have hpos' : (1 : ℚ) ≤ unitsAt p := by exact_mod_cast hpos
  have hnonneg : (0 : ℚ) ≤ unitsAt (p - 1) := Nat.cast_nonneg _
  linarith [h.low]

/-- A power of ten as a quotient of whole ones. -/
theorem ten_zpow_eq_div (e : Int) :
    (10 : ℚ) ^ e = (10 ^ e.toNat : Nat) / (10 ^ (-e).toNat : Nat) := by
  rcases le_total 0 e with h | h
  · obtain ⟨n, rfl⟩ := Int.eq_ofNat_of_zero_le h
    simp
  · obtain ⟨n, hn⟩ := Int.eq_ofNat_of_zero_le (Int.neg_nonneg.2 h)
    have he : e = -n := by omega
    subst he
    simp

/-- A quotient of decimals in units of `2 ^ -k`. -/
theorem cast_decimal (digits k : Nat) (e : Int) :
    (((digits * Nat.pow 10 e.toNat) <<< k : Nat) : ℚ) / (Nat.pow 10 (-e).toNat : Nat)
      = digits * 10 ^ e * 2 ^ k := by
  change (((digits * 10 ^ e.toNat) <<< k : Nat) : ℚ) / (10 ^ (-e).toNat : Nat) = _
  rw [ten_zpow_eq_div, Nat.shiftLeft_eq, Nat.cast_mul, Nat.cast_mul, Nat.cast_pow 2, Nat.cast_ofNat]
  ring

theorem lt_of_exponent_gt {digits : Nat} {e : Int} (h0 : digits ≠ 0) (he : 309 < e) :
    (2 : ℚ) ^ 1024 < digits * 10 ^ e := by
  have hdigits : (1 : ℚ) ≤ digits := by exact_mod_cast Nat.one_le_iff_ne_zero.2 h0
  have hpow : (10 : ℚ) ^ (310 : ℤ) ≤ 10 ^ e := zpow_le_zpow_right₀ (by norm_num) (by omega)
  have hconst : (2 : ℚ) ^ 1024 < 10 ^ (310 : ℤ) := by
    rw [show (310 : ℤ) = ((310 : Nat) : ℤ) from rfl, zpow_natCast]
    exact_mod_cast (by decide +kernel : (2 : Nat) ^ 1024 < 10 ^ 310)
  calc (2 : ℚ) ^ 1024 < 10 ^ (310 : ℤ) := hconst
    _ ≤ 10 ^ e := hpow
    _ ≤ digits * 10 ^ e := le_mul_of_one_le_left (zpow_nonneg (by norm_num) e) hdigits

theorem lt_of_exponent_lt {digits : Nat} {e : Int} (he : e + digits.log2 + 1 < -324) :
    digits * (10 : ℚ) ^ e < 10 ^ (-325 : ℤ) := by
  have hdigits : (digits : ℚ) < 10 ^ (digits.log2 + 1) := by
    have h2 : digits < 2 ^ (digits.log2 + 1) := Nat.lt_log2_self
    have h10 : 2 ^ (digits.log2 + 1) ≤ 10 ^ (digits.log2 + 1) := Nat.pow_le_pow_left (by decide) _
    exact_mod_cast h2.trans_le h10
  calc digits * (10 : ℚ) ^ e < 10 ^ (digits.log2 + 1) * 10 ^ e :=
        mul_lt_mul_of_pos_right hdigits (zpow_pos (by norm_num) e)
    _ = 10 ^ (e + digits.log2 + 1) := by
        rw [← zpow_natCast, ← zpow_add₀ (by norm_num)]
        congr 1
        push_cast
        ring
    _ ≤ 10 ^ (-325 : ℤ) := zpow_le_zpow_right₀ (by norm_num) (by omega)

theorem two_mul_tiny_lt : 2 * ((10 : ℚ) ^ (-325 : ℤ) * 2 ^ 1074) < 1 := by
  have hconst : (2 : ℚ) ^ 1075 < 10 ^ 325 := by
    exact_mod_cast (by decide +kernel : (2 : Nat) ^ 1075 < 10 ^ 325)
  have hpos : (0 : ℚ) < 10 ^ 325 := pow_pos (by norm_num) _
  rw [mul_left_comm, ← pow_succ', show (-325 : ℤ) = -((325 : Nat) : ℤ) from rfl, zpow_neg,
    zpow_natCast, inv_mul_eq_div, div_lt_one hpos]
  exact hconst

/-- A decimal is read as what covers it, or as infinity where that is past all numbers. -/
theorem ofDecimal_spec (negative : Bool) (digits : Nat) (e : Int) :
    ∃ p, Covers p (digits * 10 ^ e * 2 ^ 1074)
      ∧ ofDecimal negative digits e = ofMagnitude negative (min p infinityBits) := by
  have hden : 0 < Nat.pow 10 (-e).toNat := Nat.pow_pos (by decide)
  have hcovers := covers_nearestPattern ((digits * Nat.pow 10 e.toNat) <<< 1074) hden
  have hbits := nearestBits_eq_min ((digits * Nat.pow 10 e.toNat) <<< 1074) (Nat.pow 10 (-e).toNat)
  rw [cast_decimal] at hcovers
  generalize nearestPattern ((digits * Nat.pow 10 e.toNat) <<< 1074) (Nat.pow 10 (-e).toNat) = p
    at hcovers hbits
  have hpow : (0 : ℚ) < 2 ^ 1074 := pow_pos two_pos _
  refine ⟨p, hcovers, congrArg (ofMagnitude negative) ?_⟩
  split
  · rename_i h0
    rw [h0, Nat.cast_zero, zero_mul, zero_mul] at hcovers
    rw [hcovers.eq_zero, Nat.zero_min]
  · rename_i h0
    split
    · rename_i he
      -- past the bound the pattern is not evaluated, but it would be no smaller
      refine (min_eq_right (not_lt.1 fun hp => ?_)).symm
      have hlt := mul_lt_mul_of_pos_right (lt_of_exponent_gt h0 he) hpow
      rw [← pow_add] at hlt
      exact absurd (hcovers.lt_of_lt hp) (not_lt.2 hlt.le)
    · split
      · rename_i he
        have hlt := mul_lt_mul_of_pos_right (lt_of_exponent_lt he) hpow
        have htiny := two_mul_tiny_lt
        rw [hcovers.eq_zero_of_lt ?_, Nat.zero_min]
        generalize (2 : ℚ) ^ 1074 = scale at *
        linarith
      · exact hbits

theorem ofDecimal_eq_of_covers (negative : Bool) {digits p : Nat} {e : Int}
    (hp : p < infinityBits) (h : Covers p (digits * 10 ^ e * 2 ^ 1074)) :
    ofDecimal negative digits e = ofMagnitude negative p := by
  obtain ⟨p', hcovers, heq⟩ := ofDecimal_spec negative digits e
  rw [heq, hcovers.unique h, min_eq_left hp.le]

/-- Where a decimal is read as a finite number, this number covers it. -/
theorem exists_covers_of_isFinite {negative : Bool} {digits : Nat} {e : Int}
    (h : (ofDecimal negative digits e).isFinite = true) :
    ∃ p < infinityBits, Covers p (digits * 10 ^ e * 2 ^ 1074)
      ∧ ofDecimal negative digits e = ofMagnitude negative p := by
  obtain ⟨p, hcovers, heq⟩ := ofDecimal_spec negative digits e
  have hsign : min p infinityBits < signBit := (min_le_right _ _).trans_lt (by decide)
  rw [heq, isFinite, magnitudeBits_ofMagnitude negative hsign, decide_eq_true_eq] at h
  have hp : p < infinityBits := (min_lt_iff.1 h).resolve_right (lt_irrefl _)
  rw [min_eq_left hp.le] at heq
  exact ⟨p, hp, hcovers, heq⟩

theorem covers_ofDecimal {negative : Bool} {digits : Nat} {e : Int}
    (h : (ofDecimal negative digits e).isFinite = true) :
    Covers (ofDecimal negative digits e).magnitudeBits (digits * 10 ^ e * 2 ^ 1074) := by
  obtain ⟨p, hp, hcovers, heq⟩ := exists_covers_of_isFinite h
  rwa [heq, magnitudeBits_ofMagnitude negative (lt_signBit_of_lt hp)]

/-- A decimal is read as the number nearest it, where it is read as a finite one. -/
theorem isNearest_ofDecimal {negative : Bool} {digits : Nat} {e : Int}
    (h : (ofDecimal negative digits e).isFinite = true) :
    IsNearest (signed negative (digits * 10 ^ e)) (ofDecimal negative digits e) := by
  obtain ⟨p, hp, hcovers, heq⟩ := exists_covers_of_isFinite h
  rw [heq]
  exact isNearest_of_covers negative hp (by positivity) hcovers

/-- The shortest decimal of a number is read as the number, however it is written. -/
theorem ofDecimal_of_eq_shortest {x : Binary64} (hfin : x.isFinite = true)
    (h0 : x.isZero = false) (tie : Tie) {digits : Nat} {e : Int}
    (h : (digits : ℚ) * 10 ^ e = (x.shortest tie).toRat) :
    ofDecimal x.isNegative digits e = x := by
  have hbits : x.magnitudeBits ≠ 0 := by simpa [isZero] using h0
  have hlt : x.magnitudeBits < infinityBits := by simpa [isFinite] using hfin
  rw [ofDecimal_eq_of_covers x.isNegative hlt (h ▸ covers_shortest hbits tie), ofMagnitude_self]

end Binary64

end ScriptWriter
