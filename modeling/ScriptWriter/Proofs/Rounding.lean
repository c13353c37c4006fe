import Mathlib.Tactic
import ScriptWriter.Binary64.Rounding

/-!
# Rounding to the nearest number

The magnitudes of binary64 numbers, in units, grow with the pattern (`strictMono_unitsAt`). A
pattern covers the quantities between the middles of the gaps on both of its sides, and the middles
themselves if it is even. Every quantity is covered once: by the pattern that `nearestBits` gives
(`covers_nearestBits`), and by no other (`Covers.unique`). The number with this pattern is the
nearest one, and on a tie the one with the even significand (`isNearest_of_covers`).
-/

namespace ScriptWriter

theorem roundHalfEven_spec (num : Nat) {den : Nat} (h : 0 < den) :
    2 * (roundHalfEven num den * den) ≤ 2 * num + den
      ∧ 2 * num ≤ 2 * (roundHalfEven num den * den) + den
      ∧ (roundHalfEven num den % 2 = 1 → 2 * (roundHalfEven num den * den) < 2 * num + den
        ∧ 2 * num < 2 * (roundHalfEven num den * den) + den) := by
  have hdiv := Nat.div_add_mod num den
  have hmod := Nat.mod_lt num h
  rw [Nat.mul_comm] at hdiv
  unfold roundHalfEven
  dsimp only
  split
  · rename_i hr
    refine ⟨by omega, by omega, fun hodd => ⟨by omega, ?_⟩⟩
    rcases hr with hr | ⟨-, heven⟩ <;> omega
  · rename_i hr
    rw [not_or, not_and] at hr
    rw [Nat.add_mul, Nat.one_mul]
    refine ⟨by omega, by omega, fun hodd => ⟨?_, by omega⟩⟩
    have hne : 2 * (num % den) ≠ den := fun heq => hr.2 heq (by omega)
    omega

namespace Binary64

/-! ## The magnitudes in order -/

/-- The units of the number with the given pattern and no sign. -/
def unitsAt (p : Nat) : Nat := (p - (p / fractions - 1) * fractions) <<< (p / fractions - 1)

theorem units_eq_unitsAt (x : Binary64) : x.units = unitsAt x.magnitudeBits := rfl

theorem exists_exponent_significand (p : Nat) :
    ∃ e m, p = e * fractions + m ∧ m < 2 * fractions ∧ (e = 0 ∨ fractions ≤ m) := by
  refine ⟨p / fractions - 1, p - (p / fractions - 1) * fractions, ?_⟩
  unfold fractions
  omega

theorem unitsAt_add {e m : Nat} (hm : m < 2 * fractions) (he : e = 0 ∨ fractions ≤ m) :
    unitsAt (e * fractions + m) = m * 2 ^ e := by
  have hexp : (e * fractions + m) / fractions - 1 = e := by
    unfold fractions at *
    omega
  rw [unitsAt, hexp, Nat.add_sub_cancel_left, Nat.shiftLeft_eq]

/-- The next number is one step of the significand away, also where the exponent changes. -/
theorem unitsAt_add_one {e m : Nat} (hm : m < 2 * fractions) (he : e = 0 ∨ fractions ≤ m) :
    unitsAt (e * fractions + m + 1) = (m + 1) * 2 ^ e := by
  rcases Nat.lt_or_ge (m + 1) (2 * fractions) with hlt | hge
  · rw [Nat.add_assoc]
    exact unitsAt_add hlt (by omega)
  · have hm' : m + 1 = 2 * fractions := by omega
    have hp : e * fractions + m + 1 = (e + 1) * fractions + fractions := by
      rw [Nat.add_assoc, hm']
      ring
    rw [hp, unitsAt_add (by unfold fractions; omega) (Or.inr (Nat.le_refl _)), hm', Nat.pow_succ]
    ring

theorem unitsAt_lt_succ (p : Nat) : unitsAt p < unitsAt (p + 1) := by
  obtain ⟨e, m, rfl, hm, he⟩ := exists_exponent_significand p
  rw [unitsAt_add hm he, unitsAt_add_one hm he]
  exact Nat.mul_lt_mul_of_pos_right (Nat.lt_succ_self m) (Nat.two_pow_pos e)

theorem strictMono_unitsAt : StrictMono unitsAt := strictMono_nat_of_lt_succ unitsAt_lt_succ

theorem unitsAt_zero : unitsAt 0 = 0 := rfl

/-- The number before is one step of the same significand away, except at a power of two. -/
theorem unitsAt_pred {e m : Nat} (hm : m < 2 * fractions) (he : e = 0 ∨ fractions < m)
    (h0 : 0 < m) : unitsAt (e * fractions + m - 1) = (m - 1) * 2 ^ e := by
  rw [Nat.add_sub_assoc h0]
  exact unitsAt_add (by omega) (by omega)

/-- At a power of two the step before is half as wide. -/
theorem unitsAt_pred_carry (e : Nat) :
    unitsAt ((e + 1) * fractions + fractions - 1) = (2 * fractions - 1) * 2 ^ e := by
  have hp : (e + 1) * fractions + fractions - 1 = e * fractions + (2 * fractions - 1) := by
    unfold fractions
    omega
  rw [hp]
  exact unitsAt_add (by unfold fractions; omega) (by unfold fractions; omega)

/-! ## The quantities that a number covers -/

/-- The quantity is between the middles of the gaps beside the pattern, and not in the middle if
the pattern is odd. -/
structure Covers (p : Nat) (q : ℚ) : Prop where
  low : (unitsAt (p - 1) + unitsAt p : ℚ) ≤ 2 * q
  high : 2 * q ≤ unitsAt p + unitsAt (p + 1)
  odd : p % 2 = 1 →
    (unitsAt (p - 1) + unitsAt p : ℚ) < 2 * q ∧ 2 * q < unitsAt p + unitsAt (p + 1)

theorem Covers.not_lt {p p' : Nat} {q : ℚ} (h : Covers p q) (h' : Covers p' q) : ¬ p < p' := by
  intro hlt
  have hlow : unitsAt p ≤ unitsAt (p' - 1) := strictMono_unitsAt.monotone (by omega)
  have hhigh : unitsAt (p + 1) ≤ unitsAt p' := strictMono_unitsAt.monotone (by omega)
  have hlow' : (unitsAt p : ℚ) ≤ unitsAt (p' - 1) := by exact_mod_cast hlow
  have hhigh' : (unitsAt (p + 1) : ℚ) ≤ unitsAt p' := by exact_mod_cast hhigh
  have h1 := h.high
  have h2 := h'.low
  -- the middle above one is the middle below the other, and one of the two is odd
  have heq : unitsAt (p + 1) = unitsAt p' := by
    have : (unitsAt (p + 1) : ℚ) = unitsAt p' := by linarith
    exact_mod_cast this
  have hp : p + 1 = p' := strictMono_unitsAt.injective heq
  rcases Nat.mod_two_eq_zero_or_one p with heven | hodd
  · have := (h'.odd (by omega)).1
    linarith
  · have := (h.odd hodd).2
    linarith

theorem Covers.unique {p p' : Nat} {q : ℚ} (h : Covers p q) (h' : Covers p' q) : p = p' :=
  Nat.le_antisymm (Nat.not_lt.1 (h'.not_lt h)) (Nat.not_lt.1 (h.not_lt h'))

/-- A number covers itself. -/
theorem covers_unitsAt (p : Nat) : Covers p (unitsAt p) := by
  have hbelow : (unitsAt (p - 1) : ℚ) ≤ unitsAt p := by
    exact_mod_cast strictMono_unitsAt.monotone (Nat.sub_le p 1)
  have habove : (unitsAt p : ℚ) < unitsAt (p + 1) := by exact_mod_cast unitsAt_lt_succ p
  refine ⟨by linarith, by linarith, fun hodd => ⟨?_, by linarith⟩⟩
  have hbelow' : (unitsAt (p - 1) : ℚ) < unitsAt p := by
    exact_mod_cast strictMono_unitsAt (show p - 1 < p by omega)
  linarith

/-- Past the middle of two numbers the one on that side is nearer, and on a tie the quantity is the
middle. -/
theorem abs_sub_le_of_middle {a b q : ℚ} (h : b < a ∧ a + b ≤ 2 * q ∨ a < b ∧ 2 * q ≤ a + b) :
    |a - q| ≤ |b - q| ∧ (|b - q| = |a - q| → a + b = 2 * q) := by
  rcases h with ⟨hab, hq⟩ | ⟨hab, hq⟩ <;>
    rcases abs_cases (a - q) with ⟨ha, _⟩ | ⟨ha, _⟩ <;>
    rcases abs_cases (b - q) with ⟨hb, _⟩ | ⟨hb, _⟩ <;>
    rw [ha, hb] <;> exact ⟨by linarith, fun heq => by linarith⟩

/-- No number is nearer than the one that covers the quantity; on a tie its pattern is even. -/
theorem Covers.nearest {p : Nat} {q : ℚ} (h : Covers p q) (p' : Nat) :
    |(unitsAt p : ℚ) - q| ≤ |(unitsAt p' : ℚ) - q|
      ∧ (p' ≠ p → |(unitsAt p' : ℚ) - q| = |(unitsAt p : ℚ) - q| → p % 2 = 0) := by
  rcases Nat.lt_trichotomy p' p with hlt | rfl | hgt
  · have hlt' : (unitsAt p' : ℚ) < unitsAt p := by exact_mod_cast strictMono_unitsAt hlt
    have hle : (unitsAt p' : ℚ) ≤ unitsAt (p - 1) := by
      exact_mod_cast strictMono_unitsAt.monotone (show p' ≤ p - 1 by omega)
    obtain ⟨hnear, htie⟩ := abs_sub_le_of_middle (q := q) (Or.inl ⟨hlt', by linarith [h.low]⟩)
    refine ⟨hnear, fun _ heq => Nat.mod_two_ne_one.1 fun hodd => ?_⟩
    linarith [htie heq, (h.odd hodd).1]
  · exact ⟨le_refl _, fun hne => absurd rfl hne⟩
  · have hlt' : (unitsAt p : ℚ) < unitsAt p' := by exact_mod_cast strictMono_unitsAt hgt
    have hle : (unitsAt (p + 1) : ℚ) ≤ unitsAt p' := by
      exact_mod_cast strictMono_unitsAt.monotone (show p + 1 ≤ p' by omega)
    obtain ⟨hnear, htie⟩ := abs_sub_le_of_middle (q := q) (Or.inr ⟨hlt', by linarith [h.high]⟩)
    refine ⟨hnear, fun _ heq => Nat.mod_two_ne_one.1 fun hodd => ?_⟩
    linarith [htie heq, (h.odd hodd).2]

/-! ## The pattern of the nearest number -/

/-- The pattern of the nearest number, with exponents without bound. -/
def nearestPattern (num den : Nat) : Nat :=
  ((num / den).log2 - 52) * fractions + roundHalfEven num (den <<< ((num / den).log2 - 52))

theorem nearestBits_eq_min (num den : Nat) :
    nearestBits num den = min (nearestPattern num den) infinityBits := by
  unfold nearestBits nearestPattern
  dsimp only
  split <;> omega

/-- The same without fractions. -/
theorem covers_div_iff {p num den : Nat} (hd : 0 < den) :
    Covers p (num / den) ↔ (unitsAt (p - 1) + unitsAt p) * den ≤ 2 * num
      ∧ 2 * num ≤ (unitsAt p + unitsAt (p + 1)) * den
      ∧ (p % 2 = 1 → (unitsAt (p - 1) + unitsAt p) * den < 2 * num
        ∧ 2 * num < (unitsAt p + unitsAt (p + 1)) * den) := by
  have hd' : (0 : ℚ) < den := by exact_mod_cast hd
  have hq : 2 * ((num : ℚ) / den) = (2 * num) / den := by ring
  constructor
  · rintro ⟨hlow, hhigh, hodd⟩
    rw [hq] at hlow hhigh hodd
    rw [le_div_iff₀ hd'] at hlow
    rw [div_le_iff₀ hd'] at hhigh
    rw [lt_div_iff₀ hd', div_lt_iff₀ hd'] at hodd
    exact ⟨by exact_mod_cast hlow, by exact_mod_cast hhigh, by exact_mod_cast hodd⟩
  · rintro ⟨hlow, hhigh, hodd⟩
    refine ⟨?_, ?_, fun h => ?_⟩
    · rw [hq, le_div_iff₀ hd']
      exact_mod_cast hlow
    · rw [hq, div_le_iff₀ hd']
      exact_mod_cast hhigh
    · rw [hq, lt_div_iff₀ hd', div_lt_iff₀ hd']
      exact_mod_cast hodd h

/-- The exponent is the one at which the quotient has the digits of a significand. -/
theorem quotient_bounds (num : Nat) {den : Nat} (hd : 0 < den) :
    num < 2 * fractions * (den * 2 ^ ((num / den).log2 - 52))
      ∧ ((num / den).log2 - 52 ≠ 0 → fractions * (den * 2 ^ ((num / den).log2 - 52)) ≤ num) := by
  have hpow : ∀ e, 2 * fractions * (den * 2 ^ e) = den * 2 ^ (e + 53) := by
    intro e
    rw [pow_add, show 2 * fractions = 2 ^ 53 by decide]
    ring
  constructor
  · have hlt : num / den < 2 ^ ((num / den).log2 - 52 + 53) :=
      Nat.lt_of_lt_of_le Nat.lt_log2_self (Nat.pow_le_pow_right (by decide) (by omega))
    rw [hpow]
    calc num < den * (num / den + 1) := Nat.lt_mul_div_succ num hd
      _ ≤ den * 2 ^ ((num / den).log2 - 52 + 53) := Nat.mul_le_mul_left den hlt
  · intro he
    have hne : num / den ≠ 0 := by
      rintro h0
      rw [h0] at he
      exact he rfl
    have hlog : (num / den).log2 - 52 + 52 = (num / den).log2 := by omega
    calc fractions * (den * 2 ^ ((num / den).log2 - 52))
        = den * 2 ^ ((num / den).log2 - 52 + 52) := by
          rw [pow_add, show fractions = 2 ^ 52 by decide]
          ring
      _ ≤ den * (num / den) := by
          rw [hlog]
          exact Nat.mul_le_mul_left den (Nat.log2_self_le hne)
      _ ≤ num := Nat.mul_div_le num den

/-- A quantity within half a step of a significand. -/
theorem covers_of_significand {e m num den : Nat} (hd : 0 < den) (hm : m < 2 * fractions)
    (hfirst : e ≠ 0 → fractions ≤ m ∧ fractions * (den * 2 ^ e) ≤ num)
    (hlow : 2 * (m * (den * 2 ^ e)) ≤ 2 * num + den * 2 ^ e)
    (hhigh : 2 * num ≤ 2 * (m * (den * 2 ^ e)) + den * 2 ^ e)
    (hodd : m % 2 = 1 → 2 * (m * (den * 2 ^ e)) < 2 * num + den * 2 ^ e
      ∧ 2 * num < 2 * (m * (den * 2 ^ e)) + den * 2 ^ e) :
    Covers (e * fractions + m) (num / den) := by
  have he : e = 0 ∨ fractions ≤ m := by
    by_cases h0 : e = 0
    · exact Or.inl h0
    · exact Or.inr (hfirst h0).1
  have habove : (unitsAt (e * fractions + m) + unitsAt (e * fractions + m + 1)) * den
      = 2 * (m * (den * 2 ^ e)) + den * 2 ^ e := by
    rw [unitsAt_add hm he, unitsAt_add_one hm he]
    ring
  have hparity : (e * fractions + m) % 2 = m % 2 := by
    unfold fractions
    omega
  rw [covers_div_iff hd, habove, hparity]
  by_cases hedge : e ≠ 0 ∧ m = fractions
  · -- below a power of two the gap is narrower, but then the quantity is not below it
    obtain ⟨h0, rfl⟩ := hedge
    have hpred : unitsAt (e * fractions + fractions - 1) ≤ unitsAt (e * fractions + fractions) :=
      strictMono_unitsAt.monotone (Nat.sub_le _ 1)
    have hbelow : (unitsAt (e * fractions + fractions - 1) + unitsAt (e * fractions + fractions))
        * den ≤ 2 * num := by
      calc (unitsAt (e * fractions + fractions - 1) + unitsAt (e * fractions + fractions)) * den
          ≤ (2 * unitsAt (e * fractions + fractions)) * den := Nat.mul_le_mul_right den (by omega)
        _ = 2 * (fractions * (den * 2 ^ e)) := by
          rw [unitsAt_add hm he]
          ring
        _ ≤ 2 * num := Nat.mul_le_mul_left 2 (hfirst h0).2
    exact ⟨hbelow, hhigh, fun hm1 => absurd hm1 (by decide)⟩
  · rcases Nat.eq_zero_or_pos m with rfl | hpos
    · have h0 : e = 0 := by
        unfold fractions at he
        omega
      subst h0
      refine ⟨?_, hhigh, fun hm1 => absurd hm1 (by decide)⟩
      simp [unitsAt_zero]
    · have hbelow : (unitsAt (e * fractions + m - 1) + unitsAt (e * fractions + m)) * den
          + den * 2 ^ e = 2 * (m * (den * 2 ^ e)) := by
        obtain ⟨k, rfl⟩ : ∃ k, m = k + 1 := ⟨m - 1, by omega⟩
        rw [unitsAt_pred hm (by omega) hpos, unitsAt_add hm he, Nat.add_sub_cancel]
        ring
      exact ⟨by omega, hhigh, fun hm1 => ⟨by have := hodd hm1; omega, (hodd hm1).2⟩⟩

/-- A significand that is rounded up out of its range is the first one of the next exponent. -/
theorem covers_of_carry {e num den : Nat} (hd : 0 < den)
    (hlow : 2 * (2 * fractions * (den * 2 ^ e)) ≤ 2 * num + den * 2 ^ e)
    (hlt : num < 2 * fractions * (den * 2 ^ e)) :
    Covers (e * fractions + 2 * fractions) (num / den) := by
  have hp : e * fractions + 2 * fractions = (e + 1) * fractions + fractions := by ring
  have hat : unitsAt ((e + 1) * fractions + fractions) = fractions * 2 ^ (e + 1) :=
    unitsAt_add (by decide) (Or.inr (Nat.le_refl _))
  have hnext := unitsAt_lt_succ ((e + 1) * fractions + fractions)
  rw [covers_div_iff hd, hp]
  refine ⟨?_, ?_, fun hodd => ?_⟩
  · have hbelow : ((2 * fractions - 1) * 2 ^ e + fractions * 2 ^ (e + 1)) * den + den * 2 ^ e
        = 2 * (2 * fractions * (den * 2 ^ e)) := by
      obtain ⟨k, hk⟩ : ∃ k, fractions = k + 1 := ⟨fractions - 1, by decide⟩
      rw [hk, pow_succ, show 2 * (k + 1) - 1 = 2 * k + 1 by omega]
      ring
    rw [unitsAt_pred_carry, hat]
    omega
  · calc 2 * num ≤ 2 * (2 * fractions * (den * 2 ^ e)) := Nat.mul_le_mul_left 2 hlt.le
      _ = (2 * (fractions * 2 ^ (e + 1))) * den := by ring
      _ ≤ (unitsAt ((e + 1) * fractions + fractions)
          + unitsAt ((e + 1) * fractions + fractions + 1)) * den :=
        Nat.mul_le_mul_right den (by omega)
  · unfold fractions at hodd
    omega

theorem covers_nearestPattern (num : Nat) {den : Nat} (hd : 0 < den) :
    Covers (nearestPattern num den) (num / den) := by
  obtain ⟨hlt, hge⟩ := quotient_bounds num hd
  rw [nearestPattern, Nat.shiftLeft_eq]
  generalize (num / den).log2 - 52 = e at hlt hge ⊢
  have hstep : 0 < den * 2 ^ e := Nat.mul_pos hd (Nat.two_pow_pos e)
  obtain ⟨hlow, hhigh, hodd⟩ := roundHalfEven_spec num hstep
  generalize roundHalfEven num (den * 2 ^ e) = m at hlow hhigh hodd ⊢
  have hm : m ≤ 2 * fractions := by
    by_contra hcon
    have : (2 * fractions + 1) * (den * 2 ^ e) ≤ m * (den * 2 ^ e) :=
      Nat.mul_le_mul_right _ (by omega)
    rw [Nat.add_mul, Nat.one_mul] at this
    omega
  have hfirst : e ≠ 0 → fractions ≤ m := by
    intro he
    by_contra hcon
    have : (m + 1) * (den * 2 ^ e) ≤ fractions * (den * 2 ^ e) :=
      Nat.mul_le_mul_right _ (by omega)
    rw [Nat.add_mul, Nat.one_mul] at this
    have := hge he
    omega
  rcases hm.lt_or_eq with hm | rfl
  · exact covers_of_significand hd hm (fun he => ⟨hfirst he, hge he⟩) hlow hhigh hodd
  · exact covers_of_carry hd hlow hlt

/-- Where the result is no infinity it covers the quantity. -/
theorem covers_nearestBits {num den : Nat} (hd : 0 < den)
    (h : nearestBits num den < infinityBits) : Covers (nearestBits num den) (num / den) := by
  rw [nearestBits_eq_min] at h ⊢
  rw [min_eq_left (by omega)]
  exact covers_nearestPattern num hd

/-- Infinity stands for the quantities from `2 ^ 1024` on, in units, and half a step below. -/
theorem unitsAt_infinityBits : unitsAt infinityBits = 2 ^ 2098 := by
  rw [show infinityBits = 2046 * fractions + fractions by decide,
    unitsAt_add (by decide) (Or.inr (Nat.le_refl _)), show fractions = 2 ^ 52 by decide, ← pow_add]

theorem nearestBits_lt {num den : Nat} (hd : 0 < den) (h : num < 2 ^ 2097 * den) :
    nearestBits num den < infinityBits := by
  rw [nearestBits_eq_min]
  by_contra hcon
  have hge : infinityBits ≤ nearestPattern num den := by omega
  have hlow := ((covers_div_iff hd).1 (covers_nearestPattern num hd)).1
  have hunits : 2 ^ 2098 ≤ unitsAt (nearestPattern num den) :=
    unitsAt_infinityBits ▸ strictMono_unitsAt.monotone hge
  have : 2 ^ 2098 * den ≤ 2 * num :=
    (Nat.mul_le_mul_right den (hunits.trans (Nat.le_add_left _ _))).trans hlow
  rw [show 2 ^ 2098 = 2 * 2 ^ 2097 by rw [← pow_succ'], Nat.mul_assoc] at this
  omega

/-! ## The nearest number -/

theorem magnitudeBits_ofMagnitude (negative : Bool) {p : Nat} (hp : p < signBit) :
    (ofMagnitude negative p).magnitudeBits = p := by
  unfold magnitudeBits ofMagnitude
  rw [UInt64.toNat_ofNat']
  unfold signBit at *
  cases negative <;> simp only [Bool.false_eq_true, if_true, if_false] <;> omega

theorem isNegative_ofMagnitude (negative : Bool) {p : Nat} (hp : p < signBit) :
    (ofMagnitude negative p).isNegative = negative := by
  unfold isNegative ofMagnitude
  rw [UInt64.toNat_ofNat']
  unfold signBit at *
  cases negative <;> simp only [Bool.false_eq_true, if_true, if_false, decide_eq_true_eq,
    decide_eq_false_iff_not] <;> omega

theorem ofMagnitude_self (x : Binary64) : ofMagnitude x.isNegative x.magnitudeBits = x := by
  obtain ⟨bits⟩ := x
  have hlt := bits.toNat_lt
  have hbits : (if isNegative ⟨bits⟩ = true then signBit + magnitudeBits ⟨bits⟩
      else magnitudeBits ⟨bits⟩) = bits.toNat := by
    unfold isNegative magnitudeBits signBit
    simp only [decide_eq_true_eq]
    split <;> omega
  rw [ofMagnitude, hbits, UInt64.ofNat_toNat]

theorem significand_mod_two (x : Binary64) : x.significand % 2 = x.magnitudeBits % 2 := by
  unfold significand exponent fractions
  omega

/-- The magnitude of the number with the given pattern. -/
def magnitudeAt (p : Nat) : ℚ := unitsAt p / 2 ^ 1074

def signed (negative : Bool) (q : ℚ) : ℚ := if negative then -q else q

/-- The number that a finite pattern stands for. -/
def toRat (x : Binary64) : ℚ := signed x.isNegative (x.units / 2 ^ 1074)

theorem toRat_eq (x : Binary64) : x.toRat = signed x.isNegative (magnitudeAt x.magnitudeBits) := by
  rw [toRat, units_eq_unitsAt, magnitudeAt]

/-- No finite number is nearer, and if another one is as near the significand is even. -/
structure IsNearest (q : ℚ) (x : Binary64) : Prop where
  finite : x.isFinite = true
  nearest : ∀ y : Binary64, y.isFinite = true → |x.toRat - q| ≤ |y.toRat - q|
  even : ∀ y : Binary64, y.isFinite = true → y.toRat ≠ x.toRat →
    |y.toRat - q| = |x.toRat - q| → x.significand % 2 = 0

theorem magnitudeAt_nonneg (p : Nat) : 0 ≤ magnitudeAt p :=
  div_nonneg (Nat.cast_nonneg _) (pow_pos two_pos _).le

theorem Covers.eq_zero {p : Nat} (h : Covers p 0) : p = 0 := by
  by_contra hne
  have hpos : (0 : ℚ) < unitsAt p := by
    exact_mod_cast unitsAt_zero ▸ strictMono_unitsAt (Nat.pos_of_ne_zero hne)
  have hnonneg : (0 : ℚ) ≤ unitsAt (p - 1) := Nat.cast_nonneg _
  linarith [h.low]

/-- Distances in units. -/
theorem abs_unitsAt_sub (p : Nat) (q : ℚ) :
    |(unitsAt p : ℚ) - q * 2 ^ 1074| = |magnitudeAt p - q| * 2 ^ 1074 := by
  have hpow : (0 : ℚ) < 2 ^ 1074 := pow_pos two_pos 1074
  rw [← abs_of_pos hpow, ← abs_mul, abs_of_pos hpow, sub_mul, magnitudeAt,
    div_mul_cancel₀ _ hpow.ne']

theorem Covers.nearest_magnitudeAt {p : Nat} {q : ℚ} (h : Covers p (q * 2 ^ 1074)) (p' : Nat) :
    |magnitudeAt p - q| ≤ |magnitudeAt p' - q|
      ∧ (p' ≠ p → |magnitudeAt p' - q| = |magnitudeAt p - q| → p % 2 = 0) := by
  have hpow : (0 : ℚ) < 2 ^ 1074 := pow_pos two_pos 1074
  obtain ⟨hle, heven⟩ := h.nearest p'
  rw [abs_unitsAt_sub, abs_unitsAt_sub] at hle heven
  exact ⟨le_of_mul_le_mul_right hle hpow, fun hne heq => heven hne (by rw [heq])⟩

/-- Two magnitudes are as far apart with a common sign. -/
theorem abs_signed_sub_signed (s : Bool) (a q : ℚ) : |signed s a - signed s q| = |a - q| := by
  cases s
  · rfl
  · rw [signed, signed, if_pos rfl, if_pos rfl, ← abs_neg]
    ring_nf

theorem abs_signed_sub_opposite {a q : ℚ} (ha : 0 ≤ a) (hq : 0 ≤ q) {t s : Bool} (h : t ≠ s) :
    |signed t a - signed s q| = a + q := by
  cases t <;> cases s
  · exact absurd rfl h
  · rw [signed, signed, if_neg Bool.false_ne_true, if_pos rfl, sub_neg_eq_add,
      abs_of_nonneg (add_nonneg ha hq)]
  · rw [signed, signed, if_pos rfl, if_neg Bool.false_ne_true, ← neg_add', abs_neg,
      abs_of_nonneg (add_nonneg ha hq)]
  · exact absurd rfl h

theorem abs_sub_le_signed {a q : ℚ} (ha : 0 ≤ a) (hq : 0 ≤ q) (t s : Bool) :
    |a - q| ≤ |signed t a - signed s q| := by
  by_cases h : t = s
  · rw [h, abs_signed_sub_signed]
  · rw [abs_signed_sub_opposite ha hq h]
    exact abs_le.2 ⟨by linarith, by linarith⟩

theorem lt_signBit_of_lt {p : Nat} (hp : p < infinityBits) : p < signBit := by
  unfold infinityBits at hp
  unfold signBit
  omega

theorem not_isInfinite_of_isFinite {x : Binary64} (h : x.isFinite = true) :
    ¬ x.isInfinite = true := by
  have hlt : x.magnitudeBits < infinityBits := of_decide_eq_true h
  simpa [isInfinite] using hlt.ne

theorem not_isNaN_of_isFinite {x : Binary64} (h : x.isFinite = true) : ¬ x.isNaN = true := by
  have hlt : x.magnitudeBits < infinityBits := of_decide_eq_true h
  simpa [isNaN] using hlt.le

theorem isFinite_ofMagnitude (negative : Bool) {p : Nat} (hp : p < infinityBits) :
    (ofMagnitude negative p).isFinite = true := by
  rwa [isFinite, magnitudeBits_ofMagnitude negative (lt_signBit_of_lt hp), decide_eq_true_eq]

theorem toRat_ofMagnitude (negative : Bool) {p : Nat} (hp : p < infinityBits) :
    (ofMagnitude negative p).toRat = signed negative (magnitudeAt p) := by
  rw [toRat_eq, magnitudeBits_ofMagnitude negative (lt_signBit_of_lt hp),
    isNegative_ofMagnitude negative (lt_signBit_of_lt hp)]

theorem isNearest_of_covers (negative : Bool) {p : Nat} {q : ℚ} (hp : p < infinityBits)
    (hq : 0 ≤ q) (h : Covers p (q * 2 ^ 1074)) :
    IsNearest (signed negative q) (ofMagnitude negative p) := by
  have hbits := magnitudeBits_ofMagnitude negative (lt_signBit_of_lt hp)
  have hx := toRat_ofMagnitude negative hp
  refine ⟨isFinite_ofMagnitude negative hp, fun y _ => ?_, fun y _ hne htie => ?_⟩
  · rw [hx, abs_signed_sub_signed, toRat_eq]
    exact (h.nearest_magnitudeAt _).1.trans (abs_sub_le_signed (magnitudeAt_nonneg _) hq _ _)
  · obtain ⟨hnear, heven⟩ := h.nearest_magnitudeAt y.magnitudeBits
    rw [hx, abs_signed_sub_signed, toRat_eq] at htie
    rw [significand_mod_two, hbits]
    have hle := abs_sub_le_signed (magnitudeAt_nonneg y.magnitudeBits) hq y.isNegative negative
    by_cases hmag : y.magnitudeBits = p
    · -- the same magnitude with the other sign is as near for zero only
      rw [hx, toRat_eq, hmag] at hne
      have hsigns : y.isNegative ≠ negative := fun hs => hne (by rw [hs])
      rw [hmag, abs_signed_sub_opposite (magnitudeAt_nonneg p) hq hsigns] at htie
      by_cases hq0 : q = 0
      · rw [hq0, zero_mul] at h
        rw [h.eq_zero]
      · have hpos := lt_of_le_of_ne hq (Ne.symm hq0)
        have hnonneg := magnitudeAt_nonneg p
        have hzero : magnitudeAt p = 0 := by
          rcases abs_cases (magnitudeAt p - q) with ⟨habs, _⟩ | ⟨habs, _⟩ <;> linarith
        rw [hzero] at hne
        exact absurd (by cases y.isNegative <;> cases negative <;> simp [signed]) hne
    · exact heven hmag (le_antisymm (hle.trans htie.le) hnear)

/-- A whole number of `2 ^ k` units. -/
theorem covers_shiftLeft {n k : Nat} (h : nearestBits (n <<< k) 1 < infinityBits) :
    Covers (nearestBits (n <<< k) 1) (n * 2 ^ k) := by
  have hcovers := covers_nearestBits Nat.one_pos h
  rwa [Nat.cast_one, div_one, Nat.shiftLeft_eq, Nat.cast_mul, Nat.cast_pow, Nat.cast_ofNat,
    ← Nat.shiftLeft_eq] at hcovers

theorem nearestBits_shiftLeft_lt {n a k : Nat} (hk : a + k = 2097) (h : n < 2 ^ a) :
    nearestBits (n <<< k) 1 < infinityBits := by
  refine nearestBits_lt Nat.one_pos ?_
  rw [Nat.shiftLeft_eq, mul_one, ← hk, pow_add]
  exact Nat.mul_lt_mul_of_pos_right h (Nat.two_pow_pos k)

theorem signed_natAbs (n : Int) : signed (decide (n < 0)) n.natAbs = n := by
  unfold signed
  rcases lt_or_ge n 0 with hneg | hpos
  · have habs : (n.natAbs : Int) = -n := by omega
    rw [if_pos (decide_eq_true hneg), ← Int.cast_natCast, habs, Int.cast_neg, neg_neg]
  · have habs : (n.natAbs : Int) = n := by omega
    rw [if_neg (by simpa using hpos), ← Int.cast_natCast, habs]

theorem isNearest_ofInt {n : Int} (hn : n.natAbs < 2 ^ 1023) : IsNearest n (ofInt n) := by
  have hlt := nearestBits_shiftLeft_lt (k := 1074) rfl hn
  rw [← signed_natAbs n]
  exact isNearest_of_covers (decide (n < 0)) hlt (Nat.cast_nonneg _) (covers_shiftLeft hlt)

end Binary64

end ScriptWriter
