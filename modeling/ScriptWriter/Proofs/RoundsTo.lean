import ScriptWriter.Proofs.Rounding

/-!
# Rounding as a relation

A quantity rounds to a finite number if no finite number is nearer, the significand is even on a
tie, and the quantity is not so large that it rounds to infinity: it does from half a step past the
largest number on (`RoundsTo`). This says the same as that the number covers the magnitude of the
quantity (`covers_of_roundsTo`, `roundsTo_of_covers`): only the two numbers beside it have to be
compared, and past the largest number the bound stands in for the one that is missing.
-/

namespace ScriptWriter.Binary64

/-- The quantity rounds to the finite number, a tie to the even significand. From the middle of the
largest number and `2 ^ 1024` on it would round to infinity. -/
structure RoundsTo (q : ℚ) (x : Binary64) : Prop extends IsNearest q x where
  inRange : |q| < 2 ^ 1024 - 2 ^ 970

/-! ## The largest number -/

theorem unitsAt_last : unitsAt (infinityBits - 1) + 2 ^ 2045 = 2 ^ 2098 := by
  rw [show infinityBits - 1 = (2045 + 1) * fractions + fractions - 1 by decide, unitsAt_pred_carry,
    show 2 * fractions = 2 ^ 53 by decide, ← Nat.add_one_mul,
    Nat.sub_one_add_one (Nat.two_pow_pos 53).ne', ← pow_add]

/-- The bound is the middle of the last gap. -/
theorem last_middle : (2 : ℚ) * ((2 ^ 1024 - 2 ^ 970) * 2 ^ 1074)
    = unitsAt (infinityBits - 1) + unitsAt infinityBits := by
  have hlast := congrArg (Nat.cast (R := ℚ)) unitsAt_last
  have hhalf : (2 : ℚ) ^ 2045 = 2 * 2 ^ 2044 := pow_succ' 2 2044
  rw [Nat.cast_add, Nat.cast_pow, Nat.cast_pow, Nat.cast_ofNat, hhalf] at hlast
  rw [unitsAt_infinityBits, Nat.cast_pow, Nat.cast_ofNat, sub_mul, ← pow_add, ← pow_add]
  generalize (2 : ℚ) ^ 2044 = half at *
  generalize (2 : ℚ) ^ 2098 = past at *
  linarith

/-- A finite number covers no quantity from the bound on: the largest one has an odd pattern. -/
theorem Covers.lt_bound {p : Nat} {q : ℚ} (hp : p < infinityBits) (h : Covers p (q * 2 ^ 1074)) :
    q < 2 ^ 1024 - 2 ^ 970 := by
  have hscale : (0 : ℚ) < 2 ^ 1074 := pow_pos two_pos _
  have hmiddle := last_middle
  refine lt_of_mul_lt_mul_right ?_ hscale.le
  generalize q * 2 ^ 1074 = units at *
  generalize ((2 : ℚ) ^ 1024 - 2 ^ 970) * 2 ^ 1074 = bound at *
  rcases (Nat.le_sub_one_of_lt hp).eq_or_lt with rfl | hlt
  · have hhigh := (h.odd (by decide)).2
    rw [show infinityBits - 1 + 1 = infinityBits by decide] at hhigh
    linarith
  · have hlast : (unitsAt p : ℚ) < unitsAt (infinityBits - 1) := by
      exact_mod_cast strictMono_unitsAt hlt
    have hnext : (unitsAt (p + 1) : ℚ) ≤ unitsAt infinityBits := by
      exact_mod_cast strictMono_unitsAt.monotone hp
    linarith [h.high]

theorem abs_signed (s : Bool) {q : ℚ} (hq : 0 ≤ q) : |signed s q| = q := by
  cases s
  · exact abs_of_nonneg hq
  · rw [signed, if_pos rfl, abs_neg, abs_of_nonneg hq]

theorem roundsTo_of_covers (negative : Bool) {p : Nat} {q : ℚ} (hp : p < infinityBits) (hq : 0 ≤ q)
    (h : Covers p (q * 2 ^ 1074)) : RoundsTo (signed negative q) (ofMagnitude negative p) where
  toIsNearest := isNearest_of_covers negative hp hq h
  inRange := by
    rw [abs_signed negative hq]
    exact h.lt_bound hp

/-! ## Only the neighbours have to be compared -/

/-- The upper of two numbers is the nearer one from the middle on. -/
theorem abs_upper_sub_le_iff {a b q : ℚ} (h : b < a) : |a - q| ≤ |b - q| ↔ a + b ≤ 2 * q := by
  refine ⟨fun hle => not_lt.1 fun hlt => ?_, fun hq => (abs_sub_le_of_middle (Or.inl ⟨h, hq⟩)).1⟩
  obtain ⟨hnear, htie⟩ := abs_sub_le_of_middle (a := b) (b := a) (q := q)
    (Or.inr ⟨h, by linarith⟩)
  linarith [htie (le_antisymm hle hnear)]

/-- The lower one is the nearer one up to the middle. -/
theorem abs_lower_sub_le_iff {a b q : ℚ} (h : b < a) : |b - q| ≤ |a - q| ↔ 2 * q ≤ a + b := by
  refine ⟨fun hle => not_lt.1 fun hlt => ?_, fun hq => ?_⟩
  · obtain ⟨hnear, htie⟩ := abs_sub_le_of_middle (a := a) (b := b) (q := q)
      (Or.inl ⟨h, by linarith⟩)
    linarith [htie (le_antisymm hle hnear)]
  · exact (abs_sub_le_of_middle (Or.inr ⟨h, by linarith⟩)).1

theorem magnitudeAt_injective : Function.Injective magnitudeAt := by
  intro p p' h
  rw [magnitudeAt, magnitudeAt, div_left_inj' (pow_pos two_pos _).ne'] at h
  exact strictMono_unitsAt.injective (by exact_mod_cast h)

/-- The magnitude of the nearest number compared with another one, in units. -/
theorem IsNearest.abs_unitsAt_le {s : Bool} {q : ℚ} {x : Binary64} (hq : 0 ≤ q)
    (h : IsNearest (signed s q) x) {p : Nat} (hp : p < infinityBits) (hne : p ≠ x.magnitudeBits) :
    |(unitsAt x.magnitudeBits : ℚ) - q * 2 ^ 1074| ≤ |(unitsAt p : ℚ) - q * 2 ^ 1074|
      ∧ (x.magnitudeBits % 2 = 1 →
        |(unitsAt x.magnitudeBits : ℚ) - q * 2 ^ 1074| < |(unitsAt p : ℚ) - q * 2 ^ 1074|) := by
  have hscale : (0 : ℚ) < 2 ^ 1074 := pow_pos two_pos _
  have hfinite := isFinite_ofMagnitude s hp
  have hlow : |magnitudeAt x.magnitudeBits - q| ≤ |x.toRat - signed s q| := by
    rw [toRat_eq]
    exact abs_sub_le_signed (magnitudeAt_nonneg _) hq _ _
  have hy : |(ofMagnitude s p).toRat - signed s q| = |magnitudeAt p - q| := by
    rw [toRat_ofMagnitude s hp, abs_signed_sub_signed]
  have hle := h.nearest _ hfinite
  rw [hy] at hle
  rw [abs_unitsAt_sub, abs_unitsAt_sub]
  refine ⟨mul_le_mul_of_nonneg_right (hlow.trans hle) hscale.le, fun hodd => ?_⟩
  refine mul_lt_mul_of_pos_right (lt_of_le_of_ne (hlow.trans hle) fun htie => ?_) hscale
  have hvalue : (ofMagnitude s p).toRat ≠ x.toRat := by
    intro heq
    have habs := congrArg abs heq
    rw [toRat_ofMagnitude s hp, toRat_eq, abs_signed _ (magnitudeAt_nonneg _),
      abs_signed _ (magnitudeAt_nonneg _)] at habs
    exact hne (magnitudeAt_injective habs)
  have heven := h.even _ hfinite hvalue (by rw [hy]; exact le_antisymm (htie ▸ hlow) hle)
  rw [significand_mod_two] at heven
  omega

theorem IsNearest.middle_le {s : Bool} {q : ℚ} {x : Binary64} (hq : 0 ≤ q)
    (h : IsNearest (signed s q) x) :
    (unitsAt (x.magnitudeBits - 1) + unitsAt x.magnitudeBits : ℚ) ≤ 2 * (q * 2 ^ 1074)
      ∧ (x.magnitudeBits % 2 = 1 →
        (unitsAt (x.magnitudeBits - 1) + unitsAt x.magnitudeBits : ℚ) < 2 * (q * 2 ^ 1074)) := by
  rcases Nat.eq_zero_or_pos x.magnitudeBits with h0 | hpos
  · have hunits : 0 ≤ q * 2 ^ 1074 := mul_nonneg hq (pow_nonneg zero_le_two _)
    rw [h0, unitsAt_zero, Nat.cast_zero, add_zero]
    exact ⟨mul_nonneg zero_le_two hunits, fun hodd => absurd hodd (by decide)⟩
  · have hx : x.magnitudeBits < infinityBits := of_decide_eq_true h.finite
    have hlt : (unitsAt (x.magnitudeBits - 1) : ℚ) < unitsAt x.magnitudeBits := by
      exact_mod_cast strictMono_unitsAt (Nat.sub_one_lt_of_lt hpos)
    have hnear := h.abs_unitsAt_le hq (p := x.magnitudeBits - 1) (by omega) (by omega)
    rwa [abs_upper_sub_le_iff hlt, ← not_le, abs_lower_sub_le_iff hlt, not_le, add_comm] at hnear

/-- Above the largest number, where no finite number is left to compare with, the bound decides. -/
theorem RoundsTo.le_middle {s : Bool} {q : ℚ} {x : Binary64} (hq : 0 ≤ q)
    (h : RoundsTo (signed s q) x) :
    2 * (q * 2 ^ 1074) ≤ unitsAt x.magnitudeBits + unitsAt (x.magnitudeBits + 1)
      ∧ (x.magnitudeBits % 2 = 1 →
        2 * (q * 2 ^ 1074) < unitsAt x.magnitudeBits + unitsAt (x.magnitudeBits + 1)) := by
  have hx : x.magnitudeBits < infinityBits := of_decide_eq_true h.finite
  rcases (Nat.succ_le_of_lt hx).lt_or_eq with hnext | hlast
  · have hlt : (unitsAt x.magnitudeBits : ℚ) < unitsAt (x.magnitudeBits + 1) := by
      exact_mod_cast unitsAt_lt_succ x.magnitudeBits
    have hnear := h.abs_unitsAt_le hq hnext (by omega)
    rwa [abs_lower_sub_le_iff hlt, ← not_le, abs_upper_sub_le_iff hlt, not_le, add_comm] at hnear
  · have hbound := h.inRange
    rw [abs_signed s hq] at hbound
    have hunits := mul_lt_mul_of_pos_left
      (mul_lt_mul_of_pos_right hbound (pow_pos two_pos 1074)) two_pos
    rw [last_middle, ← hlast] at hunits
    exact ⟨hunits.le, fun _ => hunits⟩

theorem covers_of_roundsTo {s : Bool} {q : ℚ} {x : Binary64} (hq : 0 ≤ q)
    (h : RoundsTo (signed s q) x) : Covers x.magnitudeBits (q * 2 ^ 1074) where
  low := (h.middle_le hq).1
  high := (h.le_middle hq).1
  odd hodd := ⟨(h.middle_le hq).2 hodd, (h.le_middle hq).2 hodd⟩

end ScriptWriter.Binary64
