import ScriptWriter.Binary32
import ScriptWriter.Proofs.WholeNumbers
import ScriptWriter.Value.Conversion

/-!
# Conversions keep the number

An unsigned number becomes the integer if it fits and the nearest binary64 number otherwise, which
is also what its decimal text is loaded as. Rounding is monotone and the first number that does not
fit is a power of two, so the order survives the change of kind (`number_le_number`).

A binary32 number has a significand of 24 bits, and every such multiple of a power of two is a
binary64 number, so nothing is rounded (`toRat_toBinary64`), subnormal numbers included. Its number
and its sign determine its pattern (`eq_of_toRat`), so no two patterns are mixed up.

What holds of each number converted on its own holds of every number inside optional values, lists
and dictionaries, in place and in order (`carries_toValue`).
-/

namespace ScriptWriter

/-! ## Rounding whole numbers -/

namespace Binary64

theorem Covers.le_of_le {p p' : Nat} {q q' : ℚ} (h : Covers p q) (h' : Covers p' q') (hq : q ≤ q') :
    p ≤ p' := by
  by_contra hlt
  have hge := h'.le_of_lt h (not_le.1 hlt)
  obtain rfl := le_antisymm hq hge
  exact hlt (h.unique h').le

theorem magnitudeAt_mono {p p' : Nat} (h : p ≤ p') : magnitudeAt p ≤ magnitudeAt p' := by
  have hunits : (unitsAt p : ℚ) ≤ unitsAt p' := by exact_mod_cast strictMono_unitsAt.monotone h
  exact div_le_div_of_nonneg_right hunits (pow_nonneg zero_le_two _)

theorem toRat_ofInt_natCast {n : Nat} (hn : n < 2 ^ 1023) :
    (ofInt n).toRat = magnitudeAt (nearestBits (n <<< 1074) 1) := by
  have hlt := nearestBits_shiftLeft_lt (k := 1074) rfl hn
  rw [ofInt, Int.natAbs_natCast, decide_eq_false (by omega), toRat_ofMagnitude false hlt]
  rfl

theorem toRat_ofInt_mono {m n : Nat} (h : m ≤ n) (hn : n < 2 ^ 1023) :
    (ofInt m).toRat ≤ (ofInt n).toRat := by
  have hm := nearestBits_shiftLeft_lt (k := 1074) rfl (h.trans_lt hn)
  have hlt := nearestBits_shiftLeft_lt (k := 1074) rfl hn
  have hle : (m * 2 ^ 1074 : ℚ) ≤ n * 2 ^ 1074 :=
    mul_le_mul_of_nonneg_right (Nat.cast_le.2 h) (pow_nonneg zero_le_two _)
  rw [toRat_ofInt_natCast (h.trans_lt hn), toRat_ofInt_natCast hn]
  exact magnitudeAt_mono ((covers_shiftLeft hm).le_of_le (covers_shiftLeft hlt) hle)

/-- A power of two is not rounded. -/
theorem toRat_ofInt_two_pow {k : Nat} (hk : k < 1023) : (ofInt (2 ^ k : Nat)).toRat = 2 ^ k := by
  have hn : 2 ^ k < 2 ^ 1023 := pow_lt_pow_right₀ one_lt_two hk
  have hlt := nearestBits_shiftLeft_lt (k := 1074) rfl hn
  obtain ⟨p, hp⟩ := exists_unitsAt (k + 1074) (show 1 < 2 * fractions by decide)
  rw [one_mul, pow_add] at hp
  have hself := covers_unitsAt p
  rw [hp, Nat.cast_mul, Nat.cast_pow 2 1074, Nat.cast_ofNat] at hself
  rw [toRat_ofInt_natCast hn, (covers_shiftLeft hlt).unique hself, magnitudeAt_of_unitsAt hp,
    Nat.cast_pow, Nat.cast_ofNat]

end Binary64

/-! ## Unsigned numbers -/

namespace Value

/-- The finite number that a value is, if it is one. -/
def number? : Value → Option ℚ
  | .int n => some n.toInt
  | .float x => if x.isFinite then some x.toRat else none
  | _ => none

/-- The value is the whole number as an integer if it fits, and otherwise the nearest binary64
number. It is what the decimal of the number is loaded as, either way. -/
structure KeepsNatural (n : Nat) (v : Value) : Prop where
  int : n ≤ 2 ^ 63 - 1 → ∃ i : Int64, v = .int i ∧ i.toInt = n
  float : 2 ^ 63 - 1 < n → ∃ x, v = .float x ∧ Binary64.IsNearest n x
  loaded : ∀ text : String, Literal.IsCanonical n text.toList →
    read text = .ok v ∧ readFirstFit text = .ok v

theorem ofInt_of_le {n : Nat} (h : n ≤ 2 ^ 63 - 1) : ofInt n = .int (Int64.ofInt n) := by
  have hmin : Int64.minValue.toInt = -9223372036854775808 := rfl
  have hmax : Int64.maxValue.toInt = 9223372036854775807 := rfl
  rw [ofInt, if_pos (by omega)]

theorem ofInt_of_lt {n : Nat} (h : 2 ^ 63 - 1 < n) : ofInt n = .float (.ofInt n) := by
  have hmax : Int64.maxValue.toInt = 9223372036854775807 := rfl
  rw [ofInt, if_neg (by omega)]

theorem toInt_ofInt_of_le {n : Nat} (h : n ≤ 2 ^ 63 - 1) : (Int64.ofInt n).toInt = n :=
  Int64.toInt_ofInt_of_le (by omega) (by omega)

open Json.Reader

/-- Only zero has a decimal that starts with a zero. -/
theorem value_pos {digits : List Char} (h : Digits digits)
    (hlead : digits.head? = some '0' → digits = ['0']) (hne : digits ≠ ['0']) :
    0 < Numeral.value digits := by
  refine Nat.pos_of_ne_zero fun hzero => hne ?_
  rw [← toDigits_value h (Or.inr (mt hlead hne)), hzero]
  rfl

/-- The decimal of a natural number is a numeral without a sign. -/
theorem numeral_of_isCanonical {n : Nat} {text : List Char} (h : Literal.IsCanonical n text) :
    ∃ m : Numeral, m.WellFormed ∧ m.text = text ∧ m.isInteger = true ∧ m.negative = false
      ∧ Numeral.value m.whole = n := by
  obtain ⟨sign, digits, rfl, hdigits, hlead, ⟨rfl, hn⟩ | ⟨rfl, hn, hne⟩⟩ := h
  · refine ⟨⟨false, digits, none, none⟩, ⟨hdigits, ?_, by simp, by simp⟩, ?_, rfl, rfl, ?_⟩
    · by_cases h0 : digits.head? = some '0'
      · exact Or.inl (hlead h0)
      · exact Or.inr h0
    · simp [Numeral.text, Numeral.unsignedText, Numeral.fractionText, Numeral.exponentText]
    · exact (Int.ofNat.inj hn).symm
  · have hpos := value_pos hdigits hlead hne
    unfold Numeral.value at hpos
    omega

theorem read_of_readWritten {text : String} {j : Json} (h : Json.readWritten text = .ok j) :
    read text = .ok (loaded j) ∧ readFirstFit text = .ok (loaded j) := by
  unfold read readFirstFit Json.read
  rw [h]
  refine ⟨rfl, ?_⟩
  simp only [bind, Except.bind, firstFit?_eq]
  rfl

theorem read_of_isCanonical {n : Nat} (hn : n < 2 ^ 64) {text : String}
    (h : Literal.IsCanonical n text.toList) :
    read text = .ok (ofInt n) ∧ readFirstFit text = .ok (ofInt n) := by
  obtain ⟨m, hm, htext, hinteger, hnegative, hvalue⟩ := numeral_of_isCanonical h
  have hnumber : m.toNumber? = some (.natural (UInt64.ofNat n)) := by
    unfold Numeral.toNumber?
    rw [hvalue, if_pos ⟨hinteger, hnegative, hn⟩]
  have hread := value_numeral hm hnumber (r := []) trivial maxLevels
  have hwritten : Json.readWritten text = .ok (.number (.natural (UInt64.ofNat n))) := by
    rw [List.append_nil, htext] at hread
    simp only [Json.readWritten, readAll, hread]
    rfl
  have hloaded : loaded (.number (.natural (UInt64.ofNat n))) = ofInt n := by
    refine ofNumber_of_integer? ?_
    rw [Json.Number.integer?, UInt64.toNat_ofNat_of_lt' hn]
  rw [← hloaded]
  exact read_of_readWritten hwritten

theorem keepsNatural_ofInt {n : Nat} (hn : n < 2 ^ 64) : KeepsNatural n (ofInt n) where
  int h := ⟨Int64.ofInt n, ofInt_of_le h, toInt_ofInt_of_le h⟩
  float h := by
    have hlt : (n : Int).natAbs < 2 ^ 1023 :=
      hn.trans (pow_lt_pow_right₀ one_lt_two (by decide))
    exact ⟨.ofInt n, ofInt_of_lt h, Binary64.isNearest_ofInt hlt⟩
  loaded _ h := read_of_isCanonical hn h

/-- The larger number keeps its place, also where one is an integer and the other is rounded. -/
theorem number_le_number {m n : Nat} (h : m ≤ n) (hn : n < 2 ^ 64) :
    ∃ a b, (ofInt m).number? = some a ∧ (ofInt n).number? = some b ∧ a ≤ b := by
  have hlt : n < 2 ^ 1023 := hn.trans (pow_lt_pow_right₀ one_lt_two (by decide))
  have hint {k : Nat} (hk : k ≤ 2 ^ 63 - 1) : (ofInt k).number? = some (k : ℚ) := by
    rw [ofInt_of_le hk, number?, toInt_ofInt_of_le hk, Int.cast_natCast]
  have hfloat {k : Nat} (hk : 2 ^ 63 - 1 < k) (hlt : k < 2 ^ 1023) :
      (ofInt k).number? = some (Binary64.ofInt k).toRat := by
    have hfinite := (Binary64.isNearest_ofInt (n := k) hlt).finite
    rw [ofInt_of_lt hk, number?, if_pos hfinite]
  rcases Nat.lt_or_ge (2 ^ 63 - 1) n with hbig | hsmall
  · rcases Nat.lt_or_ge (2 ^ 63 - 1) m with hbig' | hsmall
    · exact ⟨_, _, hfloat hbig' (h.trans_lt hlt), hfloat hbig hlt, Binary64.toRat_ofInt_mono h hlt⟩
    · refine ⟨_, _, hint hsmall, hfloat hbig hlt, ?_⟩
      calc (m : ℚ) ≤ 2 ^ 63 := by
            have hle : m ≤ 2 ^ 63 := by omega
            exact_mod_cast hle
        _ = (Binary64.ofInt (2 ^ 63 : Nat)).toRat :=
            (Binary64.toRat_ofInt_two_pow (by decide)).symm
        _ ≤ (Binary64.ofInt n).toRat := Binary64.toRat_ofInt_mono (by omega) hlt
  · exact ⟨_, _, hint (h.trans hsmall), hint hsmall, Nat.cast_le.2 h⟩

end Value

/-! ## Binary32 numbers -/

/-- A number has one significand in its range, or one below it at the least exponent. -/
theorem eq_of_significand {f e e' m m' : Nat} (hm : m < 2 * f) (hm' : m' < 2 * f)
    (he : e = 0 ∨ f ≤ m) (he' : e' = 0 ∨ f ≤ m') (h : m * 2 ^ e = m' * 2 ^ e') :
    e = e' ∧ m = m' := by
  have hnot {e e' m m' : Nat} (hm : m < 2 * f) (he' : e' = 0 ∨ f ≤ m')
      (h : m * 2 ^ e = m' * 2 ^ e') : ¬ e < e' := by
    intro hlt
    have hf : f ≤ m' := by omega
    have hle : 2 * f * 2 ^ e ≤ m' * 2 ^ e' := by
      calc 2 * f * 2 ^ e = f * 2 ^ (e + 1) := by rw [pow_succ]; ring
        _ ≤ m' * 2 ^ e' := Nat.mul_le_mul hf (Nat.pow_le_pow_right (by decide) hlt)
    have hgt := Nat.mul_lt_mul_of_pos_right hm (Nat.two_pow_pos e)
    omega
  have hee : e = e' := by
    have h1 := hnot hm he' h
    have h2 := hnot hm' he h.symm
    omega
  subst hee
  exact ⟨rfl, Nat.eq_of_mul_eq_mul_right (Nat.two_pow_pos e) h⟩

namespace Binary32

def isFinite (x : Binary32) : Bool := x.magnitudeBits < infinityBits

def isInfinite (x : Binary32) : Bool := x.magnitudeBits = infinityBits

def isNaN (x : Binary32) : Bool := infinityBits < x.magnitudeBits

/-- The number that a finite pattern stands for. -/
def toRat (x : Binary32) : ℚ := Binary64.signed x.isNegative (x.units / 2 ^ 149)

theorem units_eq (x : Binary32) : x.units = x.significand * 2 ^ x.exponent := Nat.shiftLeft_eq ..

theorem magnitudeBits_eq (x : Binary32) :
    x.magnitudeBits = x.exponent * fractions + x.significand := by
  unfold significand exponent fractions
  omega

theorem significand_spec (x : Binary32) : x.significand < 2 * fractions
    ∧ (x.exponent = 0 ∨ fractions ≤ x.significand) := by
  unfold significand exponent fractions
  omega

theorem exponent_lt {x : Binary32} (h : x.isFinite = true) : x.exponent < 254 := by
  have hlt : x.magnitudeBits < infinityBits := of_decide_eq_true h
  unfold infinityBits at hlt
  unfold exponent fractions
  omega

theorem magnitudeBits_inj {x y : Binary32} (h : x.units = y.units) :
    x.magnitudeBits = y.magnitudeBits := by
  obtain ⟨hx, hxe⟩ := x.significand_spec
  obtain ⟨hy, hye⟩ := y.significand_spec
  rw [units_eq, units_eq] at h
  obtain ⟨he, hm⟩ := eq_of_significand hx hy hxe hye h
  rw [magnitudeBits_eq, magnitudeBits_eq, he, hm]

theorem eq_of_magnitude {x y : Binary32} (hs : x.isNegative = y.isNegative)
    (hm : x.magnitudeBits = y.magnitudeBits) : x = y := by
  obtain ⟨a⟩ := x
  obtain ⟨b⟩ := y
  have ha := a.toNat_lt
  have hb := b.toNat_lt
  have hsign : signBit ≤ a.toNat ↔ signBit ≤ b.toNat := decide_eq_decide.1 hs
  unfold magnitudeBits at hm
  unfold signBit at hm hsign
  dsimp only at hm
  exact congrArg Binary32.mk (UInt32.toNat_inj.1 (by omega))

theorem units_lt {x : Binary32} (h : x.isFinite = true) {k : Nat} (hk : 278 ≤ k) :
    x.units < 2 ^ k := by
  have hm := x.significand_spec.1
  have he := exponent_lt h
  calc x.units = x.significand * 2 ^ x.exponent := x.units_eq
    _ < 2 * fractions * 2 ^ x.exponent := Nat.mul_lt_mul_of_pos_right hm (Nat.two_pow_pos _)
    _ = 2 ^ (24 + x.exponent) := by rw [pow_add]; rfl
    _ ≤ 2 ^ k := Nat.pow_le_pow_right (by decide) (by omega)

/-- The pattern in binary64 stands for the same units, none of which is lost. -/
theorem unitsAt_nearestBits {x : Binary32} (h : x.isFinite = true) :
    Binary64.nearestBits (x.units <<< 925) 1 < Binary64.infinityBits
      ∧ Binary64.unitsAt (Binary64.nearestBits (x.units <<< 925) 1) = x.units * 2 ^ 925 := by
  have hlt := Binary64.nearestBits_shiftLeft_lt (a := 1172) (k := 925) rfl (units_lt h (by decide))
  refine ⟨hlt, ?_⟩
  have hm : x.significand < 2 * Binary64.fractions :=
    x.significand_spec.1.trans (by decide)
  obtain ⟨p, hp⟩ := Binary64.exists_unitsAt (x.exponent + 925) hm
  rw [pow_add, ← mul_assoc, ← units_eq] at hp
  have hself := Binary64.covers_unitsAt p
  rw [hp, Nat.cast_mul, Nat.cast_pow, Nat.cast_ofNat] at hself
  rw [(Binary64.covers_shiftLeft hlt).unique hself, hp]

theorem toBinary64_of_isFinite {x : Binary32} (h : x.isFinite = true) : x.toBinary64
    = .ofMagnitude x.isNegative (Binary64.nearestBits (x.units <<< 925) 1) := by
  simp only [isFinite, decide_eq_true_eq] at h
  rw [toBinary64, if_neg (by omega), if_neg (by omega)]

theorem toBinary64_of_isInfinite {x : Binary32} (h : x.isInfinite = true) :
    x.toBinary64 = .ofMagnitude x.isNegative Binary64.infinityBits := by
  simp only [isInfinite, decide_eq_true_eq] at h
  rw [toBinary64, if_neg (by omega), if_pos h]

/-- The binary64 number is the same number with the same sign, the same infinity, or a NaN too. -/
structure Keeps (x : Binary32) (y : Binary64) : Prop where
  finite : x.isFinite = true →
    y.isFinite = true ∧ y.toRat = x.toRat ∧ y.isNegative = x.isNegative
  infinite : x.isInfinite = true → y.isInfinite = true ∧ y.isNegative = x.isNegative
  nan : x.isNaN = true → y.isNaN = true

theorem toRat_toBinary64 {x : Binary32} (h : x.isFinite = true) :
    x.toBinary64.toRat = x.toRat := by
  obtain ⟨hlt, hunits⟩ := unitsAt_nearestBits h
  rw [toBinary64_of_isFinite h, Binary64.toRat_ofMagnitude _ hlt, toRat, Binary64.magnitudeAt,
    hunits, Nat.cast_mul, Nat.cast_pow, Nat.cast_ofNat]
  refine congrArg (Binary64.signed x.isNegative) ?_
  have hpow : (2 : ℚ) ^ 1074 = 2 ^ 149 * 2 ^ 925 := by rw [← pow_add]
  have hne : (2 : ℚ) ^ 925 ≠ 0 := (pow_pos two_pos _).ne'
  rw [hpow, mul_div_mul_right _ _ hne]

theorem keeps_toBinary64 (x : Binary32) : x.Keeps x.toBinary64 where
  finite h := by
    obtain ⟨hlt, -⟩ := unitsAt_nearestBits h
    refine ⟨?_, toRat_toBinary64 h, ?_⟩ <;> rw [toBinary64_of_isFinite h]
    · exact Binary64.isFinite_ofMagnitude _ hlt
    · exact Binary64.isNegative_ofMagnitude _ (Binary64.lt_signBit_of_lt hlt)
  infinite h := by
    have hlt : Binary64.infinityBits < Binary64.signBit := by decide
    rw [toBinary64_of_isInfinite h]
    refine ⟨?_, Binary64.isNegative_ofMagnitude _ hlt⟩
    rw [Binary64.isInfinite, Binary64.magnitudeBits_ofMagnitude _ hlt, decide_eq_true rfl]
  nan h := by
    simp only [isNaN, decide_eq_true_eq] at h
    rw [toBinary64, if_pos h]
    decide

theorem isFinite_or_isInfinite {x : Binary32} (h : x.isNaN = false) :
    x.isFinite = true ∨ x.isInfinite = true := by
  simp only [isNaN, isFinite, isInfinite, decide_eq_false_iff_not, decide_eq_true_eq] at h ⊢
  omega

/-- The number and the sign determine the pattern. -/
theorem eq_of_toRat {x y : Binary32} (h : x.toRat = y.toRat) (hs : x.isNegative = y.isNegative) :
    x = y := by
  have habs := congrArg abs h
  have hnonneg (z : Binary32) : (0 : ℚ) ≤ z.units / 2 ^ 149 :=
    div_nonneg (Nat.cast_nonneg _) (pow_nonneg zero_le_two _)
  rw [toRat, toRat, Binary64.abs_signed _ (hnonneg x), Binary64.abs_signed _ (hnonneg y),
    div_left_inj' (pow_pos two_pos 149).ne', Nat.cast_inj] at habs
  exact eq_of_magnitude hs (magnitudeBits_inj habs)

theorem toBinary64_injective {x y : Binary32} (hx : x.isNaN = false) (hy : y.isNaN = false)
    (h : x.toBinary64 = y.toBinary64) : x = y := by
  have hkx := x.keeps_toBinary64
  have hky := y.keeps_toBinary64
  rw [← h] at hky
  rcases isFinite_or_isInfinite hx with hxf | hxi <;>
    rcases isFinite_or_isInfinite hy with hyf | hyi
  · obtain ⟨-, hxr, hxs⟩ := hkx.finite hxf
    obtain ⟨-, hyr, hys⟩ := hky.finite hyf
    exact eq_of_toRat (hxr.symm.trans hyr) (hxs.symm.trans hys)
  · exact absurd (hky.infinite hyi).1 (Binary64.not_isInfinite_of_isFinite (hkx.finite hxf).1)
  · exact absurd (hkx.infinite hxi).1 (Binary64.not_isInfinite_of_isFinite (hky.finite hyf).1)
  · simp only [isInfinite, decide_eq_true_eq] at hxi hyi
    refine eq_of_magnitude ?_ (hxi.trans hyi.symm)
    exact (hkx.infinite (decide_eq_true hxi)).2.symm.trans (hky.infinite (decide_eq_true hyi)).2

end Binary32

/-! ## Nested conversions -/

/-- How optional values, lists and dictionaries are put into one another. -/
inductive Nesting where
  | plain
  | optional (inner : Nesting)
  | listed (inner : Nesting)
  | keyed (inner : Nesting)

namespace Nesting

/-- The type of the nesting over a type. -/
def Over (α : Type) : Nesting → Type
  | .plain => α
  | .optional inner => Option (inner.Over α)
  | .listed inner => List (inner.Over α)
  | .keyed inner => Dict (inner.Over α)

variable {α : Type}

/-- The conversion is put together from those of the layers. -/
instance conversion [inst : ToValue α] : (s : Nesting) → ToValue (s.Over α)
  | .plain => inst
  | .optional inner =>
    have := conversion inner
    inferInstanceAs (ToValue (Option (inner.Over α)))
  | .listed inner =>
    have := conversion inner
    inferInstanceAs (ToValue (List (inner.Over α)))
  | .keyed inner =>
    have := conversion inner
    inferInstanceAs (ToValue (Dict (inner.Over α)))

section Layers

variable [ToValue α] (inner : Nesting)

/-! Each layer is converted as an optional value, a list or a dictionary is everywhere. -/

theorem conversion_optional : conversion (.optional inner)
    = (inferInstance : ToValue (Option (inner.Over α))) := rfl

theorem conversion_listed : conversion (.listed inner)
    = (inferInstance : ToValue (List (inner.Over α))) := rfl

theorem conversion_keyed : conversion (.keyed inner)
    = (inferInstance : ToValue (Dict (inner.Over α))) := rfl

end Layers

/-- The value has the same layers, a missing part as null, and in place of each element, in order
and under the same key, a value related to it. -/
def Carries (R : α → Value → Prop) : (s : Nesting) → s.Over α → Value → Prop
  | .plain, a, v => R a v
  | .optional inner, x, v => Option.elim x (v = .null) fun a => inner.Carries R a v
  | .listed inner, items, v => ∃ vs, v = .list vs ∧ List.Forall₂ (inner.Carries R) items vs
  | .keyed inner, d, v => ∃ vs, v = .map vs
    ∧ List.Forall₂ (fun p q => p.1 = q.1 ∧ inner.Carries R p.2 q.2) (Dict.entries d) vs

theorem carries_toValue [ToValue α] {R : α → Value → Prop} (h : ∀ a, R a (toValue a))
    (s : Nesting) : ∀ x : s.Over α, s.Carries R x (toValue x) := by
  induction s with
  | plain => exact h
  | optional inner ih =>
    intro x
    rw [conversion_optional]
    cases x with
    | none => rfl
    | some a => exact ih a
  | listed inner ih =>
    intro items
    rw [conversion_listed]
    refine ⟨_, rfl, List.forall₂_map_right_iff.2 (List.forall₂_same.2 fun x _ => ih x)⟩
  | keyed inner ih =>
    intro d
    rw [conversion_keyed]
    refine ⟨_, rfl, List.forall₂_map_right_iff.2 (List.forall₂_same.2 fun p _ => ⟨rfl, ih p.2⟩)⟩

end Nesting

/-- Unsigned and binary32 numbers, alone or inside optional values, lists and dictionaries, are
converted into values that keep the number. Unsigned numbers keep their order, also across the two
kinds of numbers, and different binary32 numbers get different bits. -/
theorem conversions_keep_numbers :
    (∀ (s : Nesting) (x : s.Over UInt64),
        s.Carries (fun n => Value.KeepsNatural n.toNat) x (toValue x))
      ∧ (∀ (s : Nesting) (x : s.Over USize),
        s.Carries (fun n => Value.KeepsNatural n.toNat) x (toValue x))
      ∧ (∀ (s : Nesting) (x : s.Over Binary32),
        s.Carries (fun a v => ∃ y, v = .float y ∧ a.Keeps y) x (toValue x))
      ∧ (∀ m n : UInt64, m ≤ n → ∃ a b, (toValue m).number? = some a
        ∧ (toValue n).number? = some b ∧ a ≤ b)
      ∧ (∀ m n : USize, m ≤ n → ∃ a b, (toValue m).number? = some a
        ∧ (toValue n).number? = some b ∧ a ≤ b)
      ∧ ∀ x y : Binary32, x.isNaN = false → y.isNaN = false → x ≠ y →
        ∃ a b, toValue x = .float a ∧ toValue y = .float b ∧ a.bits ≠ b.bits := by
  have husize (n : USize) : n.toNat = n.toUInt64.toNat := (USize.toNat_toUInt64 n).symm
  refine ⟨?_, ?_, ?_, fun m n h => ?_, fun m n h => ?_, fun x y hx hy hne => ?_⟩
  · exact Nesting.carries_toValue fun n => Value.keepsNatural_ofInt n.toNat_lt
  · refine Nesting.carries_toValue fun n => ?_
    rw [husize]
    exact Value.keepsNatural_ofInt n.toUInt64.toNat_lt
  · exact Nesting.carries_toValue fun x => ⟨_, rfl, x.keeps_toBinary64⟩
  · exact Value.number_le_number (UInt64.le_iff_toNat_le.1 h) n.toNat_lt
  · rw [USize.le_iff_toNat_le, husize, husize] at h
    exact Value.number_le_number h n.toUInt64.toNat_lt
  · refine ⟨_, _, rfl, rfl, fun hbits => hne (Binary32.toBinary64_injective hx hy ?_)⟩
    exact congrArg Binary64.mk hbits

/-- The last integer beside a number that is rounded down to the one after it, and the two zeros. -/
theorem lastInteger_beside_rounded :
    ((9223372036854775807 : UInt64) ≤ 9223372036854775809
      ∧ ∃ a b, (toValue (9223372036854775807 : UInt64)).number? = some a
        ∧ (toValue (9223372036854775809 : UInt64)).number? = some b ∧ a ≤ b)
      ∧ (Binary32.mk 0).isNaN = false ∧ (Binary32.mk 0x80000000).isNaN = false
      ∧ ∃ a b, toValue (Binary32.mk 0) = .float a ∧ toValue (Binary32.mk 0x80000000) = .float b
        ∧ a.bits ≠ b.bits := by
  obtain ⟨-, -, -, horder, -, hbits⟩ := conversions_keep_numbers
  have hle : (9223372036854775807 : UInt64) ≤ 9223372036854775809 := by decide
  have hplus : (Binary32.mk 0).isNaN = false := by decide
  have hminus : (Binary32.mk 0x80000000).isNaN = false := by decide
  exact ⟨⟨hle, horder _ _ hle⟩, hplus, hminus, hbits _ _ hplus hminus (by decide)⟩

end ScriptWriter
