import ScriptWriter.Proofs.LiteralText
import ScriptWriter.Proofs.NumberLayout
import ScriptWriter.Proofs.ValueJson

/-!
# Whole numbers in both formats

A whole number up to `2 ^ 53` is a binary64 number, and it is written the same way as the integer
(`whole_numbers_alike`). The shortest decimal could have fewer digits only if it were another whole
number, since the number itself is on the grid of whole numbers and the search takes the widest
grid. But whole numbers up to `2 ^ 53` are binary64 numbers themselves, so none of them rounds to
another one, and past them only `2 ^ 53 + 1` rounds to `2 ^ 53`, as a tie; it ends in a three and is
no nearer (`eq_or_of_covers`).
-/

namespace ScriptWriter

namespace Binary64

/-! ## Whole numbers among binary64 numbers -/

/-- Every multiple of a power of two with a significand is a number. -/
theorem exists_unitsAt (k : Nat) : ∀ {m : Nat}, m < 2 * fractions → ∃ p, unitsAt p = m * 2 ^ k := by
  induction k with
  | zero => exact fun {m} hm => ⟨0 * fractions + m, unitsAt_add hm (Or.inl rfl)⟩
  | succ k ih =>
    intro m hm
    rcases Nat.lt_or_ge m fractions with hlt | hge
    · -- a small significand is doubled and the exponent lowered
      obtain ⟨p, hp⟩ := ih (show 2 * m < 2 * fractions by omega)
      exact ⟨p, by rw [hp, pow_succ]; ring⟩
    · exact ⟨(k + 1) * fractions + m, unitsAt_add hm (Or.inr hge)⟩

theorem unitsAt_last_whole (k : Nat) :
    unitsAt ((k + 1) * fractions + fractions) = 2 ^ 53 * 2 ^ k := by
  rw [unitsAt_add (by decide) (Or.inr (Nat.le_refl _)), show fractions = 2 ^ 52 by decide, pow_succ]
  ring

/-- Past `2 ^ 53` every other whole number is left out. -/
theorem unitsAt_past_whole (k : Nat) :
    unitsAt ((k + 1) * fractions + fractions + 1) = (2 ^ 53 + 2) * 2 ^ k := by
  rw [unitsAt_add_one (by decide) (Or.inr (Nat.le_refl _)), show fractions = 2 ^ 52 by decide,
    pow_succ]
  ring

theorem exists_unitsAt_of_le {n : Nat} (hn : n ≤ 2 ^ 53) (k : Nat) :
    ∃ p, unitsAt p = n * 2 ^ k := by
  have hfractions : 2 * fractions = 2 ^ 53 := by decide
  rcases hn.lt_or_eq with hlt | rfl
  · exact exists_unitsAt k (hfractions ▸ hlt)
  · exact ⟨_, unitsAt_last_whole k⟩

/-- The whole numbers that a whole number up to `2 ^ 53` covers. -/
theorem eq_or_of_covers {p n m k : Nat} (hn : n ≤ 2 ^ 53) (hp : unitsAt p = n * 2 ^ k)
    (h : Covers p (m * 2 ^ k)) : m = n ∨ n = 2 ^ 53 ∧ m = 2 ^ 53 + 1 := by
  have hscale : 0 < 2 ^ k := Nat.two_pow_pos k
  have hscale' : (0 : ℚ) < 2 ^ k := pow_pos two_pos k
  rcases Nat.lt_or_ge (2 ^ 53) m with hpast | hle
  · -- only the last of them reaches so far, and only up to the middle of the next gap
    have hlast := unitsAt_last_whole k
    have hnext := unitsAt_past_whole k
    generalize (k + 1) * fractions + fractions = last at hlast hnext
    have hple : p ≤ last := by
      refine strictMono_unitsAt.le_iff_le.1 ?_
      rw [hp, hlast]
      exact Nat.mul_le_mul_right _ hn
    rcases hple.lt_or_eq with hlt | rfl
    · have hle := h.le_of_lt (covers_unitsAt last) hlt
      rw [hlast, Nat.cast_mul, Nat.cast_pow 2 k, Nat.cast_ofNat, mul_le_mul_iff_left₀ hscale',
        Nat.cast_le] at hle
      omega
    · have hhigh := h.high
      rw [hlast, hnext, ← Nat.cast_add, ← Nat.add_mul, Nat.cast_mul, Nat.cast_pow 2 k,
        Nat.cast_ofNat, ← mul_assoc, mul_le_mul_iff_left₀ hscale'] at hhigh
      have hle : 2 * m ≤ 2 ^ 53 + (2 ^ 53 + 2) := by exact_mod_cast hhigh
      have heq : n = 2 ^ 53 := Nat.eq_of_mul_eq_mul_right hscale (hp.symm.trans hlast)
      exact Or.inr ⟨heq, by omega⟩
  · -- both are numbers, and a number is covered by itself only
    obtain ⟨p', hp'⟩ := exists_unitsAt_of_le hle k
    have hself := covers_unitsAt p'
    rw [hp'] at hself
    push_cast at hself
    obtain rfl := h.unique hself
    rw [hp] at hp'
    exact Or.inl (Nat.eq_of_mul_eq_mul_right hscale hp').symm

theorem magnitudeAt_of_unitsAt {p n : Nat} (hp : unitsAt p = n * 2 ^ 1074) : magnitudeAt p = n := by
  have hscale : (0 : ℚ) < 2 ^ 1074 := pow_pos two_pos _
  rw [magnitudeAt, hp, Nat.cast_mul, Nat.cast_pow, Nat.cast_ofNat,
    mul_div_cancel_right₀ _ hscale.ne']

theorem coveredBy_of_unitsAt {p n : Nat} (hp : unitsAt p = n * 2 ^ 1074) :
    Decimal.CoveredBy ⟨n, 0⟩ p := by
  have hself := covers_unitsAt p
  rwa [hp, Nat.cast_mul, Nat.cast_pow, Nat.cast_ofNat, ← mul_one (n : ℚ), ← zpow_zero (10 : ℚ)]
    at hself

/-- The decimal of a whole number up to `2 ^ 53` is this number. -/
theorem IsWidest.toRat_of_whole {p n : Nat} {d : Decimal} (h : IsWidest p d) (hn : n ≤ 2 ^ 53)
    (hp : unitsAt p = n * 2 ^ 1074) : ∃ j : Nat, d.exponent = j ∧ d.digits * 10 ^ j = n := by
  have hself := coveredBy_of_unitsAt hp
  obtain ⟨j, hj⟩ := Int.eq_ofNat_of_zero_le (h.widest _ hself)
  have htoRat : d.toRat = (d.digits * 10 ^ j : Nat) := by
    rw [Decimal.toRat, hj, zpow_natCast, Nat.cast_mul, Nat.cast_pow, Nat.cast_ofNat]
  have hcovered := h.covered
  rw [Decimal.CoveredBy, htoRat] at hcovered
  refine ⟨j, hj, (eq_or_of_covers hn hp hcovered).resolve_right ?_⟩
  rintro ⟨rfl, hnext⟩
  rcases j with _ | j
  · -- on the grid of whole numbers the number itself is nearer
    have hnearest := h.nearest _ hself hj.symm
    rw [htoRat, hnext, magnitudeAt_of_unitsAt hp] at hnearest
    norm_num [Decimal.toRat] at hnearest
  · -- no wider grid has this decimal
    have hdvd : 10 ∣ d.digits * 10 ^ (j + 1) :=
      Dvd.dvd.mul_left (dvd_pow_self 10 (Nat.succ_ne_zero j)) _
    rw [hnext] at hdvd
    exact absurd hdvd (by decide)

/-! ## The binary64 number of a whole number -/

/-- The number is the whole number, zero without a sign. -/
structure Denotes (x : Binary64) (n : Int) : Prop where
  finite : x.isFinite = true
  value : x.toRat = n
  unsigned : n = 0 → x.isNegative = false

namespace Denotes

variable {x : Binary64} {n : Int}

theorem unitsAt_eq (h : x.Denotes n) : unitsAt x.magnitudeBits = n.natAbs * 2 ^ 1074 := by
  have hscale : (2 : ℚ) ^ 1074 ≠ 0 := (pow_pos two_pos _).ne'
  have hvalue := congrArg abs h.value
  rw [toRat_eq, abs_signed _ (magnitudeAt_nonneg _), ← Int.cast_abs, ← Nat.cast_natAbs, magnitudeAt,
    div_eq_iff hscale] at hvalue
  generalize 1074 = k at hvalue ⊢
  exact_mod_cast hvalue

theorem isNegative_eq (h : x.Denotes n) : x.isNegative = decide (n < 0) := by
  have hvalue := h.value
  have hnonneg := magnitudeAt_nonneg x.magnitudeBits
  rw [toRat_eq, signed] at hvalue
  rcases lt_trichotomy n 0 with hlt | rfl | hgt
  · have hneg : (n : ℚ) < 0 := by exact_mod_cast hlt
    rw [decide_eq_true hlt]
    by_contra hsign
    rw [if_neg hsign] at hvalue
    linarith
  · exact h.unsigned rfl
  · have hpos : (0 : ℚ) < n := by exact_mod_cast hgt
    rw [decide_eq_false (not_lt.2 hgt.le), ← Bool.not_eq_true]
    intro hsign
    rw [if_pos hsign] at hvalue
    linarith

end Denotes

theorem denotes_ofInt {n : Int} (hn : n.natAbs ≤ 2 ^ 53) : (ofInt n).Denotes n := by
  have hrange : n.natAbs < 2 ^ 1023 := hn.trans_lt (pow_lt_pow_right₀ one_lt_two (by decide))
  have hfin := nearestBits_shiftLeft_lt (k := 1074) rfl hrange
  obtain ⟨p, hp⟩ := exists_unitsAt_of_le hn 1074
  have hself := covers_unitsAt p
  rw [hp, Nat.cast_mul, Nat.cast_pow, Nat.cast_ofNat] at hself
  have hbits := (covers_shiftLeft hfin).unique hself
  rw [hbits] at hfin
  rw [ofInt, hbits]
  refine ⟨isFinite_ofMagnitude _ hfin, ?_, ?_⟩
  · rw [toRat_ofMagnitude _ hfin, magnitudeAt_of_unitsAt hp, signed_natAbs]
  · rintro rfl
    exact isNegative_ofMagnitude _ (lt_signBit_of_lt hfin)

end Binary64

/-! ## The texts -/

theorem toDigits_mul_pow {m : Nat} (hm : 0 < m) (k : Nat) :
    Nat.toDigits 10 (m * 10 ^ k) = Nat.toDigits 10 m ++ List.replicate k '0' := by
  induction k with
  | zero => simp
  | succ k ih =>
    have hpos : 0 < m * 10 ^ k := Nat.mul_pos hm (Nat.pow_pos (by decide))
    have happend := Nat.toDigits_append_toDigits (b := 10) (d := 0) (by decide) hpos (by decide)
    rw [pow_succ, ← mul_assoc, mul_comm _ 10, ← add_zero (10 * _), ← happend, ih,
      List.replicate_succ', List.append_assoc]
    rfl

namespace Literal

/-- The canonical decimal of a whole number: digits of its magnitude, with a minus if it is
negative. Only zero itself starts with a zero, and it has no minus. -/
def IsCanonical (n : Int) (text : List Char) : Prop :=
  ∃ sign digits, text = sign ++ digits ∧ Digits digits
    ∧ (digits.head? = some '0' → digits = ['0'])
    ∧ (sign = [] ∧ n = Nat.ofDigitChars 10 digits 0
      ∨ sign = ['-'] ∧ n = -Nat.ofDigitChars 10 digits 0 ∧ digits ≠ ['0'])

theorem isCanonical_intText (n : Int) : IsCanonical n (intText n).toList := by
  have hdigits := digits_toDigits n.natAbs
  have hvalue : Nat.ofDigitChars 10 (Nat.toDigits 10 n.natAbs) 0 = n.natAbs :=
    Nat.ofDigitChars_ten_toDigits
  unfold intText
  rw [String.toList_ofList]
  by_cases hn : n < 0
  · have hhead := head_toDigits_ne_zero (show 0 < n.natAbs by omega)
    rw [if_pos hn]
    refine ⟨['-'], Nat.toDigits 10 n.natAbs, rfl, hdigits, fun hzero => absurd hzero hhead,
      Or.inr ⟨rfl, ?_, ?_⟩⟩
    · rw [hvalue]
      omega
    · exact fun hzero => hhead (by rw [hzero]; rfl)
  · rw [if_neg hn]
    refine ⟨[], Nat.toDigits 10 n.natAbs, rfl, hdigits, fun hzero => ?_, Or.inl ⟨rfl, ?_⟩⟩
    · rcases Nat.eq_zero_or_pos n.natAbs with h0 | hpos
      · rw [h0]
        exact Nat.toDigits_zero 10
      · exact absurd hzero (head_toDigits_ne_zero hpos)
    · rw [hvalue]
      omega

theorem magnitude_of_whole {x : Binary64} {n : Nat} (hfin : x.isFinite = true) (h0 : n ≠ 0)
    (hn : n ≤ 2 ^ 53) (hx : Binary64.unitsAt x.magnitudeBits = n * 2 ^ 1074) :
    (magnitude x).toList = Nat.toDigits 10 n := by
  have hbits : x.magnitudeBits ≠ 0 := by
    intro hzero
    rw [hzero, Binary64.unitsAt_zero] at hx
    exact (Nat.mul_pos (Nat.pos_of_ne_zero h0) (Nat.two_pow_pos _)).ne hx
  have hwidest := Binary64.isWidest_shortest hbits .away
  have hdigits := hwidest.digits_ne_zero hbits
  rw [magnitude_eq_layout hfin (by simpa [Binary64.isZero] using hbits)]
  obtain ⟨j, hj, rfl⟩ := hwidest.toRat_of_whole hn hx
  generalize x.shortest .away = d at hj hdigits hn ⊢
  have hpoint : d.point = d.numerals.length + j := by rw [Decimal.point, hj]
  have hbelow : d.toRat < 10 ^ (21 : ℤ) := by
    have hle : ((d.digits * 10 ^ j : Nat) : ℚ) ≤ 2 ^ 53 := by exact_mod_cast hn
    rw [Decimal.toRat, hj, zpow_natCast]
    push_cast at hle
    exact hle.trans_lt (by norm_num)
  have hlast : d.point ≤ 21 := not_lt.1 (mt (Decimal.lt_point_iff hdigits 21).1 (not_le.2 hbelow))
  rw [layout, if_pos ⟨by omega, hlast⟩, show (d.point - d.numerals.length).toNat = j by omega,
    toDigits_mul_pow (Nat.pos_of_ne_zero hdigits), Decimal.numerals]

theorem float_of_denotes {x : Binary64} {n : Int} (hn : n.natAbs ≤ 2 ^ 53) (h : x.Denotes n) :
    float x = intText n := by
  have hnan := Binary64.not_isNaN_of_isFinite h.finite
  have hmagnitude : magnitude x = String.ofList (Nat.toDigits 10 n.natAbs) := by
    rcases Nat.eq_zero_or_pos n.natAbs with h0 | hpos
    · have hunits := h.unitsAt_eq
      rw [h0, Nat.zero_mul, ← Binary64.unitsAt_zero] at hunits
      have hbits := Binary64.strictMono_unitsAt.injective hunits
      rw [magnitude, if_neg (Binary64.not_isInfinite_of_isFinite h.finite),
        if_pos (by simp [Binary64.isZero, hbits]), h0]
      rfl
    · rw [← magnitude_of_whole h.finite hpos.ne' hn h.unitsAt_eq, String.ofList_toList]
  rw [float, if_neg hnan, hmagnitude, h.isNegative_eq, intText]
  by_cases hneg : n < 0
  · rw [if_pos (decide_eq_true hneg), if_pos hneg]
    exact String.toList_injective (by simp)
  · rw [if_neg (by simpa using hneg), if_neg hneg]

theorem compact_int (n : Int64) : (Value.int n).compact = int n := by
  rw [Value.compact, Value.toJson, Json.compact, Json.Number.ofInt64, int]
  split
  · rfl
  · rename_i hn
    have hsign : 0 ≤ n := Int64.not_lt.1 hn
    have hnonneg : 0 ≤ n.toInt := Int64.le_iff_toInt_le.1 hsign
    rw [Json.Number.compact, Int64.toNat_toUInt64_of_le hsign, Int64.toNatClampNeg,
      Int.toNat_of_nonneg hnonneg]

theorem read_int (n : Int64) : Value.read (int n) = .ok (.int n) := by
  have h : Value.Expressible Json.Reader.maxLevels (.int n) := .int n
  rw [← compact_int, Value.read, Json.read, Value.compact,
    Json.readWritten_compact h.readable_toJson]
  simp only [Functor.map, Except.map, h.merged_toJson, h.ofJson_toJson]

/-- A whole number up to `2 ^ 53` is a binary64 number, and as such it is written like the integer,
on its own and as the literal of a value. The text of any integer is its canonical decimal, and is
read as this integer. -/
theorem whole_numbers_alike (n : Int64) :
    (n.toInt.natAbs ≤ 2 ^ 53 → (Binary64.ofInt n.toInt).Denotes n.toInt
      ∧ ∀ x : Binary64, x.Denotes n.toInt → float x = int n
        ∧ ∀ e, Emitter.writeLiteral (.float x) e = Emitter.writeLiteral (.int n) e)
      ∧ IsCanonical n.toInt (int n).toList ∧ Value.read (int n) = .ok (.int n) := by
  refine ⟨fun hn => ⟨Binary64.denotes_ofInt hn, fun x hx => ?_⟩, isCanonical_intText n.toInt,
    read_int n⟩
  have htext : float x = int n := float_of_denotes hn hx
  refine ⟨htext, fun e => ?_⟩
  rw [Emitter.writeLiteral_apply, Emitter.writeLiteral_apply, append_eq_append_render,
    append_eq_append_render, render, render, htext]

/-- The last whole number before the gaps, to which the next one rounds. -/
theorem lastWhole_alike : (-9007199254740992 : Int64).toInt.natAbs ≤ 2 ^ 53
    ∧ Binary64.Denotes ⟨0xC340000000000000⟩ (-9007199254740992)
    ∧ float ⟨0xC340000000000000⟩ = "-9007199254740992" := by
  have hn : (-9007199254740992 : Int64).toInt.natAbs ≤ 2 ^ 53 := by decide
  have hbits : Binary64.ofInt (-9007199254740992) = ⟨0xC340000000000000⟩ := by decide +kernel
  obtain ⟨hdenotes, hfloat⟩ := (whole_numbers_alike (-9007199254740992)).1 hn
  rw [show (-9007199254740992 : Int64).toInt = -9007199254740992 by decide] at hdenotes hfloat
  rw [hbits] at hdenotes
  refine ⟨hn, hdenotes, (hfloat _ hdenotes).1.trans ?_⟩
  decide +kernel

end Literal

end ScriptWriter
