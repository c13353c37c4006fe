import ScriptWriter.Literal.Number

/-!
# The shape of number literals

A number literal is `NaN`, or `Infinity` or a decimal with a minus in front if it is negative. A
decimal has digits, then a point with digits after it if there is a fraction, then an exponent
with its sign if there is one (`numberText_int`, `numberText_float`). So a point is always followed
by a digit, and a literal other than the two names starts with a digit or a minus.
-/

namespace ScriptWriter

/-- One digit or more and nothing else. -/
def Digits (cs : List Char) : Prop := cs ≠ [] ∧ ∀ c ∈ cs, c.isDigit = true

-- given by the list, since there is a search over all characters too
instance (cs : List Char) : Decidable (Digits cs) :=
  @instDecidableAnd _ _ _ (List.decidableBAll _ cs)

theorem digits_toDigits (n : Nat) : Digits (Nat.toDigits 10 n) :=
  ⟨Nat.toDigits_ne_nil, fun _ hc => Nat.isDigit_of_mem_toDigits (by decide) (by decide) hc⟩

theorem Digits.append_zeros {cs : List Char} (h : Digits cs) (n : Nat) :
    Digits (cs ++ List.replicate n '0') := by
  refine ⟨List.append_ne_nil_of_left_ne_nil h.1 _, fun c hc => ?_⟩
  rcases List.mem_append.1 hc with hc | hc
  · exact h.2 c hc
  · rw [List.eq_of_mem_replicate hc]
    rfl

theorem Digits.zeros_append {cs : List Char} (h : Digits cs) (n : Nat) :
    Digits (List.replicate n '0' ++ cs) := by
  refine ⟨List.append_ne_nil_of_right_ne_nil _ h.1, fun c hc => ?_⟩
  rcases List.mem_append.1 hc with hc | hc
  · rw [List.eq_of_mem_replicate hc]
    rfl
  · exact h.2 c hc

theorem Digits.take {cs : List Char} (h : Digits cs) {n : Nat} (hn : 0 < n) :
    Digits (cs.take n) := by
  refine ⟨fun ht => ?_, fun c hc => h.2 c (List.mem_of_mem_take hc)⟩
  rcases List.take_eq_nil_iff.1 ht with h0 | h0
  · omega
  · exact h.1 h0

theorem Digits.drop {cs : List Char} (h : Digits cs) {n : Nat} (hn : n < cs.length) :
    Digits (cs.drop n) := by
  refine ⟨fun hd => ?_, fun c hc => h.2 c (List.mem_of_mem_drop hc)⟩
  have := List.drop_eq_nil_iff.1 hd
  omega

/-- Digits, a fraction if there is one, and an exponent if there is one. -/
def DecimalText (w : List Char) : Prop :=
  ∃ whole fraction exponent, w = whole ++ fraction ++ exponent ∧ Digits whole
    ∧ (fraction = [] ∨ ∃ ds, fraction = '.' :: ds ∧ Digits ds)
    ∧ (exponent = [] ∨ ∃ sign ds, exponent = 'e' :: sign :: ds ∧ (sign = '+' ∨ sign = '-')
      ∧ Digits ds)

theorem Digits.decimalText {cs : List Char} (h : Digits cs) : DecimalText cs :=
  ⟨cs, [], [], by simp, h, Or.inl rfl, Or.inl rfl⟩

namespace Decimal

theorem digits_numerals (d : Decimal) : Digits d.numerals := digits_toDigits d.digits

theorem decimalText_positional (d : Decimal) : DecimalText d.positional := by
  have hd := d.digits_numerals
  unfold positional
  split
  · exact (hd.append_zeros _).decimalText
  · rename_i hexp
    split
    · rename_i hpoint
      refine ⟨d.numerals.take d.point.toNat, '.' :: d.numerals.drop d.point.toNat, [], by simp,
        hd.take (by omega), Or.inr ⟨_, rfl, hd.drop ?_⟩, Or.inl rfl⟩
      unfold point at hpoint ⊢
      omega
    · exact ⟨['0'], _, [], (List.append_nil _).symm, ⟨by simp, by simp⟩,
        Or.inr ⟨_, rfl, hd.zeros_append _⟩, Or.inl rfl⟩

theorem decimalText_scientific (d : Decimal) : DecimalText d.scientific := by
  have hd := d.digits_numerals
  unfold scientific mantissa
  refine ⟨_, _, _, rfl, hd.take Nat.one_pos, ?_, Or.inr ⟨_, _, rfl, ?_, digits_toDigits _⟩⟩
  · split
    · exact Or.inl rfl
    · rename_i hne
      refine Or.inr ⟨_, rfl, hd.drop ?_⟩
      rcases Nat.lt_or_ge 1 d.numerals.length with hlt | hge
      · exact hlt
      · exact absurd (List.drop_eq_nil_iff.2 hge) hne
  · split
    · exact Or.inr rfl
    · exact Or.inl rfl

theorem e_not_mem_mantissa (d : Decimal) : 'e' ∉ d.mantissa := by
  have hnumerals : 'e' ∉ d.numerals := fun hm => absurd (d.digits_numerals.2 _ hm) (by decide)
  have hfirst : 'e' ∉ d.numerals.take 1 := fun hm => hnumerals (List.mem_of_mem_take hm)
  have hrest : 'e' ∉ d.numerals.drop 1 := fun hm => hnumerals (List.mem_of_mem_drop hm)
  unfold mantissa
  rw [List.mem_append, not_or]
  split
  · exact ⟨hfirst, List.not_mem_nil⟩
  · exact ⟨hfirst, List.not_mem_cons_of_ne_of_not_mem (by decide) hrest⟩

end Decimal

/-- `NaN`, or infinity or a decimal with its sign. -/
def NumberText (w : List Char) : Prop :=
  w = "NaN".toList ∨ ∃ sign magnitude, w = sign ++ magnitude ∧ (sign = [] ∨ sign = ['-'])
    ∧ (magnitude = "Infinity".toList ∨ DecimalText magnitude)

namespace Literal

theorem numberText_int (n : Int64) : NumberText (int n).toList := by
  have hd := (digits_toDigits n.toInt.natAbs).decimalText
  unfold int intText
  simp only [String.toList_ofList]
  split
  · exact Or.inr ⟨['-'], _, rfl, Or.inr rfl, Or.inr hd⟩
  · exact Or.inr ⟨[], _, rfl, Or.inl rfl, Or.inr hd⟩

/-- The only mark of an exponent comes right after the mantissa. -/
theorem splitExponent?_exponential (d : Decimal) : splitExponent? d.exponential
    = some (d.mantissa, (intText (d.point - 1)).toList) := by
  have hmantissa : ∀ c ∈ d.mantissa, decide (c ≠ 'e') = true := by
    intro c hc
    have hne : c ≠ 'e' := by
      rintro rfl
      exact d.e_not_mem_mantissa hc
    exact decide_eq_true hne
  unfold splitExponent? Decimal.exponential
  rw [List.dropWhile_append_of_pos hmantissa, List.takeWhile_append_of_pos hmantissa]
  simp

theorem signedShift_intText (n : Int) : signedShift (intText n).toList
    = (if n < 0 then '-' else '+') :: Nat.toDigits 10 n.natAbs := by
  unfold intText
  simp only [String.toList_ofList]
  split
  · rfl
  · -- digits do not start with a minus, so they get a plus
    unfold signedShift
    split
    · rename_i digits heq
      have hminus : '-' ∈ Nat.toDigits 10 n.natAbs := heq ▸ List.mem_cons_self
      exact absurd ((digits_toDigits n.natAbs).2 _ hminus) (by decide)
    · rfl

theorem withSignedExponent_exponential (d : Decimal) :
    withSignedExponent d.exponential = d.scientific := by
  rw [withSignedExponent, splitExponent?_exponential]
  dsimp only
  rw [signedShift_intText, Decimal.scientific]

theorem decimalText_magnitude {x : Binary64} (h : x.isInfinite = false) :
    DecimalText (magnitude x).toList := by
  unfold magnitude
  rw [h, if_neg Bool.false_ne_true]
  split
  · exact Digits.decimalText (by decide)
  · simp only [String.toList_ofList]
    split
    · exact Decimal.decimalText_positional _
    · rw [withSignedExponent_exponential]
      exact Decimal.decimalText_scientific _

theorem magnitude_shape (x : Binary64) :
    (magnitude x).toList = "Infinity".toList ∨ DecimalText (magnitude x).toList := by
  cases h : x.isInfinite with
  | true =>
    unfold magnitude
    rw [h, if_pos rfl]
    exact Or.inl rfl
  | false => exact Or.inr (decimalText_magnitude h)

theorem numberText_float (x : Binary64) : NumberText (float x).toList := by
  unfold float
  split
  · exact Or.inl rfl
  · split
    · rw [String.toList_append]
      exact Or.inr ⟨['-'], _, rfl, Or.inr rfl, magnitude_shape x⟩
    · exact Or.inr ⟨[], _, rfl, Or.inl rfl, magnitude_shape x⟩

end Literal

end ScriptWriter
