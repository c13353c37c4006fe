import ScriptWriter.Proofs.Marks
import ScriptWriter.Proofs.NumberText

/-!
# Words

Identifiers and numbers have no bracket, separator or quote in them, so their marks are solid. An
identifier has no point either, and a point in a number has a digit after it, with which no
identifier starts (`digit_after_point`). A number that starts like an identifier is `NaN` or
`Infinity` (`NumberText.starts`).
-/

namespace ScriptWriter

open Mark

/-! ## Characters without a role -/

/-- The brackets, the separators and the quote. -/
def special : List Char := ['(', ')', '[', ']', '\x7b', '\x7d', ' ', ',', '"']

/-- No bracket, separator or quote is among the characters. -/
def Unmarked (cs : List Char) : Prop := ∀ c ∈ cs, c ∉ special

instance (cs : List Char) : Decidable (Unmarked cs) := List.decidableBAll _ cs

theorem plain_char {c : Char} (h : c ∉ special) : plain (.char c) = true := by
  simp only [special, List.mem_cons, List.not_mem_nil, or_false, not_or] at h
  simp [plain, opens, closes, separates, h]

theorem Unmarked.plain {s : String} (h : Unmarked s.toList) : ∀ m ∈ chars s, plain m = true := by
  intro m hm
  obtain ⟨c, hc, rfl⟩ := List.mem_map.1 hm
  exact plain_char (h c hc)

theorem Unmarked.solid {s : String} (h : Unmarked s.toList) : Solid (chars s) :=
  Solid.of_plain h.plain

theorem Unmarked.char_not_mem {s : String} (h : Unmarked s.toList) {c : Char} (hc : c ∈ special) :
    .char c ∉ chars s :=
  fun hm => h c (char_mem_chars.1 hm) hc

theorem Unmarked.quote_not_mem {s : String} (h : Unmarked s.toList) : .char '"' ∉ chars s :=
  h.char_not_mem (by decide)

theorem continuesIdentifier_special {c : Char} (h : c ∈ '.' :: special) :
    continuesIdentifier c = false := by
  have hall : (('.' :: special).all fun c => !continuesIdentifier c) = true := by decide +kernel
  simpa using List.all_eq_true.1 hall c h

theorem isDigit_special {c : Char} (h : c ∈ special) : c.isDigit = false := by
  have hall : (special.all fun c => !c.isDigit) = true := by decide
  simpa using List.all_eq_true.1 hall c h

theorem startsIdentifier_digit : ∀ n < 10,
    startsIdentifier (Char.ofNat (48 + n)) = false := by
  decide +kernel

theorem startsIdentifier_of_isDigit {c : Char} (h : c.isDigit = true) :
    startsIdentifier c = false := by
  have hc : 48 ≤ c.toNat ∧ c.toNat ≤ 57 := by
    simpa [Char.isDigit, Char.le_def, UInt32.le_iff_toNat_le] using h
  have := startsIdentifier_digit (c.toNat - 48) (by omega)
  rwa [Nat.add_sub_cancel' hc.1, Char.ofNat_toNat] at this

theorem continuesIdentifier_of_starts {c : Char} (h : startsIdentifier c = true) :
    continuesIdentifier c = true := by
  simp only [startsIdentifier, continuesIdentifier, Bool.or_eq_true] at h ⊢
  rcases h with (h | h) | h <;> simp [h]

theorem isIdentifier_cons {s : String} (h : isIdentifier s = true) :
    ∃ c rest, s.toList = c :: rest ∧ startsIdentifier c = true := by
  unfold isIdentifier at h
  rcases hs : s.toList with _ | ⟨c, rest⟩ <;> rw [hs] at h
  · exact absurd h (by simp)
  · exact ⟨c, rest, rfl, (Bool.and_eq_true_iff.1 h).1⟩

theorem continuesIdentifier_of_mem {s : String} (h : isIdentifier s = true) {c : Char}
    (hc : c ∈ s.toList) : continuesIdentifier c = true := by
  unfold isIdentifier at h
  rcases hs : s.toList with _ | ⟨d, rest⟩ <;> rw [hs] at h hc
  · exact absurd hc (by simp)
  · obtain ⟨hd, hrest⟩ := Bool.and_eq_true_iff.1 h
    rcases List.mem_cons.1 hc with rfl | hc
    · exact continuesIdentifier_of_starts hd
    · exact List.all_eq_true.1 hrest c hc

theorem point_not_mem_identifier {s : String} (h : isIdentifier s = true) : '.' ∉ s.toList := by
  intro hc
  have := continuesIdentifier_of_mem h hc
  rw [continuesIdentifier_special List.mem_cons_self] at this
  exact absurd this (by simp)

theorem unmarked_identifier {s : String} (h : isIdentifier s = true) : Unmarked s.toList := by
  intro c hc hs
  have := continuesIdentifier_of_mem h hc
  rw [continuesIdentifier_special (List.mem_cons_of_mem _ hs)] at this
  exact absurd this (by simp)

/-! ## Numbers -/

theorem Digits.unmarked {cs : List Char} (h : Digits cs) : Unmarked cs := by
  intro c hc hs
  have := h.2 c hc
  rw [isDigit_special hs] at this
  exact absurd this (by simp)

theorem Digits.point_not_mem {cs : List Char} (h : Digits cs) : '.' ∉ cs :=
  fun hc => absurd (h.2 _ hc) (by decide)

theorem Unmarked.append {x y : List Char} (hx : Unmarked x) (hy : Unmarked y) :
    Unmarked (x ++ y) := by
  intro c hc
  rcases List.mem_append.1 hc with hc | hc
  · exact hx c hc
  · exact hy c hc

theorem Unmarked.cons {c : Char} {cs : List Char} (hc : c ∉ special) (h : Unmarked cs) :
    Unmarked (c :: cs) := by
  intro d hd
  rcases List.mem_cons.1 hd with rfl | hd
  · exact hc
  · exact h d hd

theorem DecimalText.unmarked {w : List Char} (h : DecimalText w) : Unmarked w := by
  obtain ⟨whole, fraction, exponent, rfl, hw, hf, he⟩ := h
  refine (hw.unmarked.append ?_).append ?_
  · rcases hf with rfl | ⟨ds, rfl, hd⟩
    · decide
    · exact hd.unmarked.cons (by decide)
  · rcases he with rfl | ⟨sign, ds, rfl, hs, hd⟩
    · decide
    · refine (hd.unmarked.cons ?_).cons (by decide)
      rcases hs with rfl | rfl <;> decide

/-- A point in a decimal has a digit after it. -/
theorem DecimalText.digit_after_point {w u v : List Char} (h : DecimalText w)
    (hw : w = u ++ '.' :: v) : ∃ c rest, v = c :: rest ∧ c.isDigit = true := by
  obtain ⟨whole, fraction, exponent, rfl, hd, hf, he⟩ := h
  have hexp : '.' ∉ exponent := by
    rcases he with rfl | ⟨sign, ds, rfl, hs, hd⟩
    · simp
    · have := hd.point_not_mem
      rcases hs with rfl | rfl <;> simpa using this
  rcases hf with rfl | ⟨ds, rfl, hds⟩
  · have hmem : '.' ∈ whole ++ [] ++ exponent := by rw [hw]; simp
    simp only [List.append_nil, List.mem_append] at hmem
    rcases hmem with hmem | hmem
    · exact absurd hmem hd.point_not_mem
    · exact absurd hmem hexp
  · have hrest : '.' ∉ ds ++ exponent := by
      rw [List.mem_append, not_or]
      exact ⟨hds.point_not_mem, hexp⟩
    rw [List.append_assoc, List.cons_append] at hw
    obtain ⟨-, -, rfl⟩ := (List.append_cons_inj_of_notMem hd.point_not_mem hrest).1 hw
    obtain ⟨hne, hdig⟩ := hds
    rcases ds with _ | ⟨c, ds⟩
    · exact absurd rfl hne
    · exact ⟨c, ds ++ exponent, rfl, hdig c List.mem_cons_self⟩

namespace NumberText

theorem unmarked {w : List Char} (h : NumberText w) : Unmarked w := by
  rcases h with rfl | ⟨sign, magnitude, rfl, hs, hm⟩
  · decide
  · refine Unmarked.append ?_ ?_
    · rcases hs with rfl | rfl <;> decide
    · rcases hm with rfl | hm
      · decide
      · exact hm.unmarked

/-- A number is no identifier but for the two names. -/
theorem starts {w : List Char} (h : NumberText w) : w = "NaN".toList ∨ w = "Infinity".toList
    ∨ ∃ c rest, w = c :: rest ∧ startsIdentifier c = false := by
  rcases h with rfl | ⟨sign, magnitude, rfl, hs, hm⟩
  · exact Or.inl rfl
  · rcases hs with rfl | rfl
    · rcases hm with rfl | ⟨whole, fraction, exponent, rfl, ⟨hne, hdig⟩, -⟩
      · exact Or.inr (Or.inl rfl)
      · rcases whole with _ | ⟨c, whole⟩
        · exact absurd rfl hne
        · exact Or.inr (Or.inr ⟨c, _, rfl,
            startsIdentifier_of_isDigit (hdig c List.mem_cons_self)⟩)
    · exact Or.inr (Or.inr ⟨'-', magnitude, rfl, by decide +kernel⟩)

theorem digit_after_point {w u v : List Char} (h : NumberText w) (hw : w = u ++ '.' :: v) :
    ∃ c rest, v = c :: rest ∧ c.isDigit = true := by
  have hmem : '.' ∈ w := by rw [hw]; simp
  rcases h with rfl | ⟨sign, magnitude, rfl, hs, hm⟩
  · exact absurd hmem (by decide)
  · have hmag : ∃ u', magnitude = u' ++ '.' :: v := by
      rcases hs with rfl | rfl
      · exact ⟨u, hw⟩
      · rcases u with _ | ⟨c, u⟩
        · exact absurd (List.cons.inj hw).1 (by decide)
        · exact ⟨u, (List.cons.inj hw).2⟩
    obtain ⟨u', hu'⟩ := hmag
    rcases hm with rfl | hm
    · have : '.' ∈ "Infinity".toList := by rw [hu']; simp
      exact absurd this (by decide)
    · exact hm.digit_after_point hu'

end NumberText

end ScriptWriter
