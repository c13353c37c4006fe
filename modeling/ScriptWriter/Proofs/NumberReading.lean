import ScriptWriter.Json.Reader.Number
import ScriptWriter.Proofs.NumberText
import ScriptWriter.Proofs.ShortestDecimal

/-!
# Reading number literals back

A numeral is read as it is written: digits end where no digit follows, and a zero that starts the
digits stands alone (`numeral_written`). Both layouts of a decimal are texts of numerals with the
number of the decimal (`magnitude_positional`, `magnitude_scientific`), since moving the point by a
place and the exponent by one does not change it. So the literal of a finite number is the text of
a numeral (`text_numeralOf`) that is rounded to that number (`toBinary64_numeralOf`).
-/

namespace ScriptWriter

/-- The text is over, or goes on with a character that fails the test. -/
def EndsBefore (p : Char → Bool) : List Char → Prop
  | [] => True
  | c :: _ => p c = false

theorem EndsBefore.mono {p q : Char → Bool} {r : List Char} (h : EndsBefore q r)
    (hpq : ∀ c, q c = false → p c = false) : EndsBefore p r := by
  cases r with
  | nil => trivial
  | cons c r => exact hpq c h

theorem takeWhile_append {p : Char → Bool} {cs r : List Char} (h : ∀ c ∈ cs, p c = true)
    (hr : EndsBefore p r) : (cs ++ r).takeWhile p = cs := by
  rw [List.takeWhile_append_of_pos h]
  cases r with
  | nil => simp
  | cons c r =>
    have hc : p c = false := hr
    simp [hc]

theorem dropWhile_append {p : Char → Bool} {cs r : List Char} (h : ∀ c ∈ cs, p c = true)
    (hr : EndsBefore p r) : (cs ++ r).dropWhile p = r := by
  rw [List.dropWhile_append_of_pos h]
  cases r with
  | nil => simp
  | cons c r =>
    have hc : p c = false := hr
    simp [hc]

namespace Json.Reader

theorem bind_of_ok {α β : Type} {m : Reader α} {f : α → Reader β} {cs rest : List Char} {a : α}
    (h : m cs = .ok (a, rest)) : (m >>= f) cs = f a rest := by
  simp only [bind, StateT.bind, h, Except.bind]

theorem bind_eq_ok {α β : Type} {m : Reader α} {f : α → Reader β} {cs r : List Char} {b : β}
    (h : (m >>= f) cs = .ok (b, r)) : ∃ a rest, m cs = .ok (a, rest) ∧ f a rest = .ok (b, r) := by
  simp only [bind, StateT.bind] at h
  cases hm : m cs with
  | error e =>
    rw [hm] at h
    cases h
  | ok p =>
    rw [hm] at h
    exact ⟨p.1, p.2, rfl, h⟩

theorem map_eq_ok {α β : Type} {m : Reader α} {f : α → β} {cs r : List Char} {b : β}
    (h : (f <$> m) cs = .ok (b, r)) : ∃ a, m cs = .ok (a, r) ∧ f a = b := by
  simp only [Functor.map, StateT.map, bind, Except.bind] at h
  cases hm : m cs with
  | error e =>
    rw [hm] at h
    cases h
  | ok p =>
    rw [hm] at h
    cases h
    exact ⟨p.1, rfl, rfl⟩

/-! ## Numerals as they are written -/

/-- The characters that may follow in a number. -/
def continuesNumber (c : Char) : Bool := c.isDigit || c = '.' || c = 'e' || c = 'E'

namespace Numeral

def fractionText : Option (List Char) → List Char
  | none => []
  | some ds => '.' :: ds

def exponentText : Option (Bool × List Char) → List Char
  | none => []
  | some (negative, ds) => 'e' :: (if negative then '-' else '+') :: ds

def unsignedText (n : Numeral) : List Char :=
  n.whole ++ (fractionText n.fraction ++ exponentText n.exponent)

def text (n : Numeral) : List Char :=
  if n.negative then '-' :: n.unsignedText else n.unsignedText

structure WellFormed (n : Numeral) : Prop where
  whole : Digits n.whole
  /-- A zero stands alone. -/
  leading : n.whole = ['0'] ∨ n.whole.head? ≠ some '0'
  fraction : ∀ ds, n.fraction = some ds → Digits ds
  exponent : ∀ negative ds, n.exponent = some (negative, ds) → Digits ds

/-- The ways to write an exponent: with either letter, and a plus sign may be left out. -/
inductive ExponentText : Option (Bool × List Char) → List Char → Prop
  | none : ExponentText none []
  | some {letter : Char} {sign : Option Char} {ds : List Char}
    (hletter : letter = 'e' ∨ letter = 'E') (hsign : ∀ c ∈ sign, c = '+' ∨ c = '-') :
    ExponentText (some (decide (sign = some '-'), ds)) (letter :: (sign.toList ++ ds))

/-- The text is one of the ways to write the numeral. -/
inductive Written (n : Numeral) : List Char → Prop
  | intro {exponent : List Char} (wellFormed : n.WellFormed)
    (hexponent : ExponentText n.exponent exponent) :
    Written n ((if n.negative then ['-'] else []) ++
      (n.whole ++ (fractionText n.fraction ++ exponent)))

theorem exponentText_exponentText : ∀ x, ExponentText x (exponentText x)
  | none => .none
  | some (true, ds) => @ExponentText.some 'e' (some '-') ds (Or.inl rfl) (by simp)
  | some (false, ds) => @ExponentText.some 'e' (some '+') ds (Or.inl rfl) (by simp)

theorem WellFormed.written {n : Numeral} (h : n.WellFormed) : n.Written n.text := by
  have htext : n.text = (if n.negative then ['-'] else []) ++ n.unsignedText := by
    unfold text
    split <;> rfl
  rw [htext]
  exact .intro h (exponentText_exponentText n.exponent)

end Numeral

open Numeral

theorem endsBefore_exponentText {p : Char → Bool} (he : p 'e' = false) (hE : p 'E' = false)
    {x : Option (Bool × List Char)} {cs r : List Char} (h : ExponentText x cs)
    (hr : EndsBefore p r) : EndsBefore p (cs ++ r) := by
  cases h with
  | none => exact hr
  | some hletter => rcases hletter with rfl | rfl <;> assumption

theorem endsBefore_fractionText {p : Char → Bool} (hp : p '.' = false) {r : List Char}
    (hr : EndsBefore p r) : ∀ fraction, EndsBefore p (fractionText fraction ++ r)
  | none => hr
  | some _ => hp

theorem digits_append (cut : ReadError) {ds r : List Char} (h : Digits ds)
    (hr : EndsBefore Char.isDigit r) : digits cut (ds ++ r) = .ok (ds, r) := by
  unfold digits
  rw [takeWhile_append h.2 hr, dropWhile_append h.2 hr]
  obtain ⟨d, ds, rfl⟩ := List.exists_cons_of_ne_nil h.1
  rfl

theorem whole_append (cut : ReadError) {ds r : List Char} (h : Digits ds)
    (h0 : ds = ['0'] ∨ ds.head? ≠ some '0') (hr : EndsBefore Char.isDigit r) :
    whole cut (ds ++ r) = .ok (ds, r) := by
  unfold whole
  rw [bind_of_ok (digits_append cut h hr)]
  split
  · simp at h0
  · rfl

theorem accept_of_endsBefore {p : Char → Bool} {r : List Char} (h : EndsBefore p r) :
    accept p r = .ok (none, r) := by
  unfold accept
  cases r with
  | nil => rfl
  | cons c r =>
    have hc : p c = false := h
    simp [hc]

theorem accept_cons {p : Char → Bool} {c : Char} (h : p c = true) (r : List Char) :
    accept p (c :: r) = .ok (some c, r) := by
  simp [accept, h]

theorem fraction_append (cut : ReadError) {r : List Char} (hd : EndsBefore Char.isDigit r)
    (hp : EndsBefore (fun c => decide (c = '.')) r) : ∀ f : Option (List Char),
      (∀ ds, f = some ds → Digits ds) → fraction cut (fractionText f ++ r) = .ok (f, r)
  | none, _ => by
    unfold fraction
    rw [fractionText, List.nil_append, bind_of_ok (accept_of_endsBefore hp)]
    rfl
  | some ds, h => by
    unfold fraction
    rw [fractionText, List.cons_append, bind_of_ok (accept_cons (by simp) _)]
    simp only [Functor.map, StateT.map, digits_append cut (h ds rfl) hd]
    rfl

theorem exponent_append (cut : ReadError) {x : Option (Bool × List Char)} {cs r : List Char}
    (h : ExponentText x cs) (hdigits : ∀ negative ds, x = some (negative, ds) → Digits ds)
    (hd : EndsBefore Char.isDigit r) (hp : EndsBefore (fun c => decide (c = 'e' ∨ c = 'E')) r) :
    exponent cut (cs ++ r) = .ok (x, r) := by
  unfold exponent
  cases h with
  | none =>
    rw [List.nil_append, bind_of_ok (accept_of_endsBefore hp)]
    rfl
  | @some letter sign ds hletter hsign =>
    have hds := hdigits _ ds rfl
    have haccept : accept (fun c => decide (c = '+' ∨ c = '-')) (sign.toList ++ (ds ++ r))
        = .ok (sign, ds ++ r) := by
      cases sign with
      | none =>
        obtain ⟨d, ds, rfl⟩ := List.exists_cons_of_ne_nil hds.1
        refine accept_of_endsBefore (decide_eq_false ?_)
        have hdigit := hds.2 d List.mem_cons_self
        rintro (rfl | rfl) <;> cases hdigit
      | some c => exact accept_cons (decide_eq_true (hsign c rfl)) _
    rw [List.cons_append, List.append_assoc, bind_of_ok (accept_cons (decide_eq_true hletter) _)]
    dsimp only
    rw [bind_of_ok haccept, bind_of_ok (digits_append cut hds hd)]
    rfl

theorem accept_minus (negative : Bool) {ds : List Char} (h : Digits ds) (r : List Char) :
    ∃ sign, accept (fun c => decide (c = '-')) ((if negative then ['-'] else []) ++ (ds ++ r))
        = .ok (sign, ds ++ r) ∧ sign.isSome = negative := by
  cases negative with
  | true => exact ⟨some '-', accept_cons rfl _, rfl⟩
  | false =>
    refine ⟨none, accept_of_endsBefore ?_, rfl⟩
    obtain ⟨d, ds, rfl⟩ := List.exists_cons_of_ne_nil h.1
    have hd : d ≠ '-' := fun hd => absurd (h.2 d List.mem_cons_self) (by rw [hd]; decide)
    simpa [EndsBefore] using hd

theorem numeral_written (cut : ReadError) {n : Numeral} {cs : List Char} (h : n.Written cs)
    {r : List Char} (hr : EndsBefore continuesNumber r) : numeral cut (cs ++ r) = .ok (n, r) := by
  obtain ⟨h, hexponent⟩ := h
  have hdigit : EndsBefore Char.isDigit r := hr.mono fun c hc => by simp_all [continuesNumber]
  have hpoint : EndsBefore (fun c => decide (c = '.')) r :=
    hr.mono fun c hc => by simp_all [continuesNumber]
  have hletter : EndsBefore (fun c => decide (c = 'e' ∨ c = 'E')) r :=
    hr.mono fun c hc => by simp_all [continuesNumber]
  -- each part ends where the next one starts, whichever of them are there
  have hdigit' := endsBefore_exponentText rfl rfl hexponent hdigit
  obtain ⟨sign, hsign, hnegative⟩ := accept_minus n.negative h.whole (fractionText n.fraction ++ _)
  have hwhole := whole_append cut h.whole h.leading
    (endsBefore_fractionText rfl hdigit' n.fraction)
  have hfraction := fraction_append cut hdigit' (endsBefore_exponentText rfl rfl hexponent hpoint)
    n.fraction h.fraction
  have hexponent := exponent_append cut hexponent h.exponent hdigit hletter
  unfold numeral
  rw [List.append_assoc, List.append_assoc, List.append_assoc, bind_of_ok hsign, bind_of_ok hwhole,
    bind_of_ok hfraction, bind_of_ok hexponent, hnegative]
  rfl

theorem numeral_text (cut : ReadError) {n : Numeral} (h : n.WellFormed) {r : List Char}
    (hr : EndsBefore continuesNumber r) : numeral cut (n.text ++ r) = .ok (n, r) :=
  numeral_written cut h.written hr

theorem Numeral.Written.cons {n : Numeral} {cs : List Char} (h : n.Written cs) :
    ∃ c rest, cs = c :: rest ∧ (c = '-' ∨ c.isDigit = true) := by
  obtain ⟨h, -⟩ := h
  cases n.negative with
  | true => exact ⟨'-', _, rfl, Or.inl rfl⟩
  | false =>
    obtain ⟨d, ds, hcons⟩ := List.exists_cons_of_ne_nil h.whole.1
    have hd : d.isDigit = true := h.whole.2 d (hcons ▸ List.mem_cons_self)
    rw [hcons]
    exact ⟨d, _, rfl, Or.inr hd⟩

/-- What may stand after the digits before the point: nothing, or a point or an exponent. -/
def GoesOn (tail : List Char) : Prop :=
  tail = [] ∨ ∃ d t, tail = d :: t ∧ d.isDigit = false ∧ continuesNumber d = true

theorem goesOn_of_written {x : Option (Bool × List Char)} {exponent : List Char}
    (f : Option (List Char)) (h : ExponentText x exponent) :
    GoesOn (fractionText f ++ exponent) := by
  cases f with
  | some ds => exact Or.inr ⟨'.', _, rfl, by decide, by decide⟩
  | none =>
    cases h with
    | none => exact Or.inl rfl
    | some hletter =>
      refine Or.inr ⟨_, _, rfl, ?_⟩
      rcases hletter with rfl | rfl <;> decide

/-! ## What an integer was read from -/

theorem accept_eq_none {p : Char → Bool} {cs r : List Char} (h : accept p cs = .ok (none, r)) :
    r = cs ∧ EndsBefore p cs := by
  unfold accept at h
  cases cs with
  | nil =>
    cases h
    exact ⟨rfl, trivial⟩
  | cons c cs =>
    dsimp only at h
    split at h
    · cases h
    · rename_i hc
      cases h
      exact ⟨rfl, Bool.eq_false_of_not_eq_true hc⟩

theorem endsBefore_dropWhile (p : Char → Bool) (cs : List Char) :
    EndsBefore p (cs.dropWhile p) := by
  induction cs with
  | nil => trivial
  | cons c cs ih =>
    rw [List.dropWhile_cons]
    split
    · exact ih
    · rename_i hc
      exact Bool.eq_false_of_not_eq_true hc

theorem digits_eq_ok {cut : ReadError} {cs ds r : List Char} (h : digits cut cs = .ok (ds, r)) :
    cs = ds ++ r ∧ Digits ds ∧ EndsBefore Char.isDigit r := by
  have hends := endsBefore_dropWhile Char.isDigit cs
  have hdigits : ∀ c ∈ cs.takeWhile Char.isDigit, c.isDigit = true :=
    fun c hc => List.all_eq_true.1 List.all_takeWhile c hc
  have happend := (List.takeWhile_append_dropWhile (p := Char.isDigit) (l := cs)).symm
  unfold digits at h
  revert h hends hdigits happend
  cases cs.takeWhile Char.isDigit with
  | nil => cases cs.dropWhile Char.isDigit <;> nofun
  | cons d ds' =>
    intro h hends hdigits happend
    cases h
    exact ⟨happend, ⟨by simp, hdigits⟩, hends⟩

theorem whole_eq_ok {cut : ReadError} {cs ds r : List Char} (h : whole cut cs = .ok (ds, r)) :
    cs = ds ++ r ∧ Digits ds ∧ (ds = ['0'] ∨ ds.head? ≠ some '0') ∧ EndsBefore Char.isDigit r := by
  obtain ⟨ds', rest, hdigits, h⟩ := bind_eq_ok h
  obtain ⟨happend, hds, hends⟩ := digits_eq_ok hdigits
  split at h
  · cases h
  · rename_i hlead
    cases h
    refine ⟨happend, hds, ?_, hends⟩
    obtain ⟨d, ds, rfl⟩ := List.exists_cons_of_ne_nil hds.1
    by_cases hd : d = '0'
    · cases ds with
      | nil => exact Or.inl (by rw [hd])
      | cons d' ds => exact absurd rfl (hd ▸ hlead d' ds)
    · exact Or.inr (by simpa using hd)

theorem fraction_eq_none {cut : ReadError} {cs r : List Char}
    (h : fraction cut cs = .ok (none, r)) :
    r = cs ∧ EndsBefore (fun c => decide (c = '.')) cs := by
  obtain ⟨point, rest, hpoint, h⟩ := bind_eq_ok h
  cases point with
  | none =>
    cases h
    exact accept_eq_none hpoint
  | some c =>
    obtain ⟨ds, -, hds⟩ := map_eq_ok h
    cases hds

theorem exponent_eq_none {cut : ReadError} {cs r : List Char}
    (h : exponent cut cs = .ok (none, r)) :
    r = cs ∧ EndsBefore (fun c => decide (c = 'e' ∨ c = 'E')) cs := by
  obtain ⟨letter, rest, hletter, h⟩ := bind_eq_ok h
  cases letter with
  | none =>
    cases h
    exact accept_eq_none hletter
  | some c =>
    obtain ⟨sign, rest, -, h⟩ := bind_eq_ok h
    obtain ⟨ds, rest, -, h⟩ := bind_eq_ok h
    cases h

/-- An integer without a sign is read from its digits, and no number goes on after them. -/
theorem numeral_eq_integer {cut : ReadError} {cs r : List Char} {n : Numeral}
    (h : numeral cut cs = .ok (n, r)) (hinteger : n.isInteger = true)
    (hnegative : n.negative = false) :
    cs = n.whole ++ r ∧ Digits n.whole ∧ (n.whole = ['0'] ∨ n.whole.head? ≠ some '0')
      ∧ EndsBefore continuesNumber r := by
  obtain ⟨sign, rest, hsign, h⟩ := bind_eq_ok h
  obtain ⟨ds, rest', hwhole, h⟩ := bind_eq_ok h
  obtain ⟨f, rest'', hfraction, h⟩ := bind_eq_ok h
  obtain ⟨x, rest''', hexponent, h⟩ := bind_eq_ok h
  cases h
  simp only [isInteger, Bool.and_eq_true, Option.isNone_iff_eq_none, Option.isSome_eq_false_iff]
    at hinteger hnegative ⊢
  obtain ⟨rfl, rfl⟩ := hinteger
  subst hnegative
  obtain ⟨rfl, -⟩ := accept_eq_none hsign
  obtain ⟨happend, hds, hlead, hdigit⟩ := whole_eq_ok hwhole
  obtain ⟨rfl, hpoint⟩ := fraction_eq_none hfraction
  obtain ⟨rfl, hletter⟩ := exponent_eq_none hexponent
  refine ⟨happend, hds, hlead, ?_⟩
  cases r with
  | nil => trivial
  | cons c r => simp_all [EndsBefore, continuesNumber]

/-! ## The number of a numeral -/

namespace Numeral

theorem value_le_append (ds more : List Char) :
    Numeral.value ds ≤ Numeral.value (ds ++ more) := by
  have hpos : 0 < 10 ^ more.length := Nat.pow_pos (by decide)
  unfold Numeral.value
  rw [Nat.ofDigitChars_append]
  generalize Nat.ofDigitChars 10 ds 0 = n
  rw [Nat.ofDigitChars_eq_ofDigitChars_zero]
  exact Nat.le_add_right_of_le (Nat.le_mul_of_pos_left n hpos)

/-- The power of ten that the exponent stands for. -/
def shift (n : Numeral) : Int :=
  match n.exponent with
  | none => 0
  | some (true, ds) => -Numeral.value ds
  | some (false, ds) => Numeral.value ds

def magnitude (n : Numeral) : ℚ :=
  Numeral.value (n.whole ++ n.fraction.getD []) * 10 ^ (n.shift - (n.fraction.getD []).length)

theorem toBinary64_eq (n : Numeral) : n.toBinary64 = .ofDecimal n.negative
    (Numeral.value (n.whole ++ n.fraction.getD [])) (n.shift - (n.fraction.getD []).length) := rfl

/-- Without a point and an exponent a numeral is rounded as a whole number. -/
theorem toBinary64_of_isInteger {n : Numeral} (h : n.isInteger = true) :
    n.toBinary64
      = .ofMagnitude n.negative (Binary64.nearestBits (Numeral.value n.whole <<< 1074) 1) := by
  obtain ⟨negative, whole, fraction, exponent⟩ := n
  simp only [isInteger, Bool.and_eq_true, Option.isNone_iff_eq_none] at h
  obtain ⟨rfl, rfl⟩ := h
  rw [toBinary64_eq]
  dsimp only [shift, Option.getD_none, List.length_nil]
  rw [List.append_nil, Binary64.ofDecimal]
  refine congrArg (Binary64.ofMagnitude negative) ?_
  by_cases h0 : Numeral.value whole = 0
  · rw [if_pos h0, h0, Nat.zero_shiftLeft]
    rfl
  · have hlow : ¬ (0 : Int) - (0 : Nat) + (Numeral.value whole).log2 + 1 < -324 := by omega
    have hone : Nat.pow 10 ((0 : Int) - (0 : Nat)).toNat = 1 := rfl
    have hone' : Nat.pow 10 (-((0 : Int) - (0 : Nat))).toNat = 1 := rfl
    rw [if_neg h0, if_neg (by decide), if_neg hlow, hone, hone', Nat.mul_one]

theorem toBinary64_of_magnitude {n : Numeral} {x : Binary64} (hfin : x.isFinite = true)
    (h0 : x.isZero = false) (tie : Tie) (hs : n.negative = x.isNegative)
    (hm : n.magnitude = (x.shortest tie).toRat) : n.toBinary64 = x := by
  rw [toBinary64_eq, hs]
  exact Binary64.ofDecimal_of_eq_shortest hfin h0 tie hm

theorem isNearest_toBinary64 {n : Numeral} (h : n.toBinary64.isFinite = true) :
    Binary64.IsNearest (Binary64.signed n.negative n.magnitude) n.toBinary64 :=
  Binary64.isNearest_ofDecimal h

end Numeral

end Json.Reader

/-! ## Decimals as numerals -/

open Json.Reader Json.Reader.Numeral

theorem head_toDigits_ne_zero {n : Nat} (h : 0 < n) : (Nat.toDigits 10 n).head? ≠ some '0' := by
  induction n using Nat.strong_induction_on with
  | h n ih =>
    -- all digits but the last are those of a smaller number
    rw [Nat.toDigits_eq_if (by decide)]
    split
    · rename_i hlt
      interval_cases n <;> decide
    · have hne : Nat.toDigits 10 (n / 10) ≠ [] := Nat.toDigits_ne_nil
      rw [List.head?_append_of_ne_nil _ hne]
      exact ih (n / 10) (by omega) (by omega)

/-- Digits without a zero in front are those of the number they stand for. -/
theorem toDigits_value {ds : List Char} (h : Digits ds)
    (hlead : ds = ['0'] ∨ ds.head? ≠ some '0') :
    Nat.toDigits 10 (Numeral.value ds) = ds := by
  induction ds using List.reverseRecOn with
  | nil => exact absurd rfl h.1
  | append_singleton ds d ih =>
    have hd : d.isDigit = true := h.2 d (by simp)
    have hrange : 48 ≤ d.toNat ∧ d.toNat ≤ 57 := Char.isDigit_iff_toNat.1 hd
    have hlast : Nat.toDigits 10 (d.toNat - 48) = [d] := by
      have hall : ∀ k < 10, Nat.toDigits 10 k = [Char.ofNat (k + 48)] := by decide
      rw [hall _ (by omega), Nat.sub_add_cancel hrange.1, Char.ofNat_toNat]
    have hvalue : Numeral.value (ds ++ [d])
        = 10 * Numeral.value ds + (d.toNat - 48) := by
      unfold Numeral.value
      rw [Nat.ofDigitChars_append]
      rfl
    by_cases hds : ds = []
    · subst hds
      rw [hvalue]
      simpa [Numeral.value] using hlast
    have hhead : ds.head? ≠ some '0' := by
      rw [List.head?_append_of_ne_nil _ hds] at hlead
      rcases hlead with heq | hne
      · exact absurd (congrArg List.length heq) (by simpa using hds)
      · exact hne
    have hinit := ih ⟨hds, fun c hc => h.2 c (List.mem_append_left _ hc)⟩ (Or.inr hhead)
    have hpos : 0 < Numeral.value ds := by
      refine Nat.pos_of_ne_zero fun hzero => hhead ?_
      rw [← hinit, hzero]
      rfl
    rw [hvalue, ← Nat.toDigits_append_toDigits (by decide) hpos (by omega), hinit, hlast]
namespace Decimal

theorem value_numerals (d : Decimal) : Numeral.value d.numerals = d.digits :=
  Nat.ofDigitChars_ten_toDigits

/-- The numeral of the layout without an exponent. -/
def positionalNumeral (negative : Bool) (d : Decimal) : Numeral :=
  if 0 ≤ d.exponent then ⟨negative, d.numerals ++ List.replicate d.exponent.toNat '0', none, none⟩
  else if 0 < d.point then
    ⟨negative, d.numerals.take d.point.toNat, some (d.numerals.drop d.point.toNat), none⟩
  else ⟨negative, ['0'], some (List.replicate (-d.point).toNat '0' ++ d.numerals), none⟩

/-- The numeral of the layout with an exponent. -/
def scientificNumeral (negative : Bool) (d : Decimal) : Numeral where
  negative
  whole := d.numerals.take 1
  fraction := if d.numerals.drop 1 = [] then none else some (d.numerals.drop 1)
  exponent := some (decide (d.point - 1 < 0), Nat.toDigits 10 (d.point - 1).natAbs)

theorem negative_positionalNumeral (negative : Bool) (d : Decimal) :
    (d.positionalNumeral negative).negative = negative := by
  unfold positionalNumeral
  split
  · rfl
  · split <;> rfl

theorem unsignedText_positional (negative : Bool) (d : Decimal) :
    (d.positionalNumeral negative).unsignedText = d.positional := by
  unfold positionalNumeral positional unsignedText
  split
  · simp [fractionText, exponentText]
  · split <;> simp [fractionText, exponentText]

theorem unsignedText_scientific (negative : Bool) (d : Decimal) :
    (d.scientificNumeral negative).unsignedText = d.scientific := by
  unfold scientificNumeral scientific mantissa unsignedText
  cases hrest : d.numerals.drop 1 with
  | nil => simp [fractionText, exponentText]
  | cons c rest => simp [fractionText, exponentText]

theorem head_numerals_ne_zero {d : Decimal} (h : d.digits ≠ 0) : d.numerals.head? ≠ some '0' :=
  head_toDigits_ne_zero (Nat.pos_of_ne_zero h)

theorem wellFormed_positional (negative : Bool) {d : Decimal} (h : d.digits ≠ 0) :
    (d.positionalNumeral negative).WellFormed := by
  have hd := d.digits_numerals
  have hhead := head_numerals_ne_zero h
  unfold positionalNumeral
  split
  · refine ⟨hd.append_zeros _, Or.inr ?_, by simp, by simp⟩
    rwa [List.head?_append_of_ne_nil _ hd.1]
  · rename_i hexp
    split
    · rename_i hpoint
      have hlt : d.point.toNat < d.numerals.length := by
        unfold point at hpoint ⊢
        omega
      refine ⟨hd.take (by omega), Or.inr ?_, ?_, by simp⟩
      · rwa [List.head?_take, if_neg (by omega)]
      · rintro ds ⟨⟩
        exact hd.drop hlt
    · refine ⟨digits_toDigits 0, Or.inl rfl, ?_, by simp⟩
      rintro ds ⟨⟩
      exact hd.zeros_append _

theorem wellFormed_scientific (negative : Bool) {d : Decimal} (h : d.digits ≠ 0) :
    (d.scientificNumeral negative).WellFormed := by
  have hd := d.digits_numerals
  refine ⟨hd.take Nat.one_pos, Or.inr ?_, ?_, ?_⟩
  · exact (List.head?_take ..).trans_ne (head_numerals_ne_zero h)
  · intro ds hds
    unfold scientificNumeral at hds
    split at hds
    · cases hds
    · rename_i hne
      cases hds
      exact ⟨hne, fun c hc => hd.2 c (List.mem_of_mem_drop hc)⟩
  · rintro sign ds ⟨⟩
    exact digits_toDigits _

theorem magnitude_eq_toRat {n : Numeral} {d : Decimal}
    (hv : Numeral.value (n.whole ++ n.fraction.getD []) = d.digits)
    (hs : n.shift - (n.fraction.getD []).length = d.exponent) : n.magnitude = d.toRat := by
  rw [magnitude, hv, hs, toRat]

theorem magnitude_positional (negative : Bool) (d : Decimal) :
    (d.positionalNumeral negative).magnitude = d.toRat := by
  unfold positionalNumeral
  split
  · rename_i hexp
    obtain ⟨k, hk⟩ := Int.eq_ofNat_of_zero_le hexp
    have hvalue : Numeral.value (d.numerals ++ List.replicate k '0') = d.digits * 10 ^ k := by
      unfold Numeral.value
      rw [Nat.ofDigitChars_append, Nat.ofDigitChars_replicate_zero]
      exact congrArg (10 ^ k * ·) d.value_numerals |>.trans (Nat.mul_comm _ _)
    simp [magnitude, shift, toRat, hk, hvalue]
  · rename_i hexp
    split
    · rename_i hpoint
      refine magnitude_eq_toRat ?_ ?_
      · simpa using d.value_numerals
      · have hpoint' : d.point = d.numerals.length + d.exponent := rfl
        simp only [shift, Option.getD_some, List.length_drop]
        omega
    · rename_i hpoint
      refine magnitude_eq_toRat ?_ ?_
      · rw [Option.getD_some, ← List.append_assoc, List.singleton_append, ← List.replicate_succ,
          Numeral.value, Nat.ofDigitChars_append, Nat.ofDigitChars_replicate_zero, Nat.mul_zero]
        exact d.value_numerals
      · have hpoint' : d.point = d.numerals.length + d.exponent := rfl
        simp only [shift, Option.getD_some, List.length_append, List.length_replicate]
        omega

theorem shift_signed (s : Int) {n : Numeral}
    (h : n.exponent = some (decide (s < 0), Nat.toDigits 10 s.natAbs)) : n.shift = s := by
  have hvalue : Numeral.value (Nat.toDigits 10 s.natAbs) = s.natAbs := Nat.ofDigitChars_ten_toDigits
  unfold shift
  rw [h]
  by_cases hs : s < 0
  · simp only [hs, decide_true, hvalue]
    omega
  · simp only [hs, decide_false, hvalue]
    omega

theorem magnitude_scientific (negative : Bool) (d : Decimal) :
    (d.scientificNumeral negative).magnitude = d.toRat := by
  have hfraction : (d.scientificNumeral negative).fraction.getD [] = d.numerals.drop 1 := by
    unfold scientificNumeral
    split <;> simp_all
  refine magnitude_eq_toRat ?_ ?_
  · rw [hfraction]
    exact (congrArg Numeral.value (List.take_append_drop 1 _)).trans d.value_numerals
  · have hlength := List.length_pos_of_ne_nil d.digits_numerals.1
    rw [hfraction, shift_signed (d.point - 1) rfl, List.length_drop]
    unfold point
    omega

end Decimal

/-! ## Literals of numbers -/

namespace Binary64

theorem shortest_digits_ne_zero {x : Binary64} (h0 : x.isZero = false) (tie : Tie) :
    (x.shortest tie).digits ≠ 0 := by
  intro hdigits
  have hbits : x.magnitudeBits ≠ 0 := by simpa [isZero] using h0
  have hcovers := covers_shortest hbits tie
  rw [Decimal.toRat, hdigits, Nat.cast_zero, zero_mul, zero_mul] at hcovers
  exact hbits (hcovers.eq_zero_of_lt (by norm_num))

end Binary64

namespace Literal

/-- What the literal of a finite number is read as. -/
def numeralOf (x : Binary64) : Numeral :=
  if x.isZero then ⟨x.isNegative, ['0'], none, none⟩
  else if isPositional x then (x.shortest .away).positionalNumeral x.isNegative
  else (x.shortest .away).scientificNumeral x.isNegative

theorem wellFormed_numeralOf (x : Binary64) : (numeralOf x).WellFormed := by
  unfold numeralOf
  split
  · exact ⟨digits_toDigits 0, Or.inl rfl, by simp, by simp⟩
  · rename_i h0
    have hdigits := Binary64.shortest_digits_ne_zero (Bool.eq_false_of_not_eq_true h0) .away
    split
    · exact Decimal.wellFormed_positional _ hdigits
    · exact Decimal.wellFormed_scientific _ hdigits

theorem negative_numeralOf (x : Binary64) : (numeralOf x).negative = x.isNegative := by
  unfold numeralOf
  split
  · rfl
  · split
    · exact Decimal.negative_positionalNumeral _ _
    · rfl

theorem text_numeralOf {x : Binary64} (hfin : x.isFinite = true) :
    (numeralOf x).text = (float x).toList := by
  have hinf := Binary64.not_isInfinite_of_isFinite hfin
  have hnan := Binary64.not_isNaN_of_isFinite hfin
  have hmagnitude : (numeralOf x).unsignedText = (magnitude x).toList := by
    unfold numeralOf magnitude
    rw [if_neg hinf]
    split
    · rfl
    · rw [String.toList_ofList]
      split
      · exact Decimal.unsignedText_positional _ _
      · rw [withSignedExponent_exponential]
        exact Decimal.unsignedText_scientific _ _
  unfold text float
  rw [negative_numeralOf, hmagnitude, if_neg hnan]
  split
  · rw [String.toList_append]
    rfl
  · rfl

theorem magnitude_numeralOf {x : Binary64} (h0 : ¬ x.isZero = true) :
    (numeralOf x).magnitude = (x.shortest .away).toRat := by
  unfold numeralOf
  rw [if_neg h0]
  split
  · exact Decimal.magnitude_positional _ _
  · exact Decimal.magnitude_scientific _ _

theorem toBinary64_numeralOf {x : Binary64} (hfin : x.isFinite = true) :
    (numeralOf x).toBinary64 = x := by
  by_cases h0 : x.isZero = true
  · have hbits : x.magnitudeBits = 0 := by simpa [Binary64.isZero] using h0
    unfold numeralOf
    rw [if_pos h0]
    conv_rhs => rw [← Binary64.ofMagnitude_self x, hbits]
    rfl
  · have hne := Bool.eq_false_of_not_eq_true h0
    exact toBinary64_of_magnitude hfin hne .away (negative_numeralOf x) (magnitude_numeralOf h0)

def numeralOfInt (n : Int) : Numeral := ⟨decide (n < 0), Nat.toDigits 10 n.natAbs, none, none⟩

theorem wellFormed_numeralOfInt (n : Int) : (numeralOfInt n).WellFormed := by
  refine ⟨digits_toDigits _, ?_, by simp [numeralOfInt], by simp [numeralOfInt]⟩
  rcases Nat.eq_zero_or_pos n.natAbs with h0 | hpos
  · refine Or.inl ?_
    rw [numeralOfInt, h0]
    rfl
  · exact Or.inr (head_toDigits_ne_zero hpos)

theorem text_numeralOfInt (n : Int) : (numeralOfInt n).text = (intText n).toList := by
  simp [numeralOfInt, intText, text, unsignedText, fractionText, exponentText]

theorem toBinary64_numeralOfInt (n : Int) : (numeralOfInt n).toBinary64 = .ofInt n := by
  have hvalue : Numeral.value (numeralOfInt n).whole = n.natAbs := Nat.ofDigitChars_ten_toDigits
  rw [toBinary64_of_isInteger rfl, hvalue]
  rfl

end Literal

end ScriptWriter
