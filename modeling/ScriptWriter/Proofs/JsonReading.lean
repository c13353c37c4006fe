import ScriptWriter.Proofs.JsonText

/-!
# Reading JSON text back

The compact text of a JSON value is read as the value, and the reading ends where the text does
(`value_compact`), if its binary64 numbers are finite and its lists and objects stay within the
levels. A binary64 number shows a point or an exponent, so it is not taken for an integer
(`Number.toNumber?_numeral`), and an integer shows neither.
-/

namespace ScriptWriter.Json

/-! ## Numbers -/

open Reader Reader.Numeral

/-- The numeral of a whole decimal with a zero after the point. -/
def pointedNumeral (negative : Bool) (d : Decimal) : Numeral :=
  ⟨negative, d.numerals ++ List.replicate d.exponent.toNat '0', some ['0'], none⟩

/-- What the text of a finite number is read as. -/
def numeralOf (x : Binary64) : Numeral :=
  if x.isZero then ⟨x.isNegative, ['0'], some ['0'], none⟩
  else if isPositional (x.shortest .even) then
    if (x.shortest .even).isWhole then pointedNumeral x.isNegative (x.shortest .even)
    else (x.shortest .even).positionalNumeral x.isNegative
  else (x.shortest .even).scientificNumeral x.isNegative

theorem positionalNumeral_of_isWhole {d : Decimal} (h : d.isWhole = true) (negative : Bool) :
    d.positionalNumeral negative
      = ⟨negative, d.numerals ++ List.replicate d.exponent.toNat '0', none, none⟩ := by
  unfold Decimal.positionalNumeral
  rw [if_pos (by simpa [Decimal.isWhole] using h)]

theorem negative_numeralOf (x : Binary64) : (numeralOf x).negative = x.isNegative := by
  unfold numeralOf
  split
  · rfl
  · split
    · split
      · rfl
      · exact Decimal.negative_positionalNumeral _ _
    · rfl

theorem wellFormed_pointed (negative : Bool) {d : Decimal} (h : d.digits ≠ 0) :
    (pointedNumeral negative d).WellFormed := by
  refine ⟨d.digits_numerals.append_zeros _, Or.inr ?_, fun ds hds => ?_, by simp [pointedNumeral]⟩
  · have hne := d.digits_numerals.1
    rw [pointedNumeral, List.head?_append_of_ne_nil _ hne]
    exact Decimal.head_numerals_ne_zero h
  · cases hds
    exact digits_toDigits 0

theorem wellFormed_numeralOf (x : Binary64) : (numeralOf x).WellFormed := by
  unfold numeralOf
  split
  · exact ⟨digits_toDigits 0, Or.inl rfl, fun ds h => by cases h; exact digits_toDigits 0, by simp⟩
  · rename_i h0
    have hdigits := Binary64.shortest_digits_ne_zero (Bool.eq_false_of_not_eq_true h0) .even
    split
    · split
      · exact wellFormed_pointed _ hdigits
      · exact Decimal.wellFormed_positional _ hdigits
    · exact Decimal.wellFormed_scientific _ hdigits

theorem unsignedText_numeralOf (x : Binary64) :
    (numeralOf x).unsignedText = (magnitude x).toList := by
  unfold numeralOf magnitude
  split
  · rfl
  · dsimp only
    split
    · rw [String.toList_ofList, ← Decimal.unsignedText_positional x.isNegative]
      split
      · rename_i hwhole
        rw [positionalNumeral_of_isWhole hwhole]
        simp [pointedNumeral, unsignedText, fractionText, exponentText]
      · rw [List.append_nil]
    · rw [String.toList_ofList, Decimal.unsignedText_scientific]

theorem text_numeralOf {x : Binary64} (hfin : x.isFinite = true) :
    (numeralOf x).text = (floatText x).toList := by
  unfold text floatText
  rw [negative_numeralOf, unsignedText_numeralOf, hfin, Bool.not_true, if_neg Bool.false_ne_true]
  split
  · rw [String.toList_append]
    rfl
  · rfl

theorem isInteger_numeralOf (x : Binary64) : (numeralOf x).isInteger = false := by
  unfold numeralOf
  split
  · rfl
  · split
    · split
      · rfl
      · rename_i hwhole
        unfold Decimal.positionalNumeral
        rw [if_neg (by simpa [Decimal.isWhole] using hwhole)]
        split <;> rfl
    · simp [Decimal.scientificNumeral, isInteger]

/-- A zero after the point changes nothing. -/
theorem magnitude_pointed {d : Decimal} (h : d.isWhole = true) (negative : Bool) :
    (pointedNumeral negative d).magnitude = d.toRat := by
  have hvalue (ds : List Char) : Numeral.value (ds ++ ['0']) = 10 * Numeral.value ds := by
    unfold Numeral.value
    rw [Nat.ofDigitChars_append]
    rfl
  rw [← Decimal.magnitude_positional negative d, positionalNumeral_of_isWhole h]
  simp only [pointedNumeral, Numeral.magnitude, shift, Option.getD_some, Option.getD_none,
    List.append_nil, hvalue]
  norm_num
  ring

theorem toBinary64_numeralOf {x : Binary64} (hfin : x.isFinite = true) :
    (numeralOf x).toBinary64 = x := by
  by_cases h0 : x.isZero = true
  · have hbits : x.magnitudeBits = 0 := by simpa [Binary64.isZero] using h0
    unfold numeralOf
    rw [if_pos h0]
    conv_rhs => rw [← Binary64.ofMagnitude_self x, hbits]
    rfl
  · refine toBinary64_of_magnitude hfin (Bool.eq_false_of_not_eq_true h0) .even
      (negative_numeralOf x) ?_
    unfold numeralOf
    rw [if_neg h0]
    split
    · split
      · rename_i hwhole
        exact magnitude_pointed hwhole _
      · exact Decimal.magnitude_positional _ _
    · exact Decimal.magnitude_scientific _ _

/-- The number is written so that it is read as itself: it is finite, and an integer with a sign is
below zero. -/
def Number.isExact : Number → Bool
  | .natural _ => true
  | .negative n => n < 0
  | .float x => x.isFinite

/-- What the text of a number is read as. -/
def Number.numeral : Number → Numeral
  | .natural n => Literal.numeralOfInt n.toNat
  | .negative n => Literal.numeralOfInt n.toInt
  | .float x => numeralOf x

theorem Number.wellFormed_numeral : ∀ n : Number, n.numeral.WellFormed
  | .natural n => Literal.wellFormed_numeralOfInt n.toNat
  | .negative n => Literal.wellFormed_numeralOfInt n.toInt
  | .float x => wellFormed_numeralOf x

theorem Number.text_numeral : ∀ {n : Number}, n.isExact = true → n.numeral.text = n.compact.toList
  | .natural n, _ => Literal.text_numeralOfInt n.toNat
  | .negative n, _ => Literal.text_numeralOfInt n.toInt
  | .float _, h => text_numeralOf h

theorem value_numeralOfInt (n : Int) :
    Numeral.value (Literal.numeralOfInt n).whole = n.natAbs := Nat.ofDigitChars_ten_toDigits

theorem Number.toNumber?_numeral : ∀ {n : Number}, n.isExact = true →
    n.numeral.toNumber? = some n
  | .natural n, _ => by
    have hvalue : Numeral.value (Literal.numeralOfInt n.toNat).whole = n.toNat := by
      rw [value_numeralOfInt, Int.natAbs_natCast]
    have hnegative : (Literal.numeralOfInt n.toNat).negative = false := by
      simp [Literal.numeralOfInt]
    unfold toNumber? Number.numeral
    rw [hvalue, if_pos ⟨rfl, hnegative, n.toNat_lt_size⟩, UInt64.ofNat_toNat]
  | .negative n, h => by
    have hn : n.toInt < 0 := by simpa [isExact, Int64.lt_iff_toInt_lt] using h
    have hlow := n.le_toInt
    have hvalue : Numeral.value (Literal.numeralOfInt n.toInt).whole = n.toInt.natAbs :=
      value_numeralOfInt n.toInt
    have hnegative : (Literal.numeralOfInt n.toInt).negative = true := by
      simpa [Literal.numeralOfInt] using hn
    have hint : -(n.toInt.natAbs : Int) = n.toInt := by omega
    unfold toNumber? Number.numeral
    rw [hvalue, hnegative, if_neg (by simp), if_pos ⟨rfl, rfl, by omega, by omega⟩, hint,
      Int64.ofInt_toInt]
  | .float x, h => by
    have hinteger := isInteger_numeralOf x
    unfold toNumber? Number.numeral
    have hfin : x.isFinite = true := h
    rw [hinteger, if_neg (by simp), if_neg (by simp), toBinary64_numeralOf hfin, if_pos hfin]

theorem Reader.number_text {n : Numeral} {k : Number} (h : n.WellFormed) (hk : n.toNumber? = some k)
    {r : List Char} (hr : EndsBefore continuesNumber r) : number (n.text ++ r) = .ok (k, r) := by
  unfold number
  rw [bind_of_ok (numeral_text .unexpectedEnd h hr), hk]
  rfl

/-- A natural number is read from its decimal, and no number goes on after it. -/
theorem Reader.number_eq_natural {cs r : List Char} {n : UInt64}
    (h : number cs = .ok (.natural n, r)) :
    cs = Nat.toDigits 10 n.toNat ++ r ∧ EndsBefore continuesNumber r := by
  obtain ⟨m, rest, hnumeral, h⟩ := bind_eq_ok h
  cases hm : m.toNumber? with
  | none =>
    rw [hm] at h
    cases h
  | some k =>
    rw [hm] at h
    cases h
    unfold Numeral.toNumber? at hm
    dsimp only at hm
    split_ifs at hm with hinteger
    · obtain ⟨happend, hdigits, hlead, hends⟩ :=
        numeral_eq_integer hnumeral hinteger.1 hinteger.2.1
      cases hm
      rw [UInt64.toNat_ofNat_of_lt' hinteger.2.2, toDigits_value hdigits hlead]
      exact ⟨happend, hends⟩
    · cases hm
    · cases hm

/-! ## Values -/

theorem compactItems_eq_map (items : List Json) : compactItems items = items.map compact := by
  induction items with
  | nil => rfl
  | cons j rest ih => rw [compactItems, ih, List.map_cons]

/-- The text of an entry of an object. -/
def entryText (p : String × Json) : List Char := (quoted p.1).toList ++ ':' :: p.2.compact.toList

theorem compactEntries_eq_map (entries : List (String × Json)) :
    (compactEntries entries).map String.toList = entries.map entryText := by
  induction entries with
  | nil => rfl
  | cons p rest ih =>
    rw [compactEntries, List.map_cons, ih, List.map_cons, entryText]
    simp

theorem toList_compact_array (items : List Json) : (compact (.array items)).toList
    = '[' :: ([','].intercalate (items.map fun j => j.compact.toList) ++ [']']) := by
  rw [compact, compactItems_eq_map]
  simp [Function.comp_def]

theorem toList_compact_object (entries : List (String × Json)) :
    (compact (.object entries)).toList
      = '\x7b' :: ([','].intercalate (entries.map entryText) ++ ['\x7d']) := by
  rw [compact, ← compactEntries_eq_map]
  simp

/-- The compact text of an object is a way to write its fields. -/
theorem writesObject_compact {ι α : Type} {value : α → List Char → Prop} {items : List ι}
    {field : ι → String × α} {entry : ι → String × Json}
    (h : ∀ i ∈ items, (field i).1 = (entry i).1
      ∧ value (field i).2 (entry i).2.compact.toList) :
    WritesObject value (items.map field) (compact (.object (items.map entry))).toList := by
  have hmembers : List.Forall₂ (Member.Writes value) (items.map field)
      (items.map fun i => .bare (quoted (entry i).1).toList (entry i).2.compact.toList) := by
    rw [List.forall₂_map_left_iff, List.forall₂_map_right_iff, List.forall₂_same]
    intro i hi
    obtain ⟨hkey, hvalue⟩ := h i hi
    rw [← hkey]
    exact Member.writes_bare (spells_quoted _) hvalue
  have htext := WritesObject.intro noBlanks hmembers
  rw [toList_compact_object, List.map_map]
  rw [objectText, listText, List.map_map, List.map_map] at htext
  simpa only [Function.comp_def, Member.full_bare, noBlanks, List.nil_append, entryText]
    using htext

/-- The numbers of a JSON value are written so that they are read as themselves, and its lists and
objects nest within so many levels. -/
inductive Readable : Nat → Json → Prop
  | null {levels : Nat} : Readable levels .null
  | bool {levels : Nat} (b : Bool) : Readable levels (.bool b)
  | number {levels : Nat} {n : Number} (h : n.isExact = true) : Readable levels (.number n)
  | string {levels : Nat} (s : String) : Readable levels (.string s)
  | array {levels : Nat} {items : List Json} (h : ∀ j ∈ items, Readable levels j) :
    Readable (levels + 1) (.array items)
  | object {levels : Nat} {entries : List (String × Json)}
    (h : ∀ p ∈ entries, Readable levels p.2) : Readable (levels + 1) (.object entries)

namespace Readable

variable {levels : Nat} {j : Json}

/-- The text of a value starts neither with a blank nor with a closing bracket. -/
theorem head_compact (h : Readable levels j) : ∃ c rest, j.compact.toList = c :: rest
    ∧ isBlank c = false ∧ c ≠ ']' ∧ c ≠ '\x7d' := by
  cases h with
  | null => exact ⟨'n', _, rfl, by decide, by decide, by decide⟩
  | bool b => cases b <;> exact ⟨_, _, rfl, by decide, by decide, by decide⟩
  | number hn =>
    obtain ⟨c, rest, hcons, hc⟩ := (Number.wellFormed_numeral _).written.cons
    rw [Number.text_numeral hn] at hcons
    exact ⟨c, rest, hcons, isBlank_of_startsNumber hc, ne_of_startsNumber hc rfl (by decide),
      ne_of_startsNumber hc rfl (by decide)⟩
  | string s => exact ⟨'"', _, toList_quoted s, by decide, by decide, by decide⟩
  | array => exact ⟨'[', _, toList_compact_array _, by decide, by decide, by decide⟩
  | object => exact ⟨'\x7b', _, toList_compact_object _, by decide, by decide, by decide⟩

end Readable

namespace Reader

/-- What is no list or object is read the same way on every level. -/
theorem value_of_primitive {c : Char} {cs r : List Char} {j : Json} (hblank : isBlank c = false)
    (harray : c ≠ '[') (hobject : c ≠ '\x7b') (h : primitive c (c :: cs) = .ok (j, r))
    (levels : Nat) : value levels (c :: cs) = .ok (j, r) := by
  cases levels with
  | zero => rw [value, bind_of_ok (next_cons hblank cs), h]
  | succ levels => rw [value, bind_of_ok (next_cons hblank cs), if_neg harray, if_neg hobject, h]

theorem value_word {w r : List Char} {j : Json} (c : Char)
    (h : primitive c = (do word (c :: w); pure j)) (hblank : isBlank c = false)
    (harray : c ≠ '[') (hobject : c ≠ '\x7b') (levels : Nat) :
    value levels (c :: w ++ r) = .ok (j, r) := by
  refine value_of_primitive hblank harray hobject ?_ levels
  rw [h]
  exact bind_of_ok (word_append (c :: w) r)

theorem value_string (s : String) (r : List Char) (levels : Nat) :
    value levels ((quoted s).toList ++ r) = .ok (.string s, r) := by
  have hstring := string_of_spells (spells_quoted s) r
  rw [toList_quoted, List.cons_append] at hstring ⊢
  refine value_of_primitive (by decide) (by decide) (by decide) ?_ levels
  exact map_of_ok hstring

theorem value_numeral {n : Numeral} {k : Number} (h : n.WellFormed) (hk : n.toNumber? = some k)
    {r : List Char} (hr : EndsBefore continuesNumber r) (levels : Nat) :
    value levels (n.text ++ r) = .ok (.number k, r) := by
  have hnumber := number_text h hk hr
  obtain ⟨c, rest, hcons, hc⟩ := h.written.cons
  rw [hcons, List.cons_append] at hnumber ⊢
  refine value_of_primitive (isBlank_of_startsNumber hc) (ne_of_startsNumber hc rfl (by decide))
    (ne_of_startsNumber hc rfl (by decide)) ?_ levels
  unfold primitive
  rw [if_neg (ne_of_startsNumber hc rfl (by decide)),
    if_neg (ne_of_startsNumber hc rfl (by decide)), if_neg (ne_of_startsNumber hc rfl (by decide)),
    if_neg (ne_of_startsNumber hc rfl (by decide)), if_pos hc]
  exact map_of_ok hnumber

theorem value_number {n : Number} (h : n.isExact = true) {r : List Char}
    (hr : EndsBefore continuesNumber r) (levels : Nat) :
    value levels (n.compact.toList ++ r) = .ok (.number n, r) := by
  rw [← Number.text_numeral h]
  exact value_numeral n.wellFormed_numeral (Number.toNumber?_numeral h) hr levels

/-- The compact text of a value is read as the value wherever a number may end after it. -/
theorem value_compact {levels : Nat} {j : Json} (h : Readable levels j) {r : List Char}
    (hr : EndsBefore continuesNumber r) : value levels (j.compact.toList ++ r) = .ok (j, r) := by
  induction h generalizing r with
  | null => exact value_word 'n' rfl (by decide) (by decide) (by decide) _
  | bool b =>
    cases b with
    | true => exact value_word 't' rfl (by decide) (by decide) (by decide) _
    | false => exact value_word 'f' rfl (by decide) (by decide) (by decide) _
  | number hn => exact value_number hn hr _
  | string s => exact value_string s r _
  | @array levels items hitems ih =>
    have hread : ∀ j ∈ items, ∀ s, ReadsPart ']' (do pure ((← value levels) :: s))
        j.compact.toList (j :: s) := by
      intro j hj s
      obtain ⟨c, rest, hcons, hblank, hclose, -⟩ := (hitems j hj).head_compact
      refine ⟨⟨c, rest, hcons, hblank, hclose⟩, fun r hr => ?_⟩
      rw [bind_of_ok (ih j hj hr)]
      rfl
    have hgather := gather_joined closes_bracket hread [] '[' r
    rw [toList_compact_array, List.cons_append, List.append_assoc, List.singleton_append, value,
      bind_of_ok (next_cons (by decide) _), if_pos rfl, array, bind_of_ok hgather]
    rw [List.foldl_flip_cons_eq_append', List.append_nil, List.reverse_reverse]
    rfl
  | @object levels entries hentries ih =>
    have hread : ∀ p ∈ entries, ∀ s, ReadsPart '\x7d' (member (fun entries key => do
        colon
        pure ((key, ← value levels) :: entries)) s) (entryText p) (p :: s) := by
      intro p hp s
      refine readsPart_member (spells_quoted p.1) fun r hr => ?_
      have hcolon : colon (':' :: (p.2.compact.toList ++ r)) = .ok ((), _) :=
        colon_append noBlanks _
      rw [List.cons_append, bind_of_ok hcolon, bind_of_ok (ih p hp hr)]
      rfl
    have hgather := gather_joined closes_brace hread [] '\x7b' r
    rw [toList_compact_object, List.cons_append, List.append_assoc, List.singleton_append, value,
      bind_of_ok (next_cons (by decide) _), if_neg (by decide), if_pos rfl, object_eq_gather,
      bind_of_ok hgather, List.foldl_flip_cons_eq_append', List.append_nil, List.reverse_reverse]
    rfl

end Reader

/-- The compact text of a value is read as the value. -/
theorem readWritten_compact {j : Json} (h : Readable maxLevels j) :
    readWritten j.compact = .ok j := by
  have hread := value_compact h (r := []) trivial
  rw [List.append_nil] at hread
  exact readAll_of_ok noBlanks hread

end ScriptWriter.Json
