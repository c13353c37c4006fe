import ScriptWriter.Proofs.Entries
import ScriptWriter.Proofs.NumberReading
import ScriptWriter.Value.Conversion
import ScriptWriter.Value.Json

/-!
# What a JSON text is loaded as

There are two ways from a JSON text to a host value: by the first kind that fits what is written,
and by the kind of the JSON value once repeated keys are merged. They agree on every text
(`loads_alike`): both refuse it with the same error, or both give the same value.

The first way merges the entries of an object after its values are converted, the second before and
once more afterwards. Converting the values of a dictionary commutes with inserting its entries
(`entries_ofList_map`), and distinct keys are not merged again, so both arrive at `loaded`.
What that is can be said without either way (`Loads`): an integer stays one if it fits, else it is
the nearest binary64 number, and an object has its keys in the order they came first, each with the
value that came last.
-/

namespace ScriptWriter

/-! ## Numbers -/

namespace Json

theorem mergedItems_eq_map (items : List Json) : mergedItems items = items.map merged := by
  induction items with
  | nil => rfl
  | cons j rest ih => rw [mergedItems, ih, List.map_cons]

theorem mergedEntries_eq_map (entries : List (String × Json)) :
    mergedEntries entries = entries.map fun p => (p.1, p.2.merged) := by
  induction entries with
  | nil => rfl
  | cons p rest ih => rw [mergedEntries, ih, List.map_cons]

/-- The integer that a number is, if it is written as one. -/
def Number.integer? : Number → Option Int
  | .natural n => some n.toNat
  | .negative n => some n.toInt
  | .float _ => none

/-- The integer before the point of a numeral, with its sign. -/
def Reader.Numeral.integer (n : Reader.Numeral) : Int :=
  if n.negative then -Reader.Numeral.value n.whole else Reader.Numeral.value n.whole

/-- Such an integer is far from where binary64 numbers end. -/
theorem Number.isNearest_of_integer? {n : Number} {z : Int} (h : n.integer? = some z) :
    Binary64.IsNearest z (.ofInt z) := by
  have hlt : z.natAbs < 2 ^ 65 := by
    cases n with
    | natural n =>
      have hlt := n.toNat_lt
      cases h
      omega
    | negative n =>
      have hlow := n.le_toInt
      have hhigh := n.toInt_lt
      cases h
      omega
    | float x => cases h
  exact Binary64.isNearest_ofInt (hlt.trans (pow_lt_pow_right₀ one_lt_two (by decide)))

end Json

namespace Value

theorem ofNumber_of_integer? {n : Json.Number} {z : Int} (h : n.integer? = some z) :
    ofNumber n = ofInt z := by
  have hmin : Int64.minValue.toInt = -9223372036854775808 := rfl
  have hmax : Int64.maxValue.toInt = 9223372036854775807 := rfl
  unfold ofInt
  rw [hmin, hmax]
  cases n with
  | natural n =>
    cases h
    have hle : n ≤ 0x7FFFFFFFFFFFFFFF ↔ n.toNat ≤ 9223372036854775807 := UInt64.le_iff_toNat_le
    rw [ofNumber, Json.Number.toInt64?]
    by_cases hn : n.toNat ≤ 9223372036854775807
    · have hint : n.toInt64 = Int64.ofInt n.toNat := by
        rw [Int64.ofInt_eq_ofNat]
        exact congrArg Int64.ofUInt64 UInt64.ofNat_toNat.symm
      rw [if_pos (hle.2 hn), if_pos ⟨by omega, by omega⟩, hint]
    · rw [if_neg (hn ∘ hle.1), if_neg (by omega)]
      rfl
  | negative n =>
    cases h
    have hlow := n.le_toInt
    have hhigh := n.toInt_lt
    rw [if_pos ⟨by omega, by omega⟩, Int64.ofInt_toInt]
    rfl
  | float x => cases h

open Json.Reader

theorem toBinary64_eq_ofInt {n : Numeral} (hinteger : n.isInteger = true)
    (hzero : ¬ (n.negative = true ∧ n.integer = 0)) : n.toBinary64 = .ofInt n.integer := by
  rw [Numeral.toBinary64_of_isInteger hinteger, Binary64.ofInt]
  unfold Numeral.integer at hzero ⊢
  cases hneg : n.negative with
  | false =>
    have hsign : ¬ (Numeral.value n.whole : Int) < 0 := by omega
    simp [hsign]
  | true =>
    have hsign : -(Numeral.value n.whole : Int) < 0 := by
      simp only [hneg, if_true, true_and] at hzero
      omega
    simp only [if_true, hsign, decide_true, Int.natAbs_neg, Int.natAbs_natCast]

/-- How a numeral is loaded: as an integer where it is written as one that fits, minus zero apart,
and as the nearest binary64 number otherwise. Some are out of the range of both. -/
def ofNumeral? (n : Numeral) : Option Value :=
  if n.isInteger ∧ Int64.minValue.toInt ≤ n.integer ∧ n.integer ≤ Int64.maxValue.toInt
      ∧ ¬ (n.negative ∧ n.integer = 0) then some (.int (Int64.ofInt n.integer))
  else if n.toBinary64.isFinite then some (.float n.toBinary64)
  else none

/-- The integers of a JSON number are loaded alike, also where they fit it but no host integer. -/
theorem ofNumeral?_of_integer? {n : Numeral} {number : Json.Number}
    (hinteger : n.isInteger = true) (hzero : ¬ (n.negative = true ∧ n.integer = 0))
    (hnumber : number.integer? = some n.integer) : ofNumeral? n = some (ofNumber number) := by
  have hfinite : n.toBinary64.isFinite = true := by
    rw [toBinary64_eq_ofInt hinteger hzero]
    exact (Json.Number.isNearest_of_integer? hnumber).finite
  rw [ofNumber_of_integer? hnumber, ofNumeral?, ofInt]
  by_cases hfits : Int64.minValue.toInt ≤ n.integer ∧ n.integer ≤ Int64.maxValue.toInt
  · rw [if_pos ⟨hinteger, hfits.1, hfits.2, hzero⟩, if_pos hfits]
  · rw [if_neg fun h => hfits ⟨h.2.1, h.2.2.1⟩, if_pos hfinite, if_neg hfits,
      toBinary64_eq_ofInt hinteger hzero]

theorem ofNumber_toNumber? (n : Numeral) : n.toNumber?.map ofNumber = ofNumeral? n := by
  rw [Numeral.toNumber?]
  split
  · rename_i h
    obtain ⟨hinteger, hneg, hlt⟩ := h
    have hz : n.integer = Numeral.value n.whole := by simp [Numeral.integer, hneg]
    refine (ofNumeral?_of_integer? hinteger (by simp [hneg]) ?_).symm
    rw [hz, Json.Number.integer?, UInt64.toNat_ofNat_of_lt' hlt]
  · rename_i hnatural
    split
    · rename_i h
      obtain ⟨hinteger, hneg, hpos, hle⟩ := h
      have hz : n.integer = -Numeral.value n.whole := by simp [Numeral.integer, hneg]
      refine (ofNumeral?_of_integer? hinteger (by rw [hz]; omega) ?_).symm
      rw [hz, Json.Number.integer?, Int64.toInt_ofInt_of_le (by omega) (by omega)]
    · rename_i hnegative
      have hsize : UInt64.size = 18446744073709551616 := rfl
      have hmin : Int64.minValue.toInt = -9223372036854775808 := rfl
      have hmax : Int64.maxValue.toInt = 9223372036854775807 := rfl
      have houtside : ¬ (n.isInteger = true ∧ Int64.minValue.toInt ≤ n.integer
          ∧ n.integer ≤ Int64.maxValue.toInt ∧ ¬ (n.negative = true ∧ n.integer = 0)) := by
        rintro ⟨hinteger, hlow, hhigh, hzero⟩
        unfold Numeral.integer at hlow hhigh hzero
        cases hneg : n.negative with
        | false =>
          rw [hneg, if_neg Bool.false_ne_true] at hhigh
          exact hnatural ⟨hinteger, hneg, by omega⟩
        | true =>
          rw [hneg, if_pos rfl] at hlow hzero
          have hne : -(Numeral.value n.whole : Int) ≠ 0 := fun h0 => hzero ⟨rfl, h0⟩
          exact hnegative ⟨hinteger, hneg, by omega, by omega⟩
      rw [ofNumeral?, if_neg houtside]
      split <;> rfl

/-! ## Both ways -/

/-- The value that a JSON value as written is loaded as. -/
def loaded (j : Json) : Value := ofJson j.merged

theorem ofJsonItems_eq_map (items : List Json) : ofJsonItems items = items.map ofJson := by
  induction items with
  | nil => rfl
  | cons j rest ih => rw [ofJsonItems, ih, List.map_cons]

theorem ofJsonEntries_eq_map (entries : List (String × Json)) :
    ofJsonEntries entries = entries.map fun p => (p.1, ofJson p.2) := by
  induction entries with
  | nil => rfl
  | cons p rest ih => rw [ofJsonEntries, ih, List.map_cons]

/-- Distinct keys keep every entry in its place. -/
theorem ofEntries_of_nodup {entries : List (String × Value)}
    (h : (entries.map Prod.fst).Nodup) : ofEntries entries = .map entries := by
  rw [ofEntries, ofDict, Dict.entries_ofList h]

theorem loaded_array (items : List Json) : loaded (.array items) = .list (items.map loaded) := by
  rw [loaded, Json.merged, ofJson, ofJsonItems_eq_map, Json.mergedItems_eq_map, List.map_map]
  rfl

/-- Merging before the values are converted and again afterwards is merging once. -/
theorem loaded_object (entries : List (String × Json)) :
    loaded (.object entries) = ofEntries (entries.map fun p => (p.1, loaded p.2)) := by
  have hmerged : (Dict.ofList (Json.mergedEntries entries)).entries.map (fun p => (p.1, ofJson p.2))
      = (Dict.ofList (entries.map fun p => (p.1, loaded p.2))).entries := by
    rw [← Dict.entries_ofList_map, Json.mergedEntries_eq_map, List.map_map]
    rfl
  rw [loaded, Json.merged, ofJson, ofJsonEntries_eq_map, hmerged,
    ofEntries_of_nodup (Dict.distinct _)]
  rfl

mutual

theorem firstFit?_eq : ∀ j : Json, firstFit? j = some (loaded j)
  | .null => rfl
  | .bool _ => rfl
  | .string _ => rfl
  | .number n => by
    have hkinds : firstFit? (.number n)
        = (n.toInt64?.map Value.int <|> some (.float n.toBinary64)) := rfl
    have hloaded : loaded (.number n) = ofNumber n := rfl
    rw [hkinds, hloaded, ofNumber]
    cases n.toInt64? <;> rfl
  | .array items => by
    have hkinds : firstFit? (.array items) = (firstFitItems? items).map Value.list := by
      simp [firstFit?, nullFit?, boolFit?, intFit?, floatFit?, stringFit?]
    rw [hkinds, firstFitItems?_eq items, loaded_array]
    rfl
  | .object entries => by
    have hkinds : firstFit? (.object entries) = (firstFitEntries? entries).map ofEntries := by
      simp [firstFit?, nullFit?, boolFit?, intFit?, floatFit?, stringFit?]
    rw [hkinds, firstFitEntries?_eq entries, loaded_object]
    rfl

theorem firstFitItems?_eq : ∀ items : List Json,
    firstFitItems? items = some (items.map loaded)
  | [] => rfl
  | j :: rest => by
    rw [firstFitItems?, firstFit?_eq j, firstFitItems?_eq rest]
    rfl

theorem firstFitEntries?_eq : ∀ entries : List (String × Json),
    firstFitEntries? entries = some (entries.map fun p => (p.1, loaded p.2))
  | [] => rfl
  | (key, j) :: rest => by
    rw [firstFitEntries?, firstFit?_eq j, firstFitEntries?_eq rest]
    rfl

end

/-! ## What is loaded -/

/-- The value that a JSON value as written stands for. -/
inductive Loads : Json → Value → Prop
  | null : Loads .null .null
  | bool (b : Bool) : Loads (.bool b) (.bool b)
  | string (s : String) : Loads (.string s) (.string s)
  | integer {n : Json.Number} {z : Int} (written : n.integer? = some z)
    (fits : Int64.minValue.toInt ≤ z ∧ z ≤ Int64.maxValue.toInt) :
    Loads (.number n) (.int (Int64.ofInt z))
  /-- An integer that does not fit is rounded. -/
  | rounded {n : Json.Number} {z : Int} {x : Binary64} (written : n.integer? = some z)
    (outside : ¬ (Int64.minValue.toInt ≤ z ∧ z ≤ Int64.maxValue.toInt))
    (nearest : Binary64.IsNearest z x) : Loads (.number n) (.float x)
  | float (x : Binary64) : Loads (.number (.float x)) (.float x)
  | array {items : List Json} {values : List Value} (each : List.Forall₂ Loads items values) :
    Loads (.array items) (.list values)
  /-- The keys are in the order they came first, and each has the value that came last. -/
  | object {entries : List (String × Json)} {values : List (String × Value)}
    (keys : values.map Prod.fst = (entries.map Prod.fst).eraseDups)
    (each : ∀ k j v, entries.reverse.lookup k = some j → values.lookup k = some v → Loads j v) :
    Loads (.object entries) (.map values)

theorem loads_number (n : Json.Number) : Loads (.number n) (ofNumber n) := by
  cases hn : n.integer? with
  | none =>
    cases n with
    | float x => exact .float x
    | natural n => cases hn
    | negative n => cases hn
  | some z =>
    rw [ofNumber_of_integer? hn, ofInt]
    split
    · rename_i hfits
      exact .integer hn hfits
    · rename_i houtside
      exact .rounded hn houtside (Json.Number.isNearest_of_integer? hn)

theorem loads_object {entries : List (String × Json)}
    (h : ∀ p ∈ entries, Loads p.2 (loaded p.2)) :
    Loads (.object entries) (loaded (.object entries)) := by
  rw [loaded_object]
  refine .object ?_ fun k j v hj hv => ?_
  · rw [Dict.keys_ofList, List.map_map]
    rfl
  · have hlast : (Dict.ofList (entries.map fun p => (p.1, loaded p.2))).entries.lookup k
        = some (loaded j) := by
      have hget := Dict.get?_ofList (entries.map fun p => (p.1, loaded p.2)) k
      rw [← List.map_reverse, lookup_map, hj] at hget
      exact hget
    rw [hlast] at hv
    cases hv
    exact h (k, j) (List.mem_reverse.1 (mem_of_lookup hj))

mutual

theorem loads_loaded : ∀ j : Json, Loads j (loaded j)
  | .null => .null
  | .bool b => .bool b
  | .string s => .string s
  | .number n => loads_number n
  | .array items => by
    rw [loaded_array]
    exact .array (List.forall₂_map_right_iff.2 (List.forall₂_same.2 (loads_items items)))
  | .object entries => loads_object (loads_entries entries)

theorem loads_items : ∀ items : List Json, ∀ j ∈ items, Loads j (loaded j)
  | [] => fun _ hj => absurd hj List.not_mem_nil
  | j :: rest => List.forall_mem_cons.2 ⟨loads_loaded j, loads_items rest⟩

theorem loads_entries : ∀ entries : List (String × Json), ∀ p ∈ entries, Loads p.2 (loaded p.2)
  | [] => fun _ hp => absurd hp List.not_mem_nil
  | (_, j) :: rest => List.forall_mem_cons.2 ⟨loads_loaded j, loads_entries rest⟩

end

/-- The two ways from a text to a value agree. Both refuse the text with the error of its reading,
or both give the value that the JSON value as written stands for. A numeral, wherever it stands in
the text, is loaded as `ofNumeral?` says. -/
theorem loads_alike (text : String) :
    ((∃ e, Json.readWritten text = .error e ∧ readFirstFit text = .error e ∧ read text = .error e)
      ∨ ∃ j v, Json.readWritten text = .ok j ∧ Loads j v
        ∧ readFirstFit text = .ok v ∧ read text = .ok v)
      ∧ ∀ n : Numeral, n.toNumber?.map ofNumber = ofNumeral? n := by
  refine ⟨?_, ofNumber_toNumber?⟩
  unfold readFirstFit read Json.read
  cases hread : Json.readWritten text with
  | error e => exact Or.inl ⟨e, rfl, rfl, rfl⟩
  | ok j =>
    refine Or.inr ⟨j, loaded j, rfl, loads_loaded j, ?_, rfl⟩
    simp only [bind, Except.bind, firstFit?_eq]
    rfl

end Value

end ScriptWriter
