import ScriptWriter.Proofs.JsonReading
import ScriptWriter.Proofs.Loading

/-!
# Values survive JSON text

A value whose numbers are finite and whose lists and maps nest no deeper than a reader goes is read
back from its compact text as itself, whichever of the two ways back is taken
(`read_back_from_compact`): an integer stays an integer, a binary64 number keeps its bits, and a map
keeps the order of its entries.

The text gives back the JSON value (`readWritten_compact`), and the two ways on from it agree
(`firstFit?_eq`). What is left is that one of them loses nothing of a JSON value that a host value
was turned into: the keys of its objects are distinct, so nothing is merged, and the kind of a
number is decided by its class alone.
-/

namespace ScriptWriter

namespace Json

/-- The sign decides the class of an integer. -/
theorem Number.isExact_ofInt64 (n : Int64) : (ofInt64 n).isExact = true := by
  unfold ofInt64
  split
  · rename_i hn
    exact decide_eq_true hn
  · rfl

theorem Number.toInt64?_ofInt64 (n : Int64) : (ofInt64 n).toInt64? = some n := by
  unfold ofInt64
  split
  · rfl
  · rename_i hn
    have hsign : 0 ≤ n.toBitVec.toInt := by
      simpa [Int64.lt_iff_toInt_lt] using hn
    have hfits : n.toUInt64 ≤ 0x7FFFFFFFFFFFFFFF := by
      have hnat : n.toBitVec.toNat ≤ 0x7FFFFFFFFFFFFFFF := by
        rw [BitVec.toInt_eq_toNat_cond] at hsign
        omega
      exact UInt64.le_iff_toNat_le.2 hnat
    rw [toInt64?, if_pos hfits, Int64.toInt64_toUInt64]

end Json

namespace Value

/-- The value can stand in a JSON text that is read with so many levels: its numbers are finite, and
its lists and maps nest within the levels. A map has each key once. -/
inductive Expressible : Nat → Value → Prop
  | null {levels : Nat} : Expressible levels .null
  | bool {levels : Nat} (b : Bool) : Expressible levels (.bool b)
  | int {levels : Nat} (n : Int64) : Expressible levels (.int n)
  | float {levels : Nat} {x : Binary64} (finite : x.isFinite = true) : Expressible levels (.float x)
  | string {levels : Nat} (s : String) : Expressible levels (.string s)
  | list {levels : Nat} {items : List Value} (within : ∀ v ∈ items, Expressible levels v) :
    Expressible (levels + 1) (.list items)
  | map {levels : Nat} {entries : List (String × Value)}
    (distinct : (entries.map Prod.fst).Nodup) (within : ∀ p ∈ entries, Expressible levels p.2) :
    Expressible (levels + 1) (.map entries)

/-! ## Part by part -/

theorem toJsonItems_eq_map (items : List Value) : toJsonItems items = items.map toJson := by
  induction items with
  | nil => rfl
  | cons v rest ih => rw [toJsonItems, ih, List.map_cons]

theorem toJsonEntries_eq_map (entries : List (String × Value)) :
    toJsonEntries entries = entries.map fun p => (p.1, p.2.toJson) := by
  induction entries with
  | nil => rfl
  | cons p rest ih => rw [toJsonEntries, ih, List.map_cons]

/-! ## There and back -/

namespace Expressible

variable {levels : Nat} {v : Value}

theorem readable_toJson (h : Expressible levels v) : v.toJson.Readable levels := by
  induction h with
  | null => exact .null
  | bool b => exact .bool b
  | int n => exact .number (Json.Number.isExact_ofInt64 n)
  | float finite =>
    rw [toJson, if_pos finite]
    exact .number finite
  | string s => exact .string s
  | list _ ih =>
    rw [toJson, toJsonItems_eq_map]
    exact .array (List.forall_mem_map.2 ih)
  | map _ _ ih =>
    rw [toJson, toJsonEntries_eq_map]
    exact .object (List.forall_mem_map.2 ih)

theorem merged_toJson (h : Expressible levels v) : v.toJson.merged = v.toJson := by
  induction h with
  | null | bool | int | string => rfl
  | float finite => rw [toJson, if_pos finite, Json.merged]; all_goals simp
  | list _ ih =>
    rw [toJson, toJsonItems_eq_map, Json.merged, Json.mergedItems_eq_map, List.map_map]
    exact congrArg Json.array (List.map_congr_left ih)
  | @map levels entries distinct _ ih =>
    have hentries : (entries.map fun p => (p.1, p.2.toJson)).map (fun p => (p.1, p.2.merged))
        = entries.map fun p => (p.1, p.2.toJson) := by
      rw [List.map_map]
      exact List.map_congr_left fun p hp => congrArg (Prod.mk p.1) (ih p hp)
    have hkeys : ((entries.map fun p => (p.1, p.2.toJson)).map Prod.fst).Nodup := by
      rwa [List.map_map]
    rw [toJson, toJsonEntries_eq_map, Json.merged, Json.mergedEntries_eq_map, hentries,
      Dict.entries_ofList hkeys]

theorem ofJson_toJson (h : Expressible levels v) : ofJson v.toJson = v := by
  induction h with
  | null | bool | string => rfl
  | int n => rw [toJson, ofJson, ofNumber, Json.Number.toInt64?_ofInt64]
  | float finite =>
    rw [toJson, if_pos finite]
    rfl
  | list _ ih =>
    rw [toJson, toJsonItems_eq_map, ofJson, ofJsonItems_eq_map, List.map_map]
    exact congrArg Value.list ((List.map_congr_left ih).trans (List.map_id _))
  | @map levels entries distinct _ ih =>
    have hentries : (entries.map fun p => (p.1, p.2.toJson)).map (fun p => (p.1, ofJson p.2))
        = entries := by
      rw [List.map_map]
      exact (List.map_congr_left fun p hp => congrArg (Prod.mk p.1) (ih p hp)).trans (List.map_id _)
    rw [toJson, toJsonEntries_eq_map, ofJson, ofJsonEntries_eq_map, hentries,
      ofEntries_of_nodup distinct]

theorem firstFit?_toJson (h : Expressible levels v) : firstFit? v.toJson = some v := by
  rw [firstFit?_eq, loaded, h.merged_toJson, h.ofJson_toJson]

end Expressible

/-- A value is read back from its compact text as itself, by the first kind that fits and by the
kind of the JSON value. -/
theorem read_back_from_compact {v : Value} (h : Expressible 127 v) :
    readFirstFit v.compact = .ok v ∧ read v.compact = .ok v := by
  have htext : Json.readWritten v.compact = .ok v.toJson :=
    Json.readWritten_compact h.readable_toJson
  constructor
  · rw [readFirstFit, htext]
    simp only [bind, Except.bind, h.firstFit?_toJson]
    rfl
  · rw [read, Json.read, htext]
    simp only [Functor.map, Except.map, h.merged_toJson, h.ofJson_toJson]

/-- The least integer, zero with a sign, a whole binary64 number and a quoted line break, the keys
in no order. -/
def crowdedMap : Value :=
  .map [("z", .list [.int Int64.minValue, .float ⟨0x8000000000000000⟩,
      .float ⟨0x3FF0000000000000⟩]),
    ("a", .string "\"\n\"")]

theorem crowdedMap_expressible : Expressible 127 crowdedMap := by
  refine .map (by decide) fun p hp => ?_
  simp only [List.mem_cons, List.not_mem_nil, or_false] at hp
  rcases hp with rfl | rfl
  · refine .list fun v hv => ?_
    simp only [List.mem_cons, List.not_mem_nil, or_false] at hv
    rcases hv with rfl | rfl | rfl
    · exact .int _
    · exact .float (by decide)
    · exact .float (by decide)
  · exact .string _

theorem crowdedMap_read_back : Expressible 127 crowdedMap
    ∧ readFirstFit crowdedMap.compact = .ok crowdedMap ∧ read crowdedMap.compact = .ok crowdedMap :=
  ⟨crowdedMap_expressible, read_back_from_compact crowdedMap_expressible⟩

end Value

end ScriptWriter
