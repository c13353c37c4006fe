import ScriptWriter.Binary32
import ScriptWriter.Value.Basic

/-!
# Conversions into values

A number keeps its kind: whole numbers that fit 64 bits with a sign are integers, larger ones the
nearest binary64 number. Optional values, lists and dictionaries are converted part by part.
-/

namespace ScriptWriter

/-- Types whose elements are host values in one way. -/
class ToValue (α : Type) where
  toValue : α → Value

export ToValue (toValue)

namespace Value

/-- The integer if it fits, else the nearest binary64 number. -/
def ofInt (n : Int) : Value :=
  if Int64.minValue.toInt ≤ n ∧ n ≤ Int64.maxValue.toInt then .int (Int64.ofInt n)
  else .float (.ofInt n)

end Value

instance : ToValue Value := ⟨id⟩
instance : ToValue Bool := ⟨.bool⟩
instance : ToValue Int8 := ⟨fun n => .ofInt n.toInt⟩
instance : ToValue Int16 := ⟨fun n => .ofInt n.toInt⟩
instance : ToValue Int32 := ⟨fun n => .ofInt n.toInt⟩
instance : ToValue Int64 := ⟨.int⟩
instance : ToValue UInt8 := ⟨fun n => .ofInt n.toNat⟩
instance : ToValue UInt16 := ⟨fun n => .ofInt n.toNat⟩
instance : ToValue UInt32 := ⟨fun n => .ofInt n.toNat⟩
instance : ToValue UInt64 := ⟨fun n => .ofInt n.toNat⟩
instance : ToValue ISize := ⟨fun n => .int n.toInt64⟩
instance : ToValue USize := ⟨fun n => toValue n.toUInt64⟩
instance : ToValue Binary32 := ⟨fun x => .float x.toBinary64⟩
instance : ToValue Binary64 := ⟨.float⟩
instance : ToValue Char := ⟨fun c => .string (String.singleton c)⟩
instance : ToValue String := ⟨.string⟩

variable {α : Type} [ToValue α]

/-- An absent value is null. -/
instance : ToValue (Option α) := ⟨fun a => a.elim .null toValue⟩

instance : ToValue (List α) := ⟨fun items => .list (items.map toValue)⟩

instance : ToValue (Dict α) :=
  ⟨fun d => .map (d.entries.map fun e => (e.1, toValue e.2))⟩

end ScriptWriter
