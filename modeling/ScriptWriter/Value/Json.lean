import ScriptWriter.Json.Reader.Value
import ScriptWriter.Value.Basic

/-!
# Values and JSON

A value is written as JSON kind by kind, and there are two ways back: `ofJson` goes by the kind of
the JSON value, `firstFit?` tries the kinds of host values in a fixed order and takes the first
that fits. A JSON number is an integer if it fits and a binary64 number otherwise.
-/

namespace ScriptWriter.Value

mutual

/-- The value as JSON; a number that is not finite has no place there and becomes null. -/
def toJson : Value → Json
  | .null => .null
  | .bool b => .bool b
  | .int n => .number (.ofInt64 n)
  | .float x => if x.isFinite then .number (.float x) else .null
  | .string s => .string s
  | .list items => .array (toJsonItems items)
  | .map entries => .object (toJsonEntries entries)

def toJsonItems : List Value → List Json
  | [] => []
  | v :: rest => toJson v :: toJsonItems rest

def toJsonEntries : List (String × Value) → List (String × Json)
  | [] => []
  | (key, v) :: rest => (key, toJson v) :: toJsonEntries rest

end

/-- The compact JSON text of a value. -/
def compact (v : Value) : String := v.toJson.compact

/-- The integer of a number that is one and fits, else the nearest binary64 number. -/
def ofNumber (n : Json.Number) : Value :=
  match n.toInt64? with
  | some i => .int i
  | none => .float n.toBinary64

mutual

/-- The value of a JSON value, by its kind. -/
def ofJson : Json → Value
  | .null => .null
  | .bool b => .bool b
  | .number n => ofNumber n
  | .string s => .string s
  | .array items => .list (ofJsonItems items)
  | .object entries => ofEntries (ofJsonEntries entries)

def ofJsonItems : List Json → List Value
  | [] => []
  | j :: rest => ofJson j :: ofJsonItems rest

def ofJsonEntries : List (String × Json) → List (String × Value)
  | [] => []
  | (key, j) :: rest => (key, ofJson j) :: ofJsonEntries rest

end

/-! ## The first kind that fits -/

def nullFit? : Json → Option Value
  | .null => some .null
  | _ => none

def boolFit? : Json → Option Value
  | .bool b => some (.bool b)
  | _ => none

def intFit? : Json → Option Value
  | .number n => n.toInt64?.map .int
  | _ => none

/-- Any number fits, an integer too. -/
def floatFit? : Json → Option Value
  | .number n => some (.float n.toBinary64)
  | _ => none

def stringFit? : Json → Option Value
  | .string s => some (.string s)
  | _ => none

mutual

/-- The value by the first kind that fits: null, truth value, integer, binary64 number, string,
list, map. -/
def firstFit? (j : Json) : Option Value :=
  nullFit? j <|> boolFit? j <|> intFit? j <|> floatFit? j <|> stringFit? j <|>
    (match j with
      | .array items => (firstFitItems? items).map .list
      | _ => none) <|>
    (match j with
      | .object entries => (firstFitEntries? entries).map ofEntries
      | _ => none)

def firstFitItems? : List Json → Option (List Value)
  | [] => some []
  | j :: rest => do pure ((← firstFit? j) :: (← firstFitItems? rest))

def firstFitEntries? : List (String × Json) → Option (List (String × Value))
  | [] => some []
  | (key, j) :: rest => do pure ((key, ← firstFit? j) :: (← firstFitEntries? rest))

end

/-! ## Reading -/

/-- The value of a JSON text, by the kind of the JSON value. -/
def read (text : String) : Except Json.ReadError Value := ofJson <$> Json.read text

/-- The value of a JSON text, by the first kind that fits what is written. Some kind always does. -/
def readFirstFit (text : String) : Except Json.ReadError Value := do
  match firstFit? (← Json.readWritten text) with
  | some v => pure v
  | none => throw .malformed

end ScriptWriter.Value
