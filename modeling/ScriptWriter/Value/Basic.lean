import ScriptWriter.Binary64.Basic
import ScriptWriter.Dict

/-!
# Host values

The data a script can be given: null, truth values, integers, binary64 numbers, strings, lists and
maps. A map keeps the order of its entries and has each key once; equality of maps does not look
at the order, and numbers are equal as numbers, never across the two kinds.
-/

namespace ScriptWriter

inductive Value where
  | null
  | bool (b : Bool)
  | int (n : Int64)
  | float (x : Binary64)
  | string (s : String)
  | list (items : List Value)
  | map (entries : List (String × Value))

namespace Value

/-- The map with the entries of a dictionary. -/
def ofDict (d : Dict Value) : Value := .map d.entries

/-- The map that inserting the entries one after another gives. -/
def ofEntries (entries : List (String × Value)) : Value := ofDict (.ofList entries)

/-- The name of the value's kind. -/
def kind : Value → String
  | .null => "null"
  | .bool _ => "bool"
  | .int _ => "int"
  | .float _ => "float"
  | .string _ => "string"
  | .list _ => "list"
  | .map _ => "map"

def isNull : Value → Bool
  | .null => true
  | _ => false

def asString? : Value → Option String
  | .string s => some s
  | _ => none

mutual

def beq : Value → Value → Bool
  | .null, .null => true
  | .bool a, .bool b => a == b
  | .int a, .int b => a == b
  | .float a, .float b => a.sameNumber b
  | .string a, .string b => a == b
  | .list as, .list bs => beqItems as bs
  | .map as, .map bs => as.length == bs.length && beqEntries as bs
  | _, _ => false

def beqItems : List Value → List Value → Bool
  | [], [] => true
  | a :: as, b :: bs => beq a b && beqItems as bs
  | _, _ => false

/-- Each entry of the first list has an equal one in the second. -/
def beqEntries : List (String × Value) → List (String × Value) → Bool
  | [], _ => true
  | (key, a) :: as, bs =>
    (match bs.lookup key with
      | some b => beq a b
      | none => false) && beqEntries as bs

end

instance : BEq Value := ⟨beq⟩

end Value

end ScriptWriter
