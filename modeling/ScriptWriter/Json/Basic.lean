import ScriptWriter.Binary64.Rounding
import ScriptWriter.Dict

/-!
# JSON values

A number is a natural number or a negative one of 64 bits, or a binary64 number. An object lists
its entries as they came; `merged` leaves each key once, at its first place with its last value.
Equality compares numbers within their class and objects without regard to order.
-/

namespace ScriptWriter

namespace Json

inductive Number where
  | natural (n : UInt64)
  /-- An integer below zero. -/
  | negative (n : Int64)
  | float (x : Binary64)

namespace Number

def beq : Number → Number → Bool
  | .natural a, .natural b => a == b
  | .negative a, .negative b => a == b
  | .float a, .float b => a.sameNumber b
  | _, _ => false

instance : BEq Number := ⟨beq⟩

/-- The integer as a signed word, if it is one and fits. -/
def toInt64? : Number → Option Int64
  | .natural n => if n ≤ 0x7FFFFFFFFFFFFFFF then some n.toInt64 else none
  | .negative n => some n
  | .float _ => none

/-- The nearest binary64 number. -/
def toBinary64 : Number → Binary64
  | .natural n => .ofInt n.toNat
  | .negative n => .ofInt n.toInt
  | .float x => x

def ofInt64 (n : Int64) : Number := if n < 0 then .negative n else .natural n.toUInt64

end Number

end Json

inductive Json where
  | null
  | bool (b : Bool)
  | number (n : Json.Number)
  | string (s : String)
  | array (items : List Json)
  | object (entries : List (String × Json))

namespace Json

mutual

def beq : Json → Json → Bool
  | .null, .null => true
  | .bool a, .bool b => a == b
  | .number a, .number b => a == b
  | .string a, .string b => a == b
  | .array as, .array bs => beqItems as bs
  | .object as, .object bs => as.length == bs.length && beqEntries as bs
  | _, _ => false

def beqItems : List Json → List Json → Bool
  | [], [] => true
  | a :: as, b :: bs => beq a b && beqItems as bs
  | _, _ => false

/-- Each entry of the first list has an equal one in the second. -/
def beqEntries : List (String × Json) → List (String × Json) → Bool
  | [], _ => true
  | (key, a) :: as, bs =>
    (match bs.lookup key with
      | some b => beq a b
      | none => false) && beqEntries as bs

end

instance : BEq Json := ⟨beq⟩

mutual

/-- The value with each object's repeated keys merged: first place, last value. -/
def merged : Json → Json
  | .array items => .array (mergedItems items)
  | .object entries => .object (Dict.ofList (mergedEntries entries)).entries
  | j => j

def mergedItems : List Json → List Json
  | [] => []
  | j :: rest => merged j :: mergedItems rest

def mergedEntries : List (String × Json) → List (String × Json)
  | [] => []
  | (key, j) :: rest => (key, merged j) :: mergedEntries rest

end

def asString? : Json → Option String
  | .string s => some s
  | _ => none

/-- A natural number that is written as one. -/
def asNatural? : Json → Option UInt64
  | .number (.natural n) => some n
  | _ => none

end Json

end ScriptWriter
