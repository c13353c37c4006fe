import ScriptWriter.Json.Printer
import ScriptWriter.Text.Shown

/-!
# Why a JSON text is refused

A text may end too early, be malformed, or hold a value that does not fit what is read from it.
Only the last is described.
-/

namespace ScriptWriter.Json

/-- What a reader looks for. -/
inductive Expected where
  | options
  | boolean
  | word
  | map

def Expected.description : Expected → String
  | .options => "struct EmitterOptions"
  | .boolean => "a boolean"
  | .word => "u32"
  | .map => "a map"

/-- A value that does not fit. -/
inductive Mismatch where
  /-- A value of another kind; of a list or an object only its kind matters. -/
  | kind (found : Json) (expected : Expected)
  /-- An integer out of range. -/
  | range (found : Number) (expected : Expected)
  /-- A field that is given a second time. -/
  | repeated (field : String)

namespace Mismatch

/-- A number as messages name it. -/
def describeNumber : Number → String
  | .float x => "floating point `" ++ floatText x ++ "`"
  | n => "integer `" ++ n.compact ++ "`"

def describe : Json → String
  | .null => "null"
  | .bool b => "boolean `" ++ compact (.bool b) ++ "`"
  | .number n => describeNumber n
  | .string s => "string " ++ Text.shown s
  | .array _ => "sequence"
  | .object _ => "map"

def message : Mismatch → String
  | .kind found expected =>
    "invalid type: " ++ describe found ++ ", expected " ++ expected.description
  | .range found expected =>
    "invalid value: " ++ describeNumber found ++ ", expected " ++ expected.description
  | .repeated field => "duplicate field `" ++ field ++ "`"

end Mismatch

inductive ReadError where
  /-- The text ends where more is needed. -/
  | unexpectedEnd
  /-- The text is no JSON, nests too deeply or holds a number out of range. -/
  | malformed
  | mismatch (m : Mismatch)

end ScriptWriter.Json
