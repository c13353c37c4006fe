import ScriptWriter.FunctionTable.Basic
import ScriptWriter.Json.Reader.Value

/-!
# Function tables as JSON

A table is an object whose values are objects. Of two functions with one name the last counts.
-/

namespace ScriptWriter

open Json Json.Reader

variable {α : Type}

/-- An object of parts read alike. -/
def readDict (part : Reader α) : Reader (Dict α) := do
  if (← next) = '{' then
    object (fun d key => do
      colon
      pure (d.insert key (← part))) .empty
  else refuse .map

/-- A descriptor inside a table: two levels are taken when its fields begin. -/
def Descriptor.reader : Reader Descriptor := readDict (Json.merged <$> value (maxLevels - 2))

namespace FunctionTable

def reader : Reader FunctionTable := readDict Descriptor.reader

def read (text : String) : Except ReadError FunctionTable := reader.readAll text

/-- What is said of a text whose values do not fit. -/
def refusal (m : Mismatch) : String := "invalid function table: " ++ m.message

end FunctionTable

end ScriptWriter
