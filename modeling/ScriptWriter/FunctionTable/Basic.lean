import ScriptWriter.Json.Printer

/-!
# Functions a script may call

A table gives each function name a descriptor, a record of JSON fields. Names and fields are
looked up exactly; neither the order of the functions nor that of the fields matters to equality.
-/

namespace ScriptWriter

/-- The fields that describe a function. -/
abbrev Descriptor := Dict Json

namespace Descriptor

def getString? (d : Descriptor) (field : String) : Option String :=
  (d.get? field).bind Json.asString?

def getNatural? (d : Descriptor) (field : String) : Option UInt64 :=
  (d.get? field).bind Json.asNatural?

def toJson (d : Descriptor) : Json := .object d.entries

def compact (d : Descriptor) : String := (toJson d).compact

/-- The descriptor with the entries of an object. -/
def ofJson? : Json → Option Descriptor
  | .object entries => some (.ofList entries)
  | _ => none

def beq (a b : Descriptor) : Bool := a.agrees (· == ·) b

end Descriptor

abbrev FunctionTable := Dict Descriptor

namespace FunctionTable

def beq (a b : FunctionTable) : Bool := a.agrees Descriptor.beq b

/-- The functions in the order of their names. -/
def listing (t : FunctionTable) : List (String × Descriptor) :=
  t.entries.mergeSort fun a b => a.1 ≤ b.1

end FunctionTable

end ScriptWriter
