import ScriptWriter.FunctionTable.Basic
import ScriptWriter.Literal.Value

/-!
# The emitter

An emitter holds the text written so far, the number of open nodes, the functions that may be
called and the options. An emission may end early, with an error or by an abort; what was written
up to then stays. `nested` opens a node and puts the depth back however the node ends; `isolated`
gives it a text of its own and puts the old one back as well.
-/

namespace ScriptWriter

structure Emitter where
  functions : FunctionTable := .empty
  options : Options := {}
  source : String := ""
  /-- The nodes that are open. -/
  depth : UInt32 := 0

inductive EmissionError where
  | unknownFunction (name : String)
  | tooDeep (limit : UInt32)
  /-- An error that a node reports itself. -/
  | reported (message : String)

def EmissionError.message : EmissionError → String
  | .unknownFunction name => "function \"" ++ name ++ "\" does not exist"
  | .tooDeep limit =>
    "emit recursion limit of " ++ intText limit.toNat ++ " exceeded"
  | .reported message => message

/-- Why an emission ends early. -/
inductive Stop where
  | error (e : EmissionError)
  /-- A node gives up; only a guard handles this. -/
  | abort (message : String)

/-- Emissions: they change an emitter and end with a result or early. -/
abbrev EmitM := ExceptT Stop (StateM Emitter)

namespace Emitter

def write (text : String) : EmitM Unit := modify fun e => { e with source := e.source ++ text }

/-- Writes a string as a literal. -/
def writeString (text : String) : EmitM Unit := do
  write (Literal.quoted (← get).options text)

/-- Writes a value as a literal. -/
def writeLiteral (v : Value) : EmitM Unit :=
  modify fun e => { e with source := Literal.append e.options e.source v }

/-- Clears the text and forgets the open nodes. -/
def reset : EmitM Unit := modify fun e => { e with source := "", depth := 0 }

def fail {α : Type} (e : EmissionError) : EmitM α := throw (.error e)

def abort {α : Type} (message : String) : EmitM α := throw (.abort message)

/-- The descriptor of a function of the table. -/
def descriptorOf (name : String) : EmitM Descriptor := do
  match (← get).functions.get? name with
  | some d => pure d
  | none => fail (.unknownFunction name)

/-- Runs a node one level deeper, unless the limit is reached, and puts the depth back. -/
def nested (node : EmitM Unit) : EmitM Unit := fun e =>
  if e.options.maxDepth ≤ e.depth then
    (.error (.error (.tooDeep e.options.maxDepth)), e)
  else
    let (result, e') := node { e with depth := e.depth + 1 }
    (result, { e' with depth := e.depth })

/-- Runs a node on a text of its own, which is the result, and puts text and depth back. -/
def isolated (node : EmitM Unit) : EmitM String := fun e =>
  let (result, e') := nested node { e with source := "" }
  (result.map fun _ => e'.source, { e' with source := e.source, depth := e.depth })

@[simp] theorem depth_nested (node : EmitM Unit) (e : Emitter) :
    (nested node e).2.depth = e.depth := by
  unfold nested
  split <;> rfl

@[simp] theorem depth_isolated (node : EmitM Unit) (e : Emitter) :
    (isolated node e).2.depth = e.depth := rfl

@[simp] theorem source_isolated (node : EmitM Unit) (e : Emitter) :
    (isolated node e).2.source = e.source := rfl

/-- Runs an emission and turns an error, but not an abort, into another one. -/
def onError {α : Type} (emission : EmitM α) (handler : EmissionError → EmitM α) : EmitM α :=
  tryCatch emission fun
    | .error e => handler e
    | .abort message => abort message

/-- Runs an emission and turns an abort, but not an error, into another one. -/
def onAbort {α : Type} (emission : EmitM α) (handler : String → EmitM α) : EmitM α :=
  tryCatch emission fun
    | .error e => fail e
    | .abort message => handler message

end Emitter

end ScriptWriter
