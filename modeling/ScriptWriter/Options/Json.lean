import ScriptWriter.Json.Reader.Skip
import ScriptWriter.Options.Basic

/-!
# Options as JSON

Options are an object with the three fields by name, any of which may be missing, or a list of
them in order. A known field may be given once; the values of others are skipped.
-/

namespace ScriptWriter.Options

def toJson (o : Options) : Json :=
  .object [("escapeDollar", .bool o.escapeDollar),
    ("escapeLineTerminators", .bool o.escapeLineTerminators),
    ("maxDepth", .number (.natural o.maxDepth.toUInt64))]

def compact (o : Options) : String := o.toJson.compact

/-- The fields a text gives. -/
structure Given where
  escapeDollar : Option Bool := none
  escapeLineTerminators : Option Bool := none
  maxDepth : Option UInt32 := none

/-- The options with defaults for the fields that are missing. -/
def Given.complete (g : Given) : Options :=
  let o : Options := {}
  { escapeDollar := g.escapeDollar.getD o.escapeDollar
    escapeLineTerminators := g.escapeLineTerminators.getD o.escapeLineTerminators
    maxDepth := g.maxDepth.getD o.maxDepth }

open Json Json.Reader

def readFlag : Reader Bool := do
  let c ← next
  if c = 't' then
    word ['t', 'r', 'u', 'e']
    pure true
  else if c = 'f' then
    word ['f', 'a', 'l', 's', 'e']
    pure false
  else refuse .boolean

def readLimit : Reader UInt32 := do
  let c ← next
  if c = '-' ∨ c.isDigit then
    match ← number with
    | .natural n =>
      if n.toNat < UInt32.size then pure n.toUInt32
      else throw (.mismatch (.range (.natural n) .word))
    | .negative n => throw (.mismatch (.range (.negative n) .word))
    | .float x => throw (.mismatch (.kind (.number (.float x)) .word))
  else refuse .word

/-- The value of a field that may be given once. -/
def once {α : Type} (field : String) (given : Option α) (value : Reader α) : Reader (Option α) := do
  if given.isSome then throw (.mismatch (.repeated field))
  colon
  some <$> value

/-- A field, from after its name. -/
def readField (g : Given) (field : String) : Reader Given := do
  if field = "escapeDollar" then
    pure { g with escapeDollar := ← once field g.escapeDollar readFlag }
  else if field = "escapeLineTerminators" then
    pure { g with escapeLineTerminators := ← once field g.escapeLineTerminators readFlag }
  else if field = "maxDepth" then
    pure { g with maxDepth := ← once field g.maxDepth readLimit }
  else
    colon
    skipValue
    pure g

/-- The fields in order, from the opening bracket on. Nothing may follow the third. -/
def readInOrder : Reader Given := do
  drop
  let escapeDollar ← element ']' true readFlag
  let escapeLineTerminators ← element ']' false readFlag
  let maxDepth ← element ']' false readLimit
  if (← next) = ']' then drop else throw .malformed
  pure { escapeDollar, escapeLineTerminators, maxDepth }

def reader : Reader Options := do
  let c ← next
  if c = '{' then Given.complete <$> object readField {}
  else if c = '[' then Given.complete <$> readInOrder
  else refuse .options

def read (text : String) : Except ReadError Options := reader.readAll text

end ScriptWriter.Options
