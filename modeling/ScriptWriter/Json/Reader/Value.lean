import ScriptWriter.Json.Reader.Number
import ScriptWriter.Json.Reader.String

/-!
# Reading values

Lists and objects are read part by part with `gather`, nested values by recursion on the levels
that are left, `maxLevels` at the outset. A reader that looks for another kind of value refuses
what it finds, once that can be read.
-/

namespace ScriptWriter.Json

namespace Reader

variable {α σ : Type}

/-- The next part of a list that ends at `close`, or none before it. The first part has no comma
in front, and no comma stands before the end. -/
def element (close : Char) (first : Bool) (part : Reader α) : Reader (Option α) := do
  let c ← next
  if c = close then pure none
  else if first then some <$> part
  else if c = ',' then
    drop
    if (← next) = close then throw .malformed else some <$> part
  else throw .malformed

/-- One part of a list, or its end. The state says whether the part is the first. -/
def gatherStep (close : Char) (part : σ → Reader σ) : Bool × σ → Reader ((Bool × σ) ⊕ σ)
  | (first, s) => do
    match ← element close first (part s) with
    | some s => pure (.inl (false, s))
    | none =>
      drop
      pure (.inr s)

/-- A list from its opening bracket to `close`, each part changing what was gathered before. -/
def gather (close : Char) (part : σ → Reader σ) (start : σ) : Reader σ := do
  drop
  loop (gatherStep close part) (true, start)

def array (item : σ → Reader σ) (start : σ) : Reader σ := gather ']' item start

/-- An object, from its opening brace on. `entry` reads on from after a key. -/
def object (entry : σ → String → Reader σ) (start : σ) : Reader σ :=
  gather '}' (fun s => do
    if (← next) = '"' then entry s (← string) else throw .malformed) start

def colon : Reader Unit := do
  if (← next) = ':' then drop else throw .malformed

/-- A value that starts with `c` and is no list or object. -/
def primitive (c : Char) : Reader Json :=
  if c = 'n' then do word ['n', 'u', 'l', 'l']; pure .null
  else if c = 't' then do word ['t', 'r', 'u', 'e']; pure (.bool true)
  else if c = 'f' then do word ['f', 'a', 'l', 's', 'e']; pure (.bool false)
  else if c = '"' then .string <$> string
  else if c = '-' ∨ c.isDigit then .number <$> number
  else throw .malformed

/-- A value with at most so many levels of lists and objects, its entries as written. -/
def value : Nat → Reader Json
  | 0 => do primitive (← next)
  | levels + 1 => do
    let c ← next
    if c = '[' then
      let items ← array (fun items => do pure ((← value levels) :: items)) []
      pure (.array items.reverse)
    else if c = '{' then
      let entries ← object (fun entries key => do
        colon
        pure ((key, ← value levels) :: entries)) []
      pure (.object entries.reverse)
    else primitive c

/-- The levels of lists and objects a text may have. -/
def maxLevels : Nat := 127

/-- Refuses the next value because of its kind, unless it cannot be read. -/
def refuse (expected : Expected) : Reader α := do
  let c ← next
  if c = '[' then throw (.mismatch (.kind (.array []) expected))
  else if c = '{' then throw (.mismatch (.kind (.object []) expected))
  else throw (.mismatch (.kind (← primitive c) expected))

end Reader

/-- The value of a text with its entries as written. -/
def readWritten (text : String) : Except ReadError Json :=
  (Reader.value Reader.maxLevels).readAll text

/-- The value of a text, repeated keys merged. -/
def read (text : String) : Except ReadError Json := merged <$> readWritten text

end ScriptWriter.Json
