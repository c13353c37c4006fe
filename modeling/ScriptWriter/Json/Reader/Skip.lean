import ScriptWriter.Json.Reader.Value

/-!
# Skipping JSON values

The value of a field that nothing asks for is passed over. Its grammar is checked, but it may nest
without bound, its numbers may be out of range and its strings may hold half of a pair. A number
that the text breaks off in is malformed here.
-/

namespace ScriptWriter.Json.Reader

/-- One character or escape of a string, or its closing quote. -/
def skipStringStep (_ : Unit) : Reader (Unit ⊕ Unit) := fun cs =>
  match cs with
  | [] => .error .unexpectedEnd
  | c :: rest =>
    if c = '"' then .ok (.inr (), rest)
    else if c = '\\' then do
      let ((), rest) ← escape (do let _ ← hexWord) (fun _ => ()) rest
      pure (.inl (), rest)
    else if c.toNat < 32 then .error .malformed
    else .ok (.inl (), rest)

def skipString : Reader Unit := do
  drop
  loop skipStringStep ()

def skipPrimitive (c : Char) : Reader Unit :=
  if c = 'n' then word ['n', 'u', 'l', 'l']
  else if c = 't' then word ['t', 'r', 'u', 'e']
  else if c = 'f' then word ['f', 'a', 'l', 's', 'e']
  else if c = '"' then skipString
  else if c = '-' ∨ c.isDigit then do let _ ← numeral .malformed
  else throw .malformed

/-- Passes over a value with at most one level of lists and objects for each character of
`room`. -/
def skipLevels : (room : List Char) → Reader Unit
  | [] => do skipPrimitive (← next)
  | _ :: room => do
    let c ← next
    if c = '[' then array (fun _ => skipLevels room) ()
    else if c = '{' then
      gather '}' (fun _ => do
        if (← next) = '"' then
          skipString
          colon
          skipLevels room
        else throw .malformed) ()
    else skipPrimitive c

/-- Passes over a value. Each level takes a character, so there is room for all of them in what is
left of the text. -/
def skipValue : Reader Unit := fun cs => skipLevels cs cs

end ScriptWriter.Json.Reader
