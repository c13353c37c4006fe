import ScriptWriter.Json.Reader.Basic

/-!
# Reading strings

A string ends at the first quote that is not escaped. Control characters must be escaped, and an
escape by number for a character beyond 16 bits takes the two halves of a pair.
-/

namespace ScriptWriter.Json.Reader

variable {α : Type}

def hexDigit? (c : Char) : Option Nat :=
  if c.isDigit then some (c.toNat - 48)
  else if 'a' ≤ c ∧ c ≤ 'f' then some (c.toNat - 87)
  else if 'A' ≤ c ∧ c ≤ 'F' then some (c.toNat - 55)
  else none

def hexValue? (cs : List Char) : Option Nat :=
  cs.foldl (fun n c => do pure (16 * (← n) + (← hexDigit? c))) (some 0)

/-- The four hexadecimal digits of an escape. The text ends too early if fewer than four bytes of
it are left, whatever they are. -/
def hexWord : Reader Nat := fun cs =>
  let four := cs.take 4
  if (String.ofList four).utf8ByteSize < 4 then .error .unexpectedEnd
  else if four.length = 4 then
    match hexValue? four with
    | some n => .ok (n, cs.drop 4)
    | none => .error .malformed
  else .error .malformed

/-- The character of an escape by number, from its digits on; beyond 16 bits it takes a pair. -/
def numbered : Reader Char := do
  let high ← hexWord
  if 0xDC00 ≤ high ∧ high ≤ 0xDFFF then throw .malformed
  else if 0xD800 ≤ high ∧ high ≤ 0xDBFF then
    word ['\\', 'u']
    let low ← hexWord
    if 0xDC00 ≤ low ∧ low ≤ 0xDFFF then
      pure (Char.ofNat (0x10000 + 0x400 * (high - 0xD800) + (low - 0xDC00)))
    else throw .malformed
  else pure (Char.ofNat high)

/-- The character that a short escape stands for. -/
def shortEscape? (c : Char) : Option Char :=
  if c = '"' ∨ c = '\\' ∨ c = '/' then some c
  else if c = 'b' then some (Char.ofNat 8)
  else if c = 'f' then some (Char.ofNat 12)
  else if c = 'n' then some '\n'
  else if c = 'r' then some '\r'
  else if c = 't' then some '\t'
  else none

/-- An escape, from after its backslash; `numbered` reads one by number. -/
def escape (numbered : Reader α) (short : Char → α) : Reader α := fun cs =>
  match cs with
  | [] => .error .unexpectedEnd
  | c :: rest =>
    if c = 'u' then numbered rest
    else match shortEscape? c with
      | some x => .ok (short x, rest)
      | none => .error .malformed

/-- One character or escape of a string, or its closing quote. -/
def stringStep (acc : List Char) : Reader (List Char ⊕ String) := fun cs =>
  match cs with
  | [] => .error .unexpectedEnd
  | c :: rest =>
    if c = '"' then .ok (.inr (String.ofList acc.reverse), rest)
    else if c = '\\' then do
      let (x, rest) ← escape numbered id rest
      pure (.inl (x :: acc), rest)
    else if c.toNat < 32 then .error .malformed
    else .ok (.inl (c :: acc), rest)

/-- A string, from its opening quote on. -/
def string : Reader String := do
  drop
  loop stringStep []

end ScriptWriter.Json.Reader
