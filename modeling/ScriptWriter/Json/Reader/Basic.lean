import ScriptWriter.Json.Error

/-!
# Readers of JSON text

A reader takes characters off the front of a text. It stops at the first problem from the left,
and whether the text ends there or goes on wrongly is part of the answer. What is read piece by
piece is read by `loop`, which repeats a step.
-/

namespace ScriptWriter.Json

abbrev Reader := StateT (List Char) (Except ReadError)

namespace Reader

variable {α σ : Type}

def isBlank (c : Char) : Bool := c = ' ' ∨ c = '\t' ∨ c = '\n' ∨ c = '\r'

/-- The next character that is no blank, left in place. -/
def next : Reader Char := fun cs =>
  match cs.dropWhile isBlank with
  | [] => .error .unexpectedEnd
  | c :: rest => .ok (c, c :: rest)

/-- Takes one character off. -/
def drop : Reader Unit := modify (List.drop 1)

/-- Takes off exactly the given characters. -/
def word : List Char → Reader Unit
  | [] => pure ()
  | w :: ws => fun cs =>
    match cs with
    | [] => .error .unexpectedEnd
    | c :: rest => if c = w then word ws rest else .error .malformed

/-- Repeats a step until it gives a result, at most once for each character of `room` and once
more. -/
def repeated (step : σ → Reader (σ ⊕ α)) : (room : List Char) → σ → Reader α
  | [], s => do
    match ← step s with
    | .inl _ => throw .malformed
    | .inr a => pure a
  | _ :: room, s => do
    match ← step s with
    | .inl s => repeated step room s
    | .inr a => pure a

/-- Repeats a step until it gives a result. A step takes off at least one character, so there is
room for all of them in what is left of the text. -/
def loop (step : σ → Reader (σ ⊕ α)) (s : σ) : Reader α := fun cs => repeated step cs s cs

/-- Reads a whole text: only blanks may be left. -/
def readAll (reader : Reader α) (text : String) : Except ReadError α := do
  let (a, rest) ← reader text.toList
  if rest.all isBlank then pure a else throw .malformed

end Reader

end ScriptWriter.Json
