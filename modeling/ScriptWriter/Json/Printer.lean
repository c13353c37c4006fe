import ScriptWriter.Decimal.Shortest
import ScriptWriter.Json.Basic

/-!
# Compact JSON text

The text has no blanks and keeps the order of the entries. A binary64 number is written with the
fewest digits that read back and always shows a point or an exponent, so that it is not taken for
an integer; what is not finite is written as null.
-/

namespace ScriptWriter.Json

/-- The two hexadecimal digits of a number below 256. -/
def hexPair (n : Nat) : List Char := [Nat.digitChar (n / 16), Nat.digitChar (n % 16)]

/-- A character as it stands in a JSON string. -/
def escape (c : Char) : List Char :=
  if c = '"' then ['\\', '"']
  else if c = '\\' then ['\\', '\\']
  else if c = '\n' then ['\\', 'n']
  else if c = '\r' then ['\\', 'r']
  else if c = '\t' then ['\\', 't']
  else if c = Char.ofNat 8 then ['\\', 'b']
  else if c = Char.ofNat 12 then ['\\', 'f']
  else if c.toNat < 32 then '\\' :: 'u' :: '0' :: '0' :: hexPair c.toNat
  else [c]

def quoted (s : String) : String :=
  String.ofList ('"' :: (s.toList.flatMap escape ++ ['"']))

/-- The point stands so near the digits that no exponent is written. -/
def isPositional (d : Decimal) : Bool := -5 < d.point ∧ d.point ≤ 16

/-- The magnitude of a finite number; of two equally near digits the even one is written. -/
def magnitude (x : Binary64) : String :=
  if x.isZero then "0.0"
  else
    let decimal := x.shortest .even
    if isPositional decimal then
      String.ofList (decimal.positional ++ if decimal.isWhole then ['.', '0'] else [])
    else String.ofList decimal.scientific

def floatText (x : Binary64) : String :=
  if !x.isFinite then "null"
  else if x.isNegative then "-" ++ magnitude x
  else magnitude x

def Number.compact : Number → String
  | .natural n => intText n.toNat
  | .negative n => intText n.toInt
  | .float x => floatText x

mutual

def compact : Json → String
  | .null => "null"
  | .bool true => "true"
  | .bool false => "false"
  | .number n => n.compact
  | .string s => quoted s
  | .array items => "[" ++ ",".intercalate (compactItems items) ++ "]"
  | .object entries => "\x7b" ++ ",".intercalate (compactEntries entries) ++ "\x7d"

def compactItems : List Json → List String
  | [] => []
  | j :: rest => compact j :: compactItems rest

def compactEntries : List (String × Json) → List String
  | [] => []
  | (key, j) :: rest => (quoted key ++ ":" ++ compact j) :: compactEntries rest

end

end ScriptWriter.Json
