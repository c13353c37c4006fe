import ScriptWriter.Options.Basic

/-!
# String literals

A string is written between double quotes. Quotes, backslashes, tabs and NUL are always escaped,
a dollar sign and the four line terminators if the options say so; all else stands for itself.
-/

namespace ScriptWriter.Literal

/-- The escape of NUL before the given text: the short one would run on into a digit. -/
def nulEscape : List Char → List Char
  | next :: _ => if next.isDigit then ['\\', 'x', '0', '0'] else ['\\', '0']
  | [] => ['\\', '0']

/-- A character as it is written in a literal, before the given rest of the string. -/
def escape (o : Options) (c : Char) (rest : List Char) : List Char :=
  if c = Char.ofNat 0 then nulEscape rest
  else if c = '\t' then ['\\', 't']
  else if c = '"' then ['\\', '"']
  else if c = '\\' then ['\\', '\\']
  else if c = '$' ∧ o.escapeDollar then ['\\', '$']
  else if o.escapeLineTerminators then
    if c = '\n' then ['\\', 'n']
    else if c = '\r' then ['\\', 'r']
    else if c = Char.ofNat 0x2028 then ['\\', 'u', '2', '0', '2', '8']
    else if c = Char.ofNat 0x2029 then ['\\', 'u', '2', '0', '2', '9']
    else [c]
  else [c]

/-- The text between the quotes. -/
def escaped (o : Options) : List Char → List Char
  | [] => []
  | c :: rest => escape o c rest ++ escaped o rest

def quoted (o : Options) (s : String) : String :=
  String.ofList ('"' :: (escaped o s.toList ++ ['"']))

end ScriptWriter.Literal
