import ScriptWriter.Text.Hidden

/-!
# Strings shown in messages

A string in a message stands between quotes, with escapes for quotes, backslashes and whatever
would not show.
-/

namespace ScriptWriter.Text

/-- A character as a message shows it. -/
def shownChar (c : Char) : List Char :=
  if c = Char.ofNat 0 then ['\\', '0']
  else if c = '\t' then ['\\', 't']
  else if c = '\r' then ['\\', 'r']
  else if c = '\n' then ['\\', 'n']
  else if c = '\\' then ['\\', '\\']
  else if c = '"' then ['\\', '"']
  else if isHidden c then '\\' :: 'u' :: '{' :: (Nat.toDigits 16 c.toNat ++ ['}'])
  else [c]

def shown (s : String) : String :=
  String.ofList ('"' :: (s.toList.flatMap shownChar ++ ['"']))

end ScriptWriter.Text
