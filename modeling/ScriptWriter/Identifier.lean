import ScriptWriter.Text.Alphabetic
import ScriptWriter.Text.Numeric

/-!
# Names that may follow a dot

A property can be written after a dot if its name starts with an alphabetic character, an
underscore or a dollar sign and goes on with these and with numeric characters.
-/

namespace ScriptWriter

def startsIdentifier (c : Char) : Bool := Text.isAlphabetic c || c == '_' || c == '$'

def continuesIdentifier (c : Char) : Bool :=
  Text.isAlphabetic c || Text.isNumeric c || c == '_' || c == '$'

def isIdentifier (name : String) : Bool :=
  match name.toList with
  | [] => false
  | first :: rest => startsIdentifier first && rest.all continuesIdentifier

end ScriptWriter
