import ScriptWriter.Emitter.Basic
import ScriptWriter.Expr.Basic
import ScriptWriter.Identifier

/-!
# Writing expressions

Operators are written in parentheses, so the text needs no precedence. The items of an array and
the arguments of a call are written apart and joined once all of them are there; everything else
goes straight to the text.
-/

namespace ScriptWriter.Expr

open Emitter

/-- A unary operator as the script has it. -/
def unaryOperator (operator : String) : String := if operator = "not" then "!" else operator

/-- A binary operator as the script has it. -/
def binaryOperator (operator : String) : String :=
  if operator = "and" then "&&"
  else if operator = "or" then "||"
  else if operator = "~" then "+"
  else operator

/-- The name a function is called by. -/
def callee (function : String) (d : Descriptor) : String :=
  (d.getString? "native").getD function

/-- The access to a property after its object. -/
def emitProperty (property : String) : EmitM Unit := do
  if isIdentifier property then
    write "."
    write property
  else
    write "["
    writeString property
    write "]"

mutual

def emit : Expr → EmitM Unit
  | .constant value => writeLiteral value
  | .name text => write text
  | .array items => do
    let parts ← fragments items
    write ("[" ++ ", ".intercalate parts ++ "]")
  | .object entries => do
    write "\x7b"
    emitEntries entries ""
    write "\x7d"
  | .unary operator operand => do
    write ("(" ++ unaryOperator operator)
    nested (emit operand)
    write ")"
  | .binary left operator right => do
    write "("
    nested (emit left)
    write (" " ++ binaryOperator operator ++ " ")
    nested (emit right)
    write ")"
  | .conditional test yes no => do
    write "(("
    nested (emit test)
    write ") ? ("
    nested (emit yes)
    write ") : ("
    nested (emit no)
    write "))"
  | .member target property => do
    nested (emit target)
    emitProperty property
  | .index target key => do
    nested (emit target)
    write "["
    nested (emit key)
    write "]"
  | .call function arguments => do
    let d ← descriptorOf function
    let parts ← fragments arguments
    write (callee function d ++ "(" ++ ", ".intercalate parts ++ ")")

/-- The texts of expressions, each written apart. -/
def fragments : List Expr → EmitM (List String)
  | [] => pure []
  | e :: rest => do
    let part ← isolated (emit e)
    pure (part :: (← fragments rest))

/-- The entries of an object, the first one after the given separator. -/
def emitEntries : List (String × Expr) → String → EmitM Unit
  | [], _ => pure ()
  | (key, e) :: rest, separator => do
    write separator
    writeString key
    write ": "
    nested (emit e)
    emitEntries rest ", "

end

end ScriptWriter.Expr
