import ScriptWriter.Value.Basic

/-!
# Expressions

The expression trees that are written as script text. Equality goes by structure: constants are
compared as values, the entries of an object in order.
-/

namespace ScriptWriter

inductive Expr where
  | constant (value : Value)
  /-- A variable, written as it is. -/
  | name (text : String)
  | array (items : List Expr)
  /-- An object with string keys; a key may be repeated. -/
  | object (entries : List (String × Expr))
  | unary (operator : String) (operand : Expr)
  | binary (left : Expr) (operator : String) (right : Expr)
  | conditional (test yes no : Expr)
  /-- A property by name. -/
  | member (target : Expr) (property : String)
  /-- A property or item by a computed key. -/
  | index (target key : Expr)
  /-- A call of a function of the table. -/
  | call (function : String) (arguments : List Expr)

namespace Expr

mutual

def beq : Expr → Expr → Bool
  | .constant a, .constant b => a == b
  | .name a, .name b => a == b
  | .array as, .array bs => beqItems as bs
  | .object as, .object bs => beqEntries as bs
  | .unary op a, .unary op' a' => op == op' && beq a a'
  | .binary a op b, .binary a' op' b' => op == op' && beq a a' && beq b b'
  | .conditional a b c, .conditional a' b' c' => beq a a' && beq b b' && beq c c'
  | .member a p, .member a' p' => beq a a' && p == p'
  | .index a i, .index a' i' => beq a a' && beq i i'
  | .call f as, .call f' as' => f == f' && beqItems as as'
  | _, _ => false

def beqItems : List Expr → List Expr → Bool
  | [], [] => true
  | a :: as, b :: bs => beq a b && beqItems as bs
  | _, _ => false

def beqEntries : List (String × Expr) → List (String × Expr) → Bool
  | [], [] => true
  | (key, a) :: as, (key', b) :: bs => key == key' && beq a b && beqEntries as bs
  | _, _ => false

end

instance : BEq Expr := ⟨beq⟩

end Expr

end ScriptWriter
