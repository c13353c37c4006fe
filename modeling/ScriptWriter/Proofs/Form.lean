import ScriptWriter.Proofs.ExprText
import ScriptWriter.Proofs.Marks

/-!
# Normal forms of expressions

Some expressions are written alike: a constant list and an array of constants, an operator and its
alias, a property that is no identifier and an item by a constant string. `Expr.norm` brings them
together and changes nothing else: constant lists and maps become arrays, numbers their texts, and
calls carry the name they are written with.

A form has a list of marks, and an expression is written as the marks of its normal form
(`toList_text`).
-/

namespace ScriptWriter

/-- What can be told from the text of an expression. -/
inductive Form where
  | null
  | bool (b : Bool)
  /-- A number, as it is written. -/
  | number (text : String)
  | string (s : String)
  | name (text : String)
  | array (items : List Form)
  | object (entries : List (String × Form))
  | unary (operator : String) (operand : Form)
  | binary (left : Form) (operator : String) (right : Form)
  | conditional (test yes no : Form)
  | member (target : Form) (property : String)
  | index (target key : Form)
  /-- A call, by the name that is written. -/
  | call (callee : String) (arguments : List Form)

/-! ## Normalising -/

namespace Value

mutual

/-- The form of a constant: a list or a map is an array of constants. -/
def norm : Value → Form
  | .null => .null
  | .bool b => .bool b
  | .int n => .number (Literal.int n)
  | .float x => .number (Literal.float x)
  | .string s => .string s
  | .list items => .array (normItems items)
  | .map entries => .array (normEntries entries)

def normItems : List Value → List Form
  | [] => []
  | v :: rest => norm v :: normItems rest

def normEntries : List (String × Value) → List Form
  | [] => []
  | (_, v) :: rest => norm v :: normEntries rest

end

end Value

namespace Expr

mutual

/-- The normal form of an expression. -/
def norm (functions : FunctionTable) : Expr → Form
  | .constant value => value.norm
  | .name s => .name s
  | .array items => .array (normItems functions items)
  | .object entries => .object (normEntries functions entries)
  | .unary operator operand => .unary (unaryText operator) (norm functions operand)
  | .binary left operator right =>
    .binary (norm functions left) (binaryText operator) (norm functions right)
  | .conditional test yes no =>
    .conditional (norm functions test) (norm functions yes) (norm functions no)
  | .member target property =>
    if isIdentifier property then .member (norm functions target) property
    else .index (norm functions target) (.string property)
  | .index target key => .index (norm functions target) (norm functions key)
  | .call function arguments =>
    .call (calleeText functions function) (normItems functions arguments)

def normItems (functions : FunctionTable) : List Expr → List Form
  | [] => []
  | e :: rest => norm functions e :: normItems functions rest

def normEntries (functions : FunctionTable) : List (String × Expr) → List (String × Form)
  | [] => []
  | (key, e) :: rest => (key, norm functions e) :: normEntries functions rest

end

theorem normItems_eq_map (functions : FunctionTable) (items : List Expr) :
    normItems functions items = items.map (norm functions) := by
  induction items with
  | nil => rfl
  | cons e rest ih => rw [normItems, ih, List.map_cons]

theorem normEntries_eq_map (functions : FunctionTable) : ∀ entries : List (String × Expr),
    normEntries functions entries = entries.map fun p => (p.1, norm functions p.2)
  | [] => rfl
  | (key, e) :: rest => by rw [normEntries, normEntries_eq_map functions rest, List.map_cons]

end Expr

/-! ## Marks -/

namespace Form

open Mark

/-- Parts with a comma and a space between them. -/
def joined (parts : List (List Mark)) : List Mark := [Mark.char ',', .char ' '].intercalate parts

mutual

/-- The marks of a form. -/
def marks : Form → List Mark
  | .null => chars "null"
  | .bool b => chars (if b then "true" else "false")
  | .number text => chars text
  | .string s => [.literal s]
  | .name text => chars text
  | .array items => enclosed '[' ']' (joined (marksItems items))
  | .object entries => enclosed '\x7b' '\x7d' (joined (marksEntries entries))
  | .unary operator operand => enclosed '(' ')' (chars operator ++ marks operand)
  | .binary left operator right =>
    enclosed '(' ')' (marks left ++ .char ' ' :: (chars operator ++ .char ' ' :: marks right))
  | .conditional test yes no =>
    enclosed '(' ')' (enclosed '(' ')' (marks test) ++ .char ' ' :: .char '?' :: .char ' ' ::
      (enclosed '(' ')' (marks yes) ++ .char ' ' :: .char ':' :: .char ' ' ::
        enclosed '(' ')' (marks no)))
  | .member target property => marks target ++ .char '.' :: chars property
  | .index target key => marks target ++ enclosed '[' ']' (marks key)
  | .call callee arguments => chars callee ++ enclosed '(' ')' (joined (marksItems arguments))

def marksItems : List Form → List (List Mark)
  | [] => []
  | f :: rest => marks f :: marksItems rest

def marksEntries : List (String × Form) → List (List Mark)
  | [] => []
  | (key, f) :: rest => (.literal key :: .char ':' :: .char ' ' :: marks f) :: marksEntries rest

end

theorem marksItems_eq_map : ∀ items : List Form, marksItems items = items.map marks
  | [] => rfl
  | f :: rest => by rw [marksItems, marksItems_eq_map rest, List.map_cons]

/-- The marks of an entry of an object. -/
def entryMarks (p : String × Form) : List Mark :=
  .literal p.1 :: .char ':' :: .char ' ' :: marks p.2

theorem marksEntries_eq_map : ∀ entries : List (String × Form),
    marksEntries entries = entries.map entryMarks
  | [] => rfl
  | (key, f) :: rest => by rw [marksEntries, marksEntries_eq_map rest, List.map_cons, entryMarks]

theorem inscribe_enclosed (o : Options) (l r : Char) (x : List Mark) :
    inscribe o (enclosed l r x) = l :: (inscribe o x ++ [r]) := by
  rw [enclosed, inscribe_cons, inscribe_append]
  rfl

theorem inscribe_joined (o : Options) : ∀ parts : List (List Mark),
    inscribe o (joined parts) = ", ".toList.intercalate (parts.map (inscribe o))
  | [] => rfl
  | [x] => by simp [joined]
  | x :: y :: rest => by
    have ih := inscribe_joined o (y :: rest)
    unfold joined at ih ⊢
    rw [List.intercalate_cons_cons, inscribe_append, inscribe_append, ih]
    simp only [List.map_cons]
    rw [List.intercalate_cons_cons]
    rfl

end Form

open Form Mark

mutual

theorem Value.toList_render (o : Options) : ∀ v : Value,
    (Literal.render o v).toList = inscribe o v.norm.marks
  | .null => by rw [Literal.render, Value.norm, marks, inscribe_chars]
  | .bool b => by rw [Literal.render, Value.norm, marks, inscribe_chars]
  | .int n => by rw [Literal.render, Value.norm, marks, inscribe_chars]
  | .float x => by rw [Literal.render, Value.norm, marks, inscribe_chars]
  | .string s => by rw [Literal.render, Value.norm, marks]; exact (List.append_nil _).symm
  | .list items => by
    rw [Literal.render, Value.norm, marks, inscribe_enclosed, inscribe_joined,
      ← Value.toList_renderItems o items]
    simp
  | .map entries => by
    rw [Literal.render, Value.norm, marks, inscribe_enclosed, inscribe_joined,
      ← Value.toList_renderEntries o entries]
    simp

theorem Value.toList_renderItems (o : Options) : ∀ items : List Value,
    (Literal.renderItems o items).map String.toList
      = (marksItems (Value.normItems items)).map (inscribe o)
  | [] => rfl
  | v :: rest => by
    rw [Literal.renderItems, Value.normItems, marksItems, List.map_cons, List.map_cons,
      Value.toList_render o v, Value.toList_renderItems o rest]

theorem Value.toList_renderEntries (o : Options) : ∀ entries : List (String × Value),
    (Literal.renderEntries o entries).map String.toList
      = (marksItems (Value.normEntries entries)).map (inscribe o)
  | [] => rfl
  | (_, v) :: rest => by
    rw [Literal.renderEntries, Value.normEntries, marksItems, List.map_cons, List.map_cons,
      Value.toList_render o v, Value.toList_renderEntries o rest]

end

namespace Expr

/-- An expression is written as the marks of its normal form. -/
theorem toList_text (functions : FunctionTable) (o : Options) (e : Expr) :
    (e.text functions o).toList = inscribe o (e.norm functions).marks := by
  induction e using children_induction with
  | h e ih =>
    have hitems : ∀ items : List Expr, (∀ c ∈ items, c ∈ e.children) →
        (texts functions o items).map String.toList
          = (marksItems (normItems functions items)).map (inscribe o) := by
      intro items hc
      rw [texts_eq_map, normItems_eq_map, marksItems_eq_map, List.map_map, List.map_map,
        List.map_map]
      exact List.map_congr_left fun c hm => ih c (hc c hm)
    cases e with
    | constant value => rw [text, norm, Value.toList_render]
    | name s => rw [text, norm, marks, inscribe_chars]
    | array items =>
      rw [text, norm, marks, inscribe_enclosed, inscribe_joined, ← hitems items fun _ hc => hc]
      simp
    | object entries =>
      have hentries : (entryTexts functions o entries).map String.toList
          = (marksEntries (normEntries functions entries)).map (inscribe o) := by
        rw [entryTexts_eq_map, normEntries_eq_map, marksEntries_eq_map, List.map_map,
          List.map_map, List.map_map]
        refine List.map_congr_left fun p hp => ?_
        have := ih p.2 (List.mem_map_of_mem hp)
        simp [entryMarks, inscription, this]
      rw [text, norm, marks, inscribe_enclosed, inscribe_joined, ← hentries]
      simp
    | unary operator operand =>
      rw [text, norm, marks, inscribe_enclosed, inscribe_append, inscribe_chars,
        ← ih operand (by simp [children])]
      simp
    | binary left operator right =>
      rw [text, norm, marks, inscribe_enclosed]
      simp [inscription, ih left (by simp [children]), ih right (by simp [children])]
    | conditional test yes no =>
      rw [text, norm, marks, inscribe_enclosed]
      simp [inscription, inscribe_enclosed, ih test (by simp [children]),
        ih yes (by simp [children]), ih no (by simp [children])]
    | member target property =>
      rw [text, norm, propertyText_eq, String.toList_append, ih target (by simp [children])]
      split
      · rw [marks, inscribe_append, inscribe_cons, inscribe_chars, String.toList_append]
        rfl
      · rw [marks, inscribe_append, inscribe_enclosed, marks]
        simp [inscription]
    | index target key =>
      rw [text, norm, marks, inscribe_append, inscribe_enclosed]
      simp [ih target (by simp [children]), ih key (by simp [children])]
    | call function arguments =>
      rw [text, norm, marks, inscribe_append, inscribe_chars, inscribe_enclosed, inscribe_joined,
        ← hitems arguments fun _ hc => hc]
      simp

end Expr

end ScriptWriter
