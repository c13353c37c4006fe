import ScriptWriter.Literal.Number
import ScriptWriter.Literal.Quoted
import ScriptWriter.Value.Basic

/-!
# Literals of values

A list is written between brackets and a map as the list of its values. Nesting is not bounded,
so the text is written from a stack of pending tasks, the top one first: one `turn` takes the top
task, writes what it can and pushes the parts of a list in its place, and `write` goes on turn by
turn until nothing is pending.
-/

namespace ScriptWriter

namespace Value

/-- The values of a map's entries, in order. -/
def values (entries : List (String × Value)) : List Value := entries.map Prod.snd

mutual

/-- The tasks that writing a value takes. -/
def tasks : Value → Nat
  | .list items => 2 + tasksItems items
  | .map entries => 2 + tasksEntries entries
  | _ => 1

def tasksItems : List Value → Nat
  | [] => 0
  | v :: rest => tasks v + 1 + tasksItems rest

def tasksEntries : List (String × Value) → Nat
  | [] => 0
  | (_, v) :: rest => tasks v + 1 + tasksEntries rest

end

end Value

namespace Literal

/-- A piece of writing still to be done. -/
inductive Task where
  | text (s : String)
  | value (v : Value)

namespace Task

/-- The steps a task takes to the end. -/
def cost : Task → Nat
  | .text _ => 1
  | .value v => v.tasks

/-- The tasks of the items after the first, each behind a comma. -/
def following : List Value → List Task
  | [] => []
  | v :: rest => .text ", " :: .value v :: following rest

/-- The tasks of a list's items. -/
def ofItems : List Value → List Task
  | [] => []
  | v :: rest => .value v :: following rest

def totalCost : List Task → Nat
  | [] => 0
  | task :: rest => task.cost + totalCost rest

theorem totalCost_append (tasks rest : List Task) :
    totalCost (tasks ++ rest) = totalCost tasks + totalCost rest := by
  induction tasks with
  | nil => simp [totalCost]
  | cons task tasks ih => simp only [List.cons_append, totalCost, ih]; omega

theorem totalCost_following (items : List Value) :
    totalCost (following items) = Value.tasksItems items := by
  induction items with
  | nil => rfl
  | cons v rest ih => simp only [following, totalCost, cost, Value.tasksItems, ih]; omega

theorem totalCost_ofItems_le (items : List Value) :
    totalCost (ofItems items) ≤ Value.tasksItems items := by
  cases items with
  | nil => exact Nat.le_refl _
  | cons v rest =>
    simp only [ofItems, totalCost, cost, Value.tasksItems, totalCost_following]
    omega

theorem tasksItems_values (entries : List (String × Value)) :
    Value.tasksItems (Value.values entries) = Value.tasksEntries entries := by
  induction entries with
  | nil => simp [Value.values, Value.tasksItems, Value.tasksEntries]
  | cons e rest ih =>
    obtain ⟨k, v⟩ := e
    simpa [Value.values, Value.tasksItems, Value.tasksEntries] using ih

/-- Pushes an item, a comma first if there are items below it. -/
def pushItem (pending : List Task) (item : Value × Nat) : List Task :=
  .value item.1 :: if 0 < item.2 then .text ", " :: pending else pending

/-- The pending tasks with a list opened on top of them: the closing bracket is pushed, and then
the items from the last to the first, numbered in this order. -/
def opened (items : List Value) (pending : List Task) : List Task :=
  items.reverse.zipIdx.foldl pushItem (.text "]" :: pending)

theorem opened_cons (v : Value) (items : List Value) (pending : List Task) :
    opened (v :: items) pending = pushItem (opened items pending) (v, items.length) := by
  simp only [opened, List.reverse_cons, List.zipIdx_append, List.foldl_append,
    List.length_reverse, Nat.zero_add, List.zipIdx_singleton, List.foldl_cons, List.foldl_nil]

/-- What is pushed from the last item to the first is taken from the first to the last. -/
theorem opened_eq (items : List Value) (pending : List Task) :
    opened items pending = ofItems items ++ .text "]" :: pending := by
  induction items with
  | nil => rfl
  | cons v items ih =>
    rw [opened_cons, ih]
    -- Only the last item has none below it, and so no comma.
    cases items with
    | nil => rfl
    | cons w items => rfl

theorem totalCost_opened_lt (items : List Value) (pending : List Task) :
    totalCost (opened items pending) < 2 + Value.tasksItems items + totalCost pending := by
  have h := totalCost_ofItems_le items
  simp only [opened_eq, totalCost_append, totalCost, cost]
  omega

end Task

/-- One turn: the text written so far and the pending tasks after the top one is taken. -/
def turn (o : Options) : String × List Task → String × List Task
  | (out, []) => (out, [])
  | (out, .text s :: rest) => (out ++ s, rest)
  | (out, .value .null :: rest) => (out ++ "null", rest)
  | (out, .value (.bool true) :: rest) => (out ++ "true", rest)
  | (out, .value (.bool false) :: rest) => (out ++ "false", rest)
  | (out, .value (.int n) :: rest) => (out ++ int n, rest)
  | (out, .value (.float x) :: rest) => (out ++ float x, rest)
  | (out, .value (.string s) :: rest) => (out ++ quoted o s, rest)
  | (out, .value (.list items) :: rest) => (out ++ "[", Task.opened items rest)
  | (out, .value (.map entries) :: rest) => (out ++ "[", Task.opened (Value.values entries) rest)

/-- A turn may leave more tasks than there were, but they cost less. -/
theorem totalCost_turn_lt (o : Options) (out : String) (task : Task) (rest : List Task) :
    Task.totalCost (turn o (out, task :: rest)).2 < Task.totalCost (task :: rest) := by
  rw [Task.totalCost]
  cases task with
  | text s => exact Nat.lt_add_of_pos_left Nat.one_pos
  | value v =>
    rw [Task.cost]
    cases v with
    | list items =>
      rw [Value.tasks]
      exact Task.totalCost_opened_lt items rest
    | map entries =>
      rw [Value.tasks, ← Task.tasksItems_values]
      exact Task.totalCost_opened_lt (Value.values entries) rest
    | bool b => cases b <;> exact Nat.lt_add_of_pos_left Nat.one_pos
    | _ => exact Nat.lt_add_of_pos_left Nat.one_pos

/-- The text once nothing is pending. -/
def write (o : Options) : String × List Task → String
  | (out, []) => out
  | (out, task :: rest) => write o (turn o (out, task :: rest))
termination_by s => Task.totalCost s.2
decreasing_by exact totalCost_turn_lt o out task rest

/-- The literal of a value, added to the text written so far. -/
def append (o : Options) (out : String) (v : Value) : String := write o (out, [.value v])

end Literal

end ScriptWriter
