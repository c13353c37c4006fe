import Mathlib.Logic.Function.Iterate
import ScriptWriter.Emitter.Basic

/-!
# The text of a literal

`render` is the literal of a value by recursion on the value. What is run is a loop over pending
tasks, which owe the text that is still to come (`owed`). One turn takes the top task away, writes
what it can and pushes the parts of a list in its place, so the tasks may grow. But the text written
so far and the text still owed make up the same whole (`owed_turn`), and the tasks cost less than
before. So the loop ends, after no more turns than the value has tasks, and what it adds is the
rendered value (`literal_loop_writes_render`). The literal depends on the two escape flags only.
-/

namespace ScriptWriter

namespace Value

/-- The parts of a list or a map. -/
def parts : Value → List Value
  | .list items => items
  | .map entries => values entries
  | _ => []

theorem sizeOf_lt_of_mem_parts {v w : Value} (h : w ∈ v.parts) : sizeOf w < sizeOf v := by
  cases v with
  | list items =>
    have : sizeOf w < sizeOf items := List.sizeOf_lt_of_mem h
    simp only [list.sizeOf_spec]
    omega
  | map entries =>
    obtain ⟨⟨key, w⟩, hm, rfl⟩ := List.mem_map.1 h
    have := List.sizeOf_lt_of_mem hm
    simp only [Prod.mk.sizeOf_spec, map.sizeOf_spec] at this ⊢
    omega
  | _ => cases h

/-- What holds of a value whenever it holds of its parts holds of all values. -/
theorem parts_induction {P : Value → Prop} (h : ∀ v, (∀ w ∈ v.parts, P w) → P v) (v : Value) :
    P v :=
  h v fun w _ => parts_induction h w
termination_by sizeOf v
decreasing_by exact sizeOf_lt_of_mem_parts ‹_›

end Value

namespace Literal

mutual

/-- The literal of a value: lists between brackets, maps as the list of their values. -/
def render (o : Options) : Value → String
  | .null => "null"
  | .bool b => if b then "true" else "false"
  | .int n => int n
  | .float x => float x
  | .string s => quoted o s
  | .list items => "[" ++ ", ".intercalate (renderItems o items) ++ "]"
  | .map entries => "[" ++ ", ".intercalate (renderEntries o entries) ++ "]"

def renderItems (o : Options) : List Value → List String
  | [] => []
  | v :: rest => render o v :: renderItems o rest

def renderEntries (o : Options) : List (String × Value) → List String
  | [] => []
  | (_, v) :: rest => render o v :: renderEntries o rest

end

theorem renderItems_eq_map (o : Options) : ∀ items : List Value,
    renderItems o items = items.map (render o)
  | [] => rfl
  | v :: rest => by
    rw [renderItems, renderItems_eq_map o rest]
    rfl

theorem renderEntries_eq_map (o : Options) : ∀ entries : List (String × Value),
    renderEntries o entries = (Value.values entries).map (render o)
  | [] => rfl
  | (_, v) :: rest => by
    rw [renderEntries, renderEntries_eq_map o rest]
    rfl

/-! ## What the tasks owe -/

/-- The text that the tasks still have to add. -/
def owed (o : Options) : List Task → String
  | [] => ""
  | .text s :: rest => s ++ owed o rest
  | .value v :: rest => render o v ++ owed o rest

theorem owed_append (o : Options) : ∀ tasks rest : List Task,
    owed o (tasks ++ rest) = owed o tasks ++ owed o rest
  | [], rest => by simp [owed]
  | .text s :: tasks, rest => by
    rw [List.cons_append, owed, owed, owed_append o tasks rest, String.append_assoc]
  | .value v :: tasks, rest => by
    rw [List.cons_append, owed, owed, owed_append o tasks rest, String.append_assoc]

theorem owed_ofItems (o : Options) : ∀ items : List Value,
    owed o (Task.ofItems items) = ", ".intercalate (items.map (render o))
  | [] => by simp [Task.ofItems, owed]
  | [v] => by simp [Task.ofItems, Task.following, owed]
  | v :: w :: rest => by
    have ih := owed_ofItems o (w :: rest)
    simp only [Task.ofItems, Task.following, owed, List.map_cons] at ih ⊢
    rw [String.intercalate_cons_cons, ih, String.append_assoc]

/-- A list put in the place of its task owes its items and the closing bracket. -/
theorem owed_opened (o : Options) (items : List Value) (rest : List Task) :
    owed o (Task.opened items rest)
      = ", ".intercalate (items.map (render o)) ++ "]" ++ owed o rest := by
  rw [Task.opened_eq, owed_append, owed_ofItems, owed, String.append_assoc]

/-! ## Turn by turn -/

/-- What a turn writes is no longer owed. -/
theorem owed_turn (o : Options) (out : String) (task : Task) (rest : List Task) :
    (turn o (out, task :: rest)).1 ++ owed o (turn o (out, task :: rest)).2
      = out ++ owed o (task :: rest) := by
  cases task with
  | text s => rw [turn, owed, String.append_assoc]
  | value v =>
    rw [owed]
    cases v with
    | null => rw [turn, render, String.append_assoc]
    | bool b => cases b <;> (rw [turn, render, String.append_assoc]; rfl)
    | int n => rw [turn, render, String.append_assoc]
    | float x => rw [turn, render, String.append_assoc]
    | string s => rw [turn, render, String.append_assoc]
    | list items =>
      rw [turn, owed_opened, render, renderItems_eq_map]
      simp only [String.append_assoc]
    | map entries =>
      rw [turn, owed_opened, render, renderEntries_eq_map]
      simp only [String.append_assoc]

/-- As many turns as the tasks cost leave nothing pending, and the loop comes to the same end. -/
theorem iterate_turn (o : Options) (n : Nat) (s : String × List Task)
    (h : Task.totalCost s.2 ≤ n) :
    (turn o)^[n] s = (s.1 ++ owed o s.2, []) ∧ write o s = s.1 ++ owed o s.2 := by
  induction n generalizing s with
  | zero =>
    obtain ⟨out, _ | ⟨task, rest⟩⟩ := s
    · exact ⟨by simp [owed], by simp [owed, write]⟩
    · exact absurd (Nat.lt_of_lt_of_le (totalCost_turn_lt o out task rest) h) (Nat.not_lt_zero _)
  | succ n ih =>
    obtain ⟨out, _ | ⟨task, rest⟩⟩ := s
    · exact ih (out, []) (Nat.zero_le n)
    · have hcost := Nat.lt_of_lt_of_le (totalCost_turn_lt o out task rest) h
      rw [Function.iterate_succ_apply, write, ← owed_turn]
      exact ih (turn o (out, task :: rest)) (Nat.le_of_lt_succ hcost)

theorem append_eq_append_render (o : Options) (out : String) (v : Value) :
    append o out v = out ++ render o v := by
  have hwrite := (iterate_turn o _ (out, [.value v]) (Nat.le_refl _)).2
  rwa [owed, owed, String.append_empty] at hwrite

/-- The loop that writes the literal of a value ends within as many turns as the value has tasks,
and has then added the rendered value to the text. Nothing else of the emitter changes. -/
theorem literal_loop_writes_render (v : Value) (e : Emitter) :
    (turn e.options)^[v.tasks] (e.source, [.value v]) = (append e.options e.source v, [])
      ∧ Emitter.writeLiteral v e
        = (.ok (), { e with source := e.source ++ render e.options v }) := by
  have happend := append_eq_append_render e.options e.source v
  have hloop := (iterate_turn e.options v.tasks (e.source, [.value v]) (Nat.le_refl _)).1
  rw [owed, owed, String.append_empty, ← happend] at hloop
  refine ⟨hloop, ?_⟩
  rw [← happend]
  rfl

/-! ## Options that do not matter -/

theorem escape_withMaxDepth (o : Options) (limit : UInt32) (c : Char) (rest : List Char) :
    escape (o.withMaxDepth limit) c rest = escape o c rest := rfl

theorem escaped_withMaxDepth (o : Options) (limit : UInt32) : ∀ cs : List Char,
    escaped (o.withMaxDepth limit) cs = escaped o cs
  | [] => rfl
  | c :: rest => by
    rw [escaped, escaped, escape_withMaxDepth, escaped_withMaxDepth o limit rest]

theorem quoted_withMaxDepth (o : Options) (limit : UInt32) (s : String) :
    quoted (o.withMaxDepth limit) s = quoted o s := by
  rw [quoted, quoted, escaped_withMaxDepth]

mutual

theorem render_withMaxDepth (o : Options) (limit : UInt32) : ∀ v : Value,
    render (o.withMaxDepth limit) v = render o v
  | .null => rfl
  | .bool _ => rfl
  | .int _ => rfl
  | .float _ => rfl
  | .string s => by rw [render, render, quoted_withMaxDepth]
  | .list items => by rw [render, render, renderItems_withMaxDepth o limit items]
  | .map entries => by rw [render, render, renderEntries_withMaxDepth o limit entries]

theorem renderItems_withMaxDepth (o : Options) (limit : UInt32) : ∀ items : List Value,
    renderItems (o.withMaxDepth limit) items = renderItems o items
  | [] => rfl
  | v :: rest => by
    rw [renderItems, renderItems, render_withMaxDepth o limit v,
      renderItems_withMaxDepth o limit rest]

theorem renderEntries_withMaxDepth (o : Options) (limit : UInt32) :
    ∀ entries : List (String × Value),
      renderEntries (o.withMaxDepth limit) entries = renderEntries o entries
  | [] => rfl
  | (_, v) :: rest => by
    rw [renderEntries, renderEntries, render_withMaxDepth o limit v,
      renderEntries_withMaxDepth o limit rest]

end

end Literal

end ScriptWriter
