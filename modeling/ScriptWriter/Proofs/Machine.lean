import Mathlib.Logic.Relation
import ScriptWriter.Proofs.ExprText
import ScriptWriter.Session

/-!
# Emission step by step

The machine does the work of an emission in steps, so that there is a state between any two of
them. It keeps the tasks that are still to be done in a list. A scope that is open has left a task
in it, which puts back what the scope has to put back, and so has a handler. Where a node stops,
the machine drops tasks up to the next handler that takes the stop, and closes the scopes it meets
on the way.

Tasks perform an emission if the machine comes from them to the result of the emission, whatever
is to be done afterwards. The tasks of a node perform its emission (`Node.performs_emit`), so the
states between are those that the emission passes through.
-/

namespace ScriptWriter

open Emitter

/-- The items of a list or the arguments of a call, some of them written already. -/
structure Batch where
  before : String
  parts : List String
  rest : List Expr
  after : String

/-- What becomes of a text that was written apart. -/
inductive Receiver where
  | add
  | drop
  /-- It is the next part of a batch. -/
  | part (batch : Batch)

inductive Task where
  | run (op : Op)
  | call (function : String) (arguments : List Expr)
  | batch (batch : Batch)
  /-- Ends a node in place. -/
  | leave (depth : UInt32)
  /-- Ends a node written apart. -/
  | rejoin (depth : UInt32) (source : String) (receiver : Receiver)
  /-- Writes the text if an error comes here. -/
  | onError (text : String)
  /-- Writes the message if an abort comes here. -/
  | onAbort

/-- An emitter, the tasks to be done, and why they are dropped if they are. -/
structure Machine where
  emitter : Emitter
  tasks : List Task
  stop : Option Stop := none

/-! ## The tasks of a node -/

namespace Expr

def propertyTasks (property : String) : List Task :=
  if isIdentifier property then [.run (.write "."), .run (.write property)]
  else [.run (.write "["), .run (.writeString property), .run (.write "]")]

def entryTasks : List (String × Expr) → String → List Task
  | [], _ => []
  | (key, x) :: rest, separator =>
    [.run (.write separator), .run (.writeString key), .run (.write ": "), .run (.emit (.expr x))]
      ++ entryTasks rest ", "

def tasks : Expr → List Task
  | .constant value => [.run (.writeLiteral value)]
  | .name text => [.run (.write text)]
  | .array items => [.batch ⟨"[", [], items, "]"⟩]
  | .object entries => [.run (.write "\x7b")] ++ entryTasks entries "" ++ [.run (.write "\x7d")]
  | .unary operator operand =>
    [.run (.write ("(" ++ unaryOperator operator)), .run (.emit (.expr operand)), .run (.write ")")]
  | .binary left operator right =>
    [.run (.write "("), .run (.emit (.expr left)),
      .run (.write (" " ++ binaryOperator operator ++ " ")), .run (.emit (.expr right)),
      .run (.write ")")]
  | .conditional test yes no =>
    [.run (.write "(("), .run (.emit (.expr test)), .run (.write ") ? ("), .run (.emit (.expr yes)),
      .run (.write ") : ("), .run (.emit (.expr no)), .run (.write "))")]
  | .member target property => [.run (.emit (.expr target))] ++ propertyTasks property
  | .index target key =>
    [.run (.emit (.expr target)), .run (.write "["), .run (.emit (.expr key)), .run (.write "]")]
  | .call function arguments => [.call function arguments]

end Expr

def Node.tasks : Node → List Task
  | .expr x => x.tasks
  | .shared node => node.tasks
  | .script ops => ops.map .run

/-! ## Steps -/

namespace Machine

/-- The machine that goes on after an emission. -/
def after (outcome : Except Stop Unit × Emitter) (rest : List Task) : Machine where
  emitter := outcome.2
  tasks := rest
  stop := match outcome.1 with
    | .ok _ => none
    | .error stop => some stop

/-- Opens a node in place, unless the limit is reached. -/
def enter (body : List Task) (e : Emitter) (rest : List Task) : Machine :=
  if e.options.maxDepth ≤ e.depth then
    ⟨e, rest, some (.error (.tooDeep e.options.maxDepth))⟩
  else ⟨{ e with depth := e.depth + 1 }, body ++ .leave e.depth :: rest, none⟩

/-- Opens a node apart, unless the limit is reached. -/
def enterApart (body : List Task) (receiver : Receiver) (e : Emitter) (rest : List Task) :
    Machine :=
  if e.options.maxDepth ≤ e.depth then
    ⟨e, rest, some (.error (.tooDeep e.options.maxDepth))⟩
  else
    ⟨{ e with source := "", depth := e.depth + 1 },
      body ++ .rejoin e.depth e.source receiver :: rest, none⟩

end Machine

open Machine

def Receiver.tasks (text : String) : Receiver → List Task
  | .add => [.run (.write text)]
  | .drop => []
  | .part batch => [.batch { batch with parts := batch.parts ++ [text] }]

/-- One step of an operation: it opens its node, or is done at once if it has none. -/
def Op.perform (e : Emitter) (rest : List Task) : Op → Machine
  | .emit node => enter node.tasks e rest
  | .emitApart node => enterApart node.tasks .add e rest
  | .discard node => enterApart node.tasks .drop e rest
  | .attempt node text => ⟨e, .run (.emit node) :: .onError text :: rest, none⟩
  | .attemptApart node text => ⟨e, .run (.emitApart node) :: .onError text :: rest, none⟩
  | .guarded node => ⟨e, .run (.emit node) :: .onAbort :: rest, none⟩
  | op => after (op.run e) rest

namespace Task

def perform (e : Emitter) (rest : List Task) : Task → Machine
  | .run op => op.perform e rest
  | .call function arguments =>
    match e.functions.get? function with
    | some d => ⟨e, .batch ⟨Expr.callee function d ++ "(", [], arguments, ")"⟩ :: rest, none⟩
    | none => ⟨e, rest, some (.error (.unknownFunction function))⟩
  | .batch ⟨before, parts, [], after⟩ =>
    Machine.after (write (before ++ ", ".intercalate parts ++ after) e) rest
  | .batch ⟨before, parts, x :: items, after⟩ =>
    enterApart x.tasks (.part ⟨before, parts, items, after⟩) e rest
  | .leave depth => ⟨{ e with depth }, rest, none⟩
  | .rejoin depth source receiver =>
    ⟨{ e with source, depth }, receiver.tasks e.source ++ rest, none⟩
  | .onError _ => ⟨e, rest, none⟩
  | .onAbort => ⟨e, rest, none⟩

/-- One step after a stop. -/
def unwind (e : Emitter) (rest : List Task) (stop : Stop) : Task → Machine
  | .leave depth => ⟨{ e with depth }, rest, some stop⟩
  | .rejoin depth source _ => ⟨{ e with source, depth }, rest, some stop⟩
  | .onError text =>
    match stop with
    | .error _ => after (write text e) rest
    | .abort _ => ⟨e, rest, some stop⟩
  | .onAbort =>
    match stop with
    | .error _ => ⟨e, rest, some stop⟩
    | .abort message => after (write ("<panic:" ++ message ++ ">") e) rest
  | _ => ⟨e, rest, some stop⟩

end Task

namespace Machine

/-- One step, if there is anything to be done. -/
def step : Machine → Option Machine
  | ⟨_, [], _⟩ => none
  | ⟨e, task :: rest, none⟩ => some (task.perform e rest)
  | ⟨e, task :: rest, some stop⟩ => some (task.unwind e rest stop)

/-- Any number of steps. -/
abbrev Steps : Machine → Machine → Prop :=
  Relation.ReflTransGen fun s s' => s.step = some s'

end Machine

/-! ## Tasks that perform an emission -/

/-- The task has nothing to put back and handles nothing: a stop just drops it. -/
def Task.isPlain : Task → Bool
  | .run _ => true
  | .call _ _ => true
  | .batch _ => true
  | _ => false

theorem Machine.steps_drop (e : Emitter) (rest : List Task) (stop : Stop) :
    ∀ {tasks : List Task}, tasks.all Task.isPlain = true →
      Steps ⟨e, tasks ++ rest, some stop⟩ ⟨e, rest, some stop⟩
  | [], _ => .refl
  | task :: tasks, h => by
    simp only [List.all_cons, Bool.and_eq_true] at h
    refine .head ?_ (steps_drop e rest stop h.2)
    cases task <;> first | rfl | simp [Task.isPlain] at h

/-- From the tasks the machine comes to the result of the emission, whatever is to be done then. -/
structure Performs (tasks : List Task) (m : EmitM Unit) : Prop where
  plain : tasks.all Task.isPlain = true
  steps : ∀ e rest, Steps ⟨e, tasks ++ rest, none⟩ (after (m e) rest)

namespace Performs

theorem nil : Performs [] (pure ()) := ⟨rfl, fun _ _ => .refl⟩

theorem append {tasks tasks' : List Task} {m m' : EmitM Unit} (h : Performs tasks m)
    (h' : Performs tasks' m') : Performs (tasks ++ tasks') (m >>= fun _ => m') := by
  refine ⟨by rw [List.all_append, h.plain, h'.plain]; rfl, fun e rest => ?_⟩
  have hsteps := h.steps e (tasks' ++ rest)
  rw [List.append_assoc]
  rw [bind_apply]
  rcases hm : m e with ⟨stop | _, e'⟩ <;> rw [hm] at hsteps
  · exact hsteps.trans (steps_drop e' rest stop h'.plain)
  · exact hsteps.trans (h'.steps e' rest)

theorem cons {task : Task} {tasks : List Task} {m m' : EmitM Unit} (h : Performs [task] m)
    (h' : Performs tasks m') : Performs (task :: tasks) (m >>= fun _ => m') :=
  h.append h'

/-- A task that takes one step to what other steps do. -/
theorem of_step {task : Task} {m : EmitM Unit} (hp : task.isPlain = true)
    (h : ∀ e rest, Steps (task.perform e rest) (after (m e) rest)) : Performs [task] m :=
  ⟨by simp [hp], fun e rest => .head rfl (h e rest)⟩

theorem write (text : String) : Performs [.run (.write text)] (write text) :=
  of_step rfl fun _ _ => .refl

theorem writeString (text : String) : Performs [.run (.writeString text)] (writeString text) :=
  of_step rfl fun _ _ => .refl

theorem steps_enter {body : List Task} {m : EmitM Unit} (h : Performs body m) (e : Emitter)
    (rest : List Task) : Steps (enter body e rest) (after (nested m e) rest) := by
  unfold enter
  rcases UInt32.lt_or_le e.depth e.options.maxDepth with hd | hd
  · rw [if_neg (UInt32.not_le.2 hd), nested_of_lt hd]
    refine (h.steps _ _).trans ?_
    -- the scope's own task comes next, after a result and after a stop
    rcases m { e with depth := e.depth + 1 } with ⟨stop | _, e'⟩ <;> exact .single rfl
  · rw [if_pos hd, nested_of_le hd]
    exact .refl

/-- After a node written apart the receiver's tasks come next. -/
theorem steps_enterApart {body : List Task} {m : EmitM Unit} (h : Performs body m)
    (receiver : Receiver) (e : Emitter) (rest : List Task) :
    Steps (enterApart body receiver e rest) (match isolated m e with
      | (.ok text, e') => ⟨e', receiver.tasks text ++ rest, none⟩
      | (.error stop, e') => ⟨e', rest, some stop⟩) := by
  unfold enterApart isolated
  rcases UInt32.lt_or_le e.depth e.options.maxDepth with hd | hd
  · rw [if_neg (UInt32.not_le.2 hd), nested_of_lt (e := { e with source := "" }) hd]
    refine (h.steps _ _).trans ?_
    rcases m { e with source := "", depth := e.depth + 1 } with ⟨stop | _, e'⟩ <;> exact .single rfl
  · rw [if_pos hd, nested_of_le (e := { e with source := "" }) hd]
    exact .refl

theorem emit {n : Node} (h : Performs n.tasks n.emit) :
    Performs [.run (.emit n)] (nested n.emit) :=
  of_step rfl h.steps_enter

theorem emitApart {n : Node} (h : Performs n.tasks n.emit) :
    Performs [.run (.emitApart n)] (isolated n.emit >>= Emitter.write) := by
  refine of_step rfl fun e rest => (h.steps_enterApart .add e rest).trans ?_
  rw [bind_apply]
  rcases isolated n.emit e with ⟨stop | text, e'⟩
  · exact .refl
  · exact (write text).steps e' rest

theorem discard {n : Node} (h : Performs n.tasks n.emit) :
    Performs [.run (.discard n)] (isolated n.emit >>= fun _ => pure ()) := by
  refine of_step rfl fun e rest => (h.steps_enterApart .drop e rest).trans ?_
  rw [bind_apply]
  rcases isolated n.emit e with ⟨stop | text, e'⟩ <;> exact .refl

/-- A handler of errors after a task. -/
theorem steps_onError {task : Task} {m : EmitM Unit} (h : Performs [task] m) (text : String)
    (e : Emitter) (rest : List Task) : Steps ⟨e, task :: .onError text :: rest, none⟩
      (after (onError m (fun _ => Emitter.write text) e) rest) := by
  refine (h.steps e (.onError text :: rest)).trans ?_
  rw [onError, tryCatch_apply]
  rcases m e with ⟨(err | message) | _, e'⟩ <;> exact .single rfl

theorem steps_onAbort {task : Task} {m : EmitM Unit} (h : Performs [task] m) (e : Emitter)
    (rest : List Task) : Steps ⟨e, task :: .onAbort :: rest, none⟩
      (after (onAbort m (fun message => Emitter.write ("<panic:" ++ message ++ ">")) e) rest) := by
  refine (h.steps e (.onAbort :: rest)).trans ?_
  rw [onAbort, tryCatch_apply]
  rcases m e with ⟨(err | message) | _, e'⟩ <;> exact .single rfl

/-- The items one after another, and at the end what was gathered. -/
theorem batch (before after : String) : ∀ {items : List Expr} (parts : List String),
    (∀ x ∈ items, Performs x.tasks x.emit) → Performs [.batch ⟨before, parts, items, after⟩]
      (Expr.fragments items >>= fun texts =>
        Emitter.write (before ++ ", ".intercalate (parts ++ texts) ++ after))
  | [], parts, _ => by
    refine of_step rfl fun e rest => ?_
    rw [Expr.fragments, pure_bind, List.append_nil]
    exact .refl
  | x :: items, parts, h => by
    refine of_step rfl fun e rest => ?_
    refine ((h x List.mem_cons_self).steps_enterApart _ e rest).trans ?_
    rw [Expr.fragments, bind_assoc, bind_apply]
    rcases isolated x.emit e with ⟨stop | text, e'⟩
    · exact .refl
    · have ih := batch before after (parts ++ [text]) fun y hy => h y (List.mem_cons_of_mem x hy)
      simpa [Receiver.tasks] using ih.steps e' rest

end Performs

/-! ## The tasks of a node perform it -/

namespace Expr

theorem performs_propertyTasks (property : String) :
    Performs (propertyTasks property) (emitProperty property) := by
  unfold propertyTasks emitProperty
  split
  · exact (Performs.write _).cons (.write _)
  · exact (Performs.write _).cons ((Performs.writeString _).cons (.write _))

theorem performs_entryTasks : ∀ (entries : List (String × Expr)) (separator : String),
    (∀ p ∈ entries, Performs p.2.tasks p.2.emit) →
      Performs (entryTasks entries separator) (emitEntries entries separator)
  | [], _, _ => by
    rw [entryTasks, emitEntries]
    exact .nil
  | (key, x) :: rest, separator, h => by
    have hx : Performs (Node.expr x).tasks (Node.expr x).emit := by
      rw [Node.tasks, Node.emit]
      exact h (key, x) List.mem_cons_self
    have ih := performs_entryTasks rest ", " fun p hp => h p (List.mem_cons_of_mem _ hp)
    rw [entryTasks, emitEntries]
    exact (Performs.write _).cons ((Performs.writeString _).cons ((Performs.write _).cons
      (hx.emit.cons ih)))

theorem performs_emit (x : Expr) : Performs x.tasks x.emit := by
  induction x using children_induction with
  | h x ih =>
    have hpart : ∀ c ∈ x.children, Performs [.run (.emit (.expr c))] (nested c.emit) := by
      intro c hc
      have hc := ih c hc
      exact Performs.emit (n := .expr c) hc
    cases x with
    | constant v => exact Performs.of_step rfl fun _ _ => .refl
    | name text => exact .write text
    | array items =>
      rw [tasks, emit]
      exact Performs.batch "[" "]" [] ih
    | object entries =>
      have he := performs_entryTasks entries "" fun p hp => ih p.2 (List.mem_map_of_mem hp)
      rw [tasks, emit, List.append_assoc]
      exact (Performs.write _).append (he.append (.write _))
    | unary operator operand =>
      rw [tasks, emit]
      exact (Performs.write _).cons ((hpart operand (by simp [children])).cons (.write _))
    | binary left operator right =>
      rw [tasks, emit]
      exact (Performs.write _).cons ((hpart left (by simp [children])).cons
        ((Performs.write _).cons ((hpart right (by simp [children])).cons (.write _))))
    | conditional test yes no =>
      rw [tasks, emit]
      exact (Performs.write _).cons ((hpart test (by simp [children])).cons
        ((Performs.write _).cons ((hpart yes (by simp [children])).cons
        ((Performs.write _).cons ((hpart no (by simp [children])).cons (.write _))))))
    | member target property =>
      rw [tasks, emit]
      exact (hpart target (by simp [children])).append (performs_propertyTasks property)
    | index target key =>
      rw [tasks, emit]
      exact (hpart target (by simp [children])).cons ((Performs.write _).cons
        ((hpart key (by simp [children])).cons (.write _)))
    | call function arguments =>
      rw [tasks, emit]
      refine Performs.of_step rfl fun e rest => ?_
      rw [Task.perform, bind_apply, descriptorOf_apply]
      rcases e.functions.get? function with _ | d
      · exact .refl
      · exact (Performs.batch (callee function d ++ "(") ")" [] ih).steps e rest

end Expr

mutual

theorem Node.performs_emit : ∀ n : Node, Performs n.tasks n.emit
  | .expr x => by
    rw [Node.tasks, Node.emit]
    exact x.performs_emit
  | .shared node => by
    rw [Node.tasks, Node.emit]
    exact Node.performs_emit node
  | .script ops => by
    rw [Node.tasks, Node.emit]
    exact Op.performs_runAll ops

theorem Op.performs_run : ∀ op : Op, Performs [.run op] op.run
  | .emit node => by
    rw [Op.run]
    exact (Node.performs_emit node).emit
  | .emitApart node => by
    rw [Op.run]
    exact (Node.performs_emit node).emitApart
  | .discard node => by
    rw [Op.run]
    exact (Node.performs_emit node).discard
  | .attempt node text => by
    rw [Op.run]
    exact .of_step rfl (((Node.performs_emit node).emit).steps_onError text)
  | .attemptApart node text => by
    rw [Op.run]
    refine .of_step rfl fun e rest => ?_
    have hsteps := ((Node.performs_emit node).emitApart).steps_onError text e rest
    -- writing does not fail, so it may as well be inside the handler
    rw [onError, tryCatch_apply, bind_apply] at hsteps
    rw [bind_apply, onError, tryCatch_apply]
    rcases hr : isolated node.emit e with ⟨(err | message) | part, e'⟩ <;> rw [hr] at hsteps <;>
      exact hsteps
  | .guarded node => by
    rw [Op.run]
    exact .of_step rfl (((Node.performs_emit node).emit).steps_onAbort)
  | .write text | .writeString text | .writeLiteral value | .writeDescriptor function
  | .writeDepth | .writeLength | .reset | .fail message | .abort message =>
    .of_step rfl fun _ _ => .refl

theorem Op.performs_runAll : ∀ ops : List Op, Performs (ops.map .run) (Op.runAll ops)
  | [] => by
    rw [Op.runAll]
    exact .nil
  | op :: rest => by
    rw [Op.runAll]
    exact (Op.performs_run op).cons (Op.performs_runAll rest)

end

end ScriptWriter
