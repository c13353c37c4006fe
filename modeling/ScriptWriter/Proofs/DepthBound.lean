import ScriptWriter.Proofs.Machine

/-!
# The depth and the open scopes

A step of the machine leaves depth and scopes alone, opens a scope below the limit, closes the
innermost one, or resets the depth (`steady_of_step`). A scope saves the depth at which it was
opened. So no depth that is held or saved is ever past the limit, also when a reset in a node is
followed by scopes that put larger depths back. Without such a reset each scope has saved the
number of those around it, and the depth counts the scopes that are open.

The states that can be reached are those a fresh emitter passes through under any commands
(`Reachable`), inside of them as well as in between.
-/

namespace ScriptWriter

open Emitter

/-- The depth that the task of an open scope will put back. -/
def Task.saved? : Task → Option UInt32
  | .leave depth => some depth
  | .rejoin depth _ _ => some depth
  | _ => none

namespace Machine

/-- The depths that the open scopes will put back, the innermost first. -/
def saved (s : Machine) : List UInt32 := s.tasks.filterMap Task.saved?

/-- The nodes that are open, in place or apart. -/
def openScopes (s : Machine) : Nat := s.saved.length

/-- A node is about to reset the emitter. -/
def NodeResets (s : Machine) : Prop :=
  s.stop = none ∧ s.tasks.head? = some (.run .reset) ∧ 0 < s.openScopes

/-! ## What a step does to the depth -/

theorem filterMap_saved_of_plain {tasks : List Task} (h : tasks.all Task.isPlain = true) :
    tasks.filterMap Task.saved? = [] := by
  rw [List.filterMap_eq_nil_iff]
  intro task ht
  have hp := List.all_eq_true.1 h task ht
  cases task <;> first | rfl | simp [Task.isPlain] at hp

/-- What one step does to the depth and to the open scopes. -/
inductive DepthChange (s s' : Machine) : Prop
  | keep (hd : s'.emitter.depth = s.emitter.depth) (hs : s'.saved = s.saved)
  | opened (hlt : s.emitter.depth < s.emitter.options.maxDepth)
      (hd : s'.emitter.depth = s.emitter.depth + 1) (hs : s'.saved = s.emitter.depth :: s.saved)
  | closed (hs : s.saved = s'.emitter.depth :: s'.saved)
  | reset (hr : s.stop = none ∧ s.tasks.head? = some (.run .reset))
      (hd : s'.emitter.depth = 0) (hs : s'.saved = s.saved)

/-- The step keeps the options and changes the depth in one of the four ways. -/
def Steady (s s' : Machine) : Prop :=
  s'.emitter.options = s.emitter.options ∧ DepthChange s s'

theorem steady_opened {task closing : Task} (ht : task.saved? = none) {body rest : List Task}
    (hb : body.all Task.isPlain = true) {e e' : Emitter} (hc : closing.saved? = some e.depth)
    (ho : e'.options = e.options) (hd : e'.depth = e.depth + 1)
    (hlt : e.depth < e.options.maxDepth) :
    Steady ⟨e, task :: rest, none⟩ ⟨e', body ++ closing :: rest, none⟩ := by
  refine ⟨ho, .opened hlt hd ?_⟩
  simp [saved, List.filterMap_cons_none ht, filterMap_saved_of_plain hb, hc]

theorem steady_enter {task : Task} (ht : task.saved? = none) {body : List Task}
    (hb : body.all Task.isPlain = true) (e : Emitter) (rest : List Task) :
    Steady ⟨e, task :: rest, none⟩ (enter body e rest) := by
  unfold enter
  rcases UInt32.lt_or_le e.depth e.options.maxDepth with hd | hd
  · rw [if_neg (UInt32.not_le.2 hd)]
    exact steady_opened ht hb rfl rfl rfl hd
  · rw [if_pos hd]
    exact ⟨rfl, .keep rfl (List.filterMap_cons_none ht).symm⟩

theorem steady_enterApart {task : Task} (ht : task.saved? = none) {body : List Task}
    (hb : body.all Task.isPlain = true) (receiver : Receiver) (e : Emitter) (rest : List Task) :
    Steady ⟨e, task :: rest, none⟩ (enterApart body receiver e rest) := by
  unfold enterApart
  rcases UInt32.lt_or_le e.depth e.options.maxDepth with hd | hd
  · rw [if_neg (UInt32.not_le.2 hd)]
    exact steady_opened ht hb rfl rfl rfl hd
  · rw [if_pos hd]
    exact ⟨rfl, .keep rfl (List.filterMap_cons_none ht).symm⟩

theorem steady_op (e : Emitter) (rest : List Task) (op : Op) :
    Steady ⟨e, .run op :: rest, none⟩ (op.perform e rest) := by
  cases op with
  | emit node => exact steady_enter rfl node.performs_emit.plain e rest
  | emitApart node => exact steady_enterApart rfl node.performs_emit.plain .add e rest
  | discard node => exact steady_enterApart rfl node.performs_emit.plain .drop e rest
  | writeDescriptor function =>
    have hemitter : (Op.run (.writeDescriptor function) e).2.options = e.options
        ∧ (Op.run (.writeDescriptor function) e).2.depth = e.depth := by
      rw [Op.run, bind_apply, descriptorOf_apply]
      rcases e.functions.get? function with _ | d <;> exact ⟨rfl, rfl⟩
    exact ⟨hemitter.1, .keep hemitter.2 rfl⟩
  | reset => exact ⟨rfl, .reset ⟨rfl, rfl⟩ rfl rfl⟩
  | _ => exact ⟨rfl, .keep rfl rfl⟩

theorem steady_perform (e : Emitter) (rest : List Task) (task : Task) :
    Steady ⟨e, task :: rest, none⟩ (task.perform e rest) := by
  cases task with
  | run op => exact steady_op e rest op
  | call function arguments =>
    rw [Task.perform]
    rcases e.functions.get? function with _ | d <;> exact ⟨rfl, .keep rfl rfl⟩
  | batch batch =>
    obtain ⟨before, parts, _ | ⟨x, items⟩, after⟩ := batch
    · exact ⟨rfl, .keep rfl rfl⟩
    · exact steady_enterApart rfl x.performs_emit.plain _ e rest
  | leave depth => exact ⟨rfl, .closed rfl⟩
  | rejoin depth source receiver =>
    refine ⟨rfl, .closed ?_⟩
    cases receiver <;> rfl
  | onError text => exact ⟨rfl, .keep rfl rfl⟩
  | onAbort => exact ⟨rfl, .keep rfl rfl⟩

theorem steady_unwind (e : Emitter) (rest : List Task) (stop : Stop) (task : Task) :
    Steady ⟨e, task :: rest, some stop⟩ (task.unwind e rest stop) := by
  cases task with
  | leave depth => exact ⟨rfl, .closed rfl⟩
  | rejoin depth source receiver => exact ⟨rfl, .closed rfl⟩
  | onError text => cases stop <;> exact ⟨rfl, .keep rfl rfl⟩
  | onAbort => cases stop <;> exact ⟨rfl, .keep rfl rfl⟩
  | _ => exact ⟨rfl, .keep rfl rfl⟩

theorem steady_of_step {s s' : Machine} (h : s.step = some s') : Steady s s' := by
  obtain ⟨e, _ | ⟨task, rest⟩, _ | stop⟩ := s
  · cases h
  · cases h
  · cases h
    exact steady_perform e rest task
  · cases h
    exact steady_unwind e rest stop task

/-! ## What every step keeps -/

/-- The depth and the saved depths are within the limit of the options. -/
structure Bounded (options : Options) (s : Machine) : Prop where
  sameOptions : s.emitter.options = options
  depth : s.emitter.depth ≤ options.maxDepth
  saved : ∀ d ∈ s.saved, d ≤ options.maxDepth

/-- The increment of a depth below the limit does not run over. -/
theorem toNat_succ {depth limit : UInt32} (h : depth < limit) :
    (depth + 1).toNat = depth.toNat + 1 := by
  have hlt := UInt32.lt_iff_toNat_lt.1 h
  have hsize := limit.toNat_lt
  rw [UInt32.toNat_add, UInt32.toNat_one, Nat.mod_eq_of_lt (by omega)]

theorem Bounded.step {options : Options} {s s' : Machine} (hs : Bounded options s)
    (h : s.step = some s') : Bounded options s' := by
  obtain ⟨ho, hchange⟩ := steady_of_step h
  refine ⟨ho.trans hs.sameOptions, ?_, ?_⟩
  · cases hchange with
    | keep hd _ => exact hd ▸ hs.depth
    | opened hlt hd _ =>
      rw [hs.sameOptions] at hlt
      have hlt' := UInt32.lt_iff_toNat_lt.1 hlt
      rw [hd, UInt32.le_iff_toNat_le, toNat_succ hlt]
      omega
    | closed hc => exact hs.saved _ (hc ▸ List.mem_cons_self)
    | reset _ hd _ =>
      rw [hd]
      exact UInt32.zero_le
  · intro d hd
    cases hchange with
    | keep _ heq => exact hs.saved d (heq ▸ hd)
    | opened _ _ heq =>
      rw [heq, List.mem_cons] at hd
      rcases hd with rfl | hd
      · exact hs.depth
      · exact hs.saved d hd
    | closed hc => exact hs.saved d (hc ▸ List.mem_cons_of_mem _ hd)
    | reset _ _ heq => exact hs.saved d (heq ▸ hd)

/-- Each depth is the number of those after it. -/
def Counting : List UInt32 → Prop
  | [] => True
  | d :: rest => d.toNat = rest.length ∧ Counting rest

/-- The depth is the number of open scopes, and each of them has saved the number of those around
it. -/
def Counted (s : Machine) : Prop :=
  s.emitter.depth.toNat = s.openScopes ∧ Counting s.saved

theorem Counted.step {s s' : Machine} (hs : Counted s) (hr : ¬ s.NodeResets)
    (h : s.step = some s') : Counted s' := by
  obtain ⟨hdepth, hcounting⟩ := hs
  unfold Counted openScopes at *
  cases (steady_of_step h).2 with
  | keep hd heq => exact ⟨by rw [hd, heq, hdepth], heq ▸ hcounting⟩
  | opened hlt hd heq =>
    rw [hd, heq, toNat_succ hlt, hdepth]
    exact ⟨rfl, hdepth, hcounting⟩
  | closed hc =>
    rw [hc] at hcounting
    exact hcounting
  | reset hreset hd heq =>
    -- outside of all nodes there is nothing to count
    have hnone : s.saved.length = 0 :=
      Nat.eq_zero_of_not_pos fun hpos => hr ⟨hreset.1, hreset.2, hpos⟩
    rw [hd, heq, hnone]
    exact ⟨rfl, hcounting⟩

end Machine

/-! ## States that can be reached -/

/-- The operations of a command on its emitter, or on the copy. -/
def Command.script : Command → List Op
  | .write text => [.write text]
  | .writeString text => [.writeString text]
  | .writeLiteral value => [.writeLiteral value]
  | .reset => [.reset]
  | .emit node => [.emit node]
  | .emitApart node => [.discard node]
  | .emitCopy node => [.emit node]
  | .describe _ => []
  | .configuration => []

/-- The command works on a copy. -/
def Command.onCopy : Command → Bool
  | .emitCopy _ => true
  | _ => false

def Command.tasks (command : Command) : List Task := command.script.map .run

namespace Emitter

theorem snd_execute (e : Emitter) (command : Command) :
    (e.execute command).2 = if command.onCopy then e else (Op.runAll command.script e).2 := by
  have hone : ∀ op : Op, (Op.runAll [op] e).2 = (op.run e).2 := by
    intro op
    rw [Op.runAll, bind_apply]
    rcases op.run e with ⟨stop | _, e'⟩ <;> rfl
  cases command with
  | emitApart node =>
    rw [Command.script, hone, Op.run, bind_apply]
    change (isolated node.emit e).2 = _
    rcases isolated node.emit e with ⟨stop | text, e'⟩ <;> rfl
  | emitCopy node => rfl
  | describe function => rfl
  | configuration => rfl
  | _ =>
    rw [Command.script, hone, Op.run]
    rfl

end Emitter

namespace Machine

/-- The states that the emitter passes through under any commands, as far as the steps are taken
from states that meet the condition. -/
inductive Reachable (start : Emitter) (p : Machine → Prop) : Machine → Prop
  | start : Reachable start p ⟨start, [], none⟩
  | command {e : Emitter} {stop : Option Stop} (command : Command) :
    Reachable start p ⟨e, [], stop⟩ → Reachable start p ⟨e, command.tasks, none⟩
  | step {s s' : Machine} : Reachable start p s → p s → s.step = some s' → Reachable start p s'

theorem saved_tasks (e : Emitter) (command : Command) :
    saved ⟨e, command.tasks, none⟩ = [] :=
  filterMap_saved_of_plain (Op.performs_runAll command.script).plain

theorem Reachable.bounded {functions : FunctionTable} {options : Options} {p : Machine → Prop}
    {s : Machine} (h : Reachable { functions, options } p s) : Bounded options s := by
  induction h with
  | start => exact ⟨rfl, UInt32.zero_le, by simp [saved]⟩
  | command command _ ih => exact ⟨ih.sameOptions, ih.depth, by simp [saved_tasks]⟩
  | step _ _ hstep ih => exact ih.step hstep

theorem Reachable.counted {functions : FunctionTable} {options : Options} {s : Machine}
    (h : Reachable { functions, options } (fun s => ¬ s.NodeResets) s) : Counted s := by
  induction h with
  | start => exact ⟨rfl, trivial⟩
  | @command e stop _ _ ih =>
    have hdepth : e.depth.toNat = 0 := ih.1
    refine ⟨?_, ?_⟩
    · rw [openScopes, saved_tasks]
      exact hdepth
    · rw [saved_tasks]
      trivial
  | step _ hp hstep ih => exact ih.step hp hstep

theorem Reachable.steps {start : Emitter} {s s' : Machine}
    (h : Reachable start (fun _ => True) s) (hs : Steps s s') :
    Reachable start (fun _ => True) s' := by
  induction hs with
  | refl => exact h
  | tail _ hstep ih => exact ih.step trivial hstep

/-- The emitters of a session are among the states reached. -/
theorem Reachable.session {start : Emitter} : ∀ (commands : List Command) {e : Emitter}
    {stop : Option Stop}, Reachable start (fun _ => True) ⟨e, [], stop⟩ →
      ∀ p ∈ e.session commands, ∃ stop', Reachable start (fun _ => True) ⟨p.2, [], stop'⟩
  | [], _, _, _, p, hp => by simp [Emitter.session] at hp
  | c :: rest, e, stop, h, p, hp => by
    have hnext : ∃ stop', Reachable start (fun _ => True) ⟨(e.execute c).2, [], stop'⟩ := by
      rw [snd_execute]
      split
      · exact ⟨stop, h⟩
      · have hsteps := (Op.performs_runAll c.script).steps e []
        rw [List.append_nil] at hsteps
        exact ⟨_, (h.command c).steps hsteps⟩
    obtain ⟨stop', hnext⟩ := hnext
    rw [Emitter.session] at hp
    rcases List.mem_cons.1 hp with rfl | hp
    · exact ⟨stop', hnext⟩
    · exact Reachable.session rest hnext p hp

/-- In every state that a fresh emitter passes through, between commands and inside of nodes, the
depth is within the limit, so that opening a scope never runs over. As long as no node resets the
emitter, the depth is the number of open scopes. The machine passes from a node to the result of
its emission, and through the emitters of every session. -/
theorem depth_within_limit (functions : FunctionTable) (options : Options) :
    (∀ s, Reachable { functions, options } (fun _ => True) s →
      s.emitter.options = options ∧ s.emitter.depth ≤ options.maxDepth
        ∧ (s.emitter.depth < options.maxDepth →
          (s.emitter.depth + 1).toNat = s.emitter.depth.toNat + 1))
      ∧ (∀ s, Reachable { functions, options } (fun s => ¬ s.NodeResets) s →
        s.emitter.depth.toNat = s.openScopes ∧ s.openScopes ≤ options.maxDepth.toNat)
      ∧ (∀ (n : Node) (e : Emitter) (rest : List Task),
        Steps ⟨e, .run (.emit n) :: rest, none⟩ (after (nested n.emit e) rest)
          ∧ Steps ⟨e, .run (.emitApart n) :: rest, none⟩
            (after ((isolated n.emit >>= write) e) rest))
      ∧ ∀ commands, ∀ p ∈ Emitter.session { functions, options } commands,
        ∃ stop, Reachable { functions, options } (fun _ => True) ⟨p.2, [], stop⟩ := by
  refine ⟨fun s hs => ?_, fun s hs => ?_, fun n e rest => ?_,
    fun commands => Reachable.session commands .start⟩
  · have hb := hs.bounded
    exact ⟨hb.sameOptions, hb.depth, fun hlt => toNat_succ hlt⟩
  · have hdepth := hs.counted.1
    have hle := UInt32.le_iff_toNat_le.1 hs.bounded.depth
    exact ⟨hdepth, by omega⟩
  · exact ⟨n.performs_emit.emit.steps e rest, n.performs_emit.emitApart.steps e rest⟩

/-- Inside a node that is written apart, through a reference, from inside another one. -/
theorem depth_of_two_scopes : ∃ s, Reachable {} (fun s => ¬ s.NodeResets) s
    ∧ s.tasks.head? = some (.run .writeDepth) ∧ s.openScopes = 2
    ∧ s.emitter.depth.toNat = s.openScopes ∧ s.openScopes ≤ ({} : Options).maxDepth.toNat := by
  have hcommand : Reachable {} (fun s => ¬ s.NodeResets) ⟨{}, _, none⟩ :=
    .command (.emit (.script [.emitApart (.shared (.script [.writeDepth]))])) .start
  have houter := hcommand.step (by rintro ⟨-, ⟨⟩, -⟩) rfl
  have hinner := houter.step (by rintro ⟨-, ⟨⟩, -⟩) rfl
  exact ⟨_, hinner, rfl, rfl, (depth_within_limit .empty {}).2.1 _ hinner⟩

end Machine

end ScriptWriter
