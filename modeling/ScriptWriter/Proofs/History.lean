import ScriptWriter.Proofs.Scopes
import ScriptWriter.Session

/-!
# Sessions without a past

Between commands an emitter is at rest: no node is open, and it has the functions and the options it
started with. A command keeps it at rest whatever its node does and however that ends, also with a
reset or an abort inside of open scopes (`AtRest.execute`). So all that the commands before can
leave is text, and after a reset the emitter is the fresh one. Whatever follows gets the replies and
the texts that it gets from a fresh emitter (`reset_forgets_history`).
-/

namespace ScriptWriter.Emitter

/-! ## Commands one after another -/

/-- The emitter after the commands. -/
def executeAll (e : Emitter) : List Command → Emitter
  | [] => e
  | command :: rest => (e.execute command).2.executeAll rest

theorem session_cons (e : Emitter) (command : Command) (rest : List Command) :
    e.session (command :: rest) = e.execute command :: (e.execute command).2.session rest := rfl

theorem session_append : ∀ (e : Emitter) (before after : List Command),
    e.session (before ++ after) = e.session before ++ (e.executeAll before).session after
  | _, [], _ => rfl
  | e, command :: before, after => by
    rw [List.cons_append, session_cons, session_cons, executeAll, session_append _ before after,
      List.cons_append]

/-! ## What commands keep -/

/-- No node is open, and the functions and the options are the given ones. -/
structure AtRest (functions : FunctionTable) (options : Options) (e : Emitter) : Prop where
  sameFunctions : e.functions = functions
  sameOptions : e.options = options
  depth : e.depth = 0

namespace AtRest

variable {functions : FunctionTable} {options : Options} {e : Emitter}

theorem fresh (functions : FunctionTable) (options : Options) :
    AtRest functions options { functions, options } := ⟨rfl, rfl, rfl⟩

/-- A node changes neither functions nor options, and its scope puts the depth back. -/
theorem of_scope {e' : Emitter} (h : AtRest functions options e) (hsame : SameConfiguration e e')
    (hdepth : e'.depth = e.depth) : AtRest functions options e' :=
  ⟨hsame.1.trans h.sameFunctions, hsame.2.trans h.sameOptions, hdepth.trans h.depth⟩

theorem execute (h : AtRest functions options e) (command : Command) :
    AtRest functions options (e.execute command).2 := by
  have hkept := kept_sameConfiguration
  cases command with
  | write text => exact ⟨h.sameFunctions, h.sameOptions, h.depth⟩
  | writeString text => exact ⟨h.sameFunctions, h.sameOptions, h.depth⟩
  | writeLiteral value => exact ⟨h.sameFunctions, h.sameOptions, h.depth⟩
  | reset => exact ⟨h.sameFunctions, h.sameOptions, rfl⟩
  | emit node =>
    exact h.of_scope (moves_nested hkept (Node.moves_emit hkept node) e) (depth_nested _ e)
  | emitApart node =>
    exact h.of_scope (moves_isolated hkept (Node.moves_emit hkept node) e) (depth_isolated _ e)
  | emitCopy node => exact h
  | describe function => exact h
  | configuration => exact h

theorem executeAll : ∀ (commands : List Command) {e : Emitter}, AtRest functions options e →
    AtRest functions options (e.executeAll commands)
  | [], _, h => h
  | command :: rest, _, h => executeAll rest (h.execute command)

theorem session : ∀ (commands : List Command) {e : Emitter}, AtRest functions options e →
    ∀ p ∈ e.session commands, AtRest functions options p.2
  | [], _, _ => fun _ hp => absurd hp List.not_mem_nil
  | command :: rest, _, h =>
    List.forall_mem_cons.2 ⟨h.execute command, session rest (h.execute command)⟩

/-- Text is all that a reset has to clear. -/
theorem execute_reset (h : AtRest functions options e) :
    e.execute .reset = (.done, { functions, options }) := by
  obtain ⟨rfl, rfl, -⟩ := h
  rfl

end AtRest

/-- After every command of a session the depth is zero. After a reset, replies and emitters are
those of a fresh emitter, whatever the session was before. -/
theorem reset_forgets_history (functions : FunctionTable) (options : Options)
    (history later : List Command) :
    (∀ p ∈ session { functions, options } history, p.2.depth = 0)
      ∧ session { functions, options } (history ++ .reset :: later)
        = session { functions, options } history
          ++ (.done, { functions, options }) :: session { functions, options } later := by
  have hfresh := AtRest.fresh functions options
  refine ⟨fun p hp => (AtRest.session history hfresh p hp).depth, ?_⟩
  rw [session_append, session_cons, (AtRest.executeAll history hfresh).execute_reset]

end ScriptWriter.Emitter
