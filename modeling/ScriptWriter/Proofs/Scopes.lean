import ScriptWriter.Node

/-!
# What a node leaves behind

An emission changes its emitter only by new text, by a reset and by scopes, so a relation that
these keep and that composes holds between the emitter before and after any node (`moves_emit`),
whether the node ends with a result, an error or an abort.

No step touches the functions and the options. A scope puts the depth back and an isolated one the
text as well, also over a reset inside it, so a node written apart leaves the emitter as it found
it and a node written in place changes its text only (`scopes_restore`).
-/

namespace ScriptWriter

namespace Emitter

variable {α β : Type}

/-! ## How emissions run -/

theorem bind_apply (m : EmitM α) (f : α → EmitM β) (e : Emitter) :
    (m >>= f) e = match m e with
      | (.ok a, e') => f a e'
      | (.error s, e') => (.error s, e') := by
  change (m e >>= fun r => ExceptT.bindCont f r.1 r.2 : Id _) = _
  rcases m e with ⟨_ | a, e'⟩ <;> rfl

theorem get_apply (e : Emitter) : (get : EmitM Emitter) e = (.ok e, e) := rfl

theorem writeString_apply (text : String) (e : Emitter) :
    writeString text e = (.ok (), { e with source := e.source ++ Literal.quoted e.options text }) :=
  rfl

theorem writeLiteral_apply (v : Value) (e : Emitter) :
    writeLiteral v e = (.ok (), { e with source := Literal.append e.options e.source v }) := rfl

theorem descriptorOf_apply (name : String) (e : Emitter) :
    descriptorOf name e = match e.functions.get? name with
      | some d => (.ok d, e)
      | none => (.error (.error (.unknownFunction name)), e) := by
  unfold descriptorOf
  rw [bind_apply, get_apply]
  simp only []
  rcases e.functions.get? name with _ | d <;> rfl

theorem nested_of_le {node : EmitM Unit} {e : Emitter} (h : e.options.maxDepth ≤ e.depth) :
    nested node e = (.error (.error (.tooDeep e.options.maxDepth)), e) := by
  unfold nested
  rw [if_pos h]

theorem nested_of_lt {node : EmitM Unit} {e : Emitter} (h : e.depth < e.options.maxDepth) :
    nested node e = ((node { e with depth := e.depth + 1 }).1,
      { (node { e with depth := e.depth + 1 }).2 with depth := e.depth }) := by
  unfold nested
  rw [if_neg (UInt32.not_le.2 h)]
  rfl

theorem tryCatch_apply (m : EmitM α) (handler : Stop → EmitM α) (e : Emitter) :
    tryCatch m handler e = match m e with
      | (.ok a, e') => (.ok a, e')
      | (.error s, e') => handler s e' := by
  change ExceptT.tryCatch m handler e = _
  simp only [ExceptT.tryCatch, ExceptT.mk, bind, StateT.bind]
  rcases m e with ⟨_ | a, e'⟩ <;> rfl

theorem eq_ok_of_isOk {result : Except Stop Unit} (h : result.isOk = true) : result = .ok () := by
  cases result with
  | ok _ => rfl
  | error _ => cases h

/-! ## Relations that every emission keeps -/

/-- A relation between the emitter before and after that composes and is kept by new text, by a
reset and by a scope that puts the depth back. -/
structure Kept (R : Emitter → Emitter → Prop) : Prop where
  refl : ∀ e, R e e
  trans : ∀ {e₁ e₂ e₃}, R e₁ e₂ → R e₂ e₃ → R e₁ e₃
  text : ∀ e s, R e { e with source := s }
  reset : ∀ e, R e { e with depth := 0 }
  scope : ∀ {e e'}, e.depth < e.options.maxDepth → R { e with depth := e.depth + 1 } e' →
    R e { e' with depth := e.depth }

/-- The emission takes every emitter along the relation, however it ends. -/
def Moves (R : Emitter → Emitter → Prop) (m : EmitM α) : Prop := ∀ e, R e (m e).2

section Moves

variable {R : Emitter → Emitter → Prop} (hR : Kept R)

include hR

theorem moves_pure (a : α) : Moves R (pure a : EmitM α) := fun e => hR.refl e

theorem moves_get : Moves R (get : EmitM Emitter) := fun e => hR.refl e

theorem moves_throw (s : Stop) : Moves R (throw s : EmitM α) := fun e => hR.refl e

theorem moves_bind {m : EmitM α} {f : α → EmitM β} (hm : Moves R m) (hf : ∀ a, Moves R (f a)) :
    Moves R (m >>= f) := by
  intro e
  have he := hm e
  rw [bind_apply]
  rcases hr : m e with ⟨s | a, e'⟩ <;> rw [hr] at he
  · exact he
  · exact hR.trans he (hf a e')

theorem moves_tryCatch {m : EmitM α} {handler : Stop → EmitM α} (hm : Moves R m)
    (hh : ∀ s, Moves R (handler s)) : Moves R (tryCatch m handler) := by
  intro e
  have he := hm e
  rw [tryCatch_apply]
  rcases hr : m e with ⟨s | a, e'⟩ <;> rw [hr] at he
  · exact hR.trans he (hh s e')
  · exact he

theorem moves_write (text : String) : Moves R (write text) := fun e => hR.text e _

theorem moves_writeString (text : String) : Moves R (writeString text) := fun e => hR.text e _

theorem moves_writeLiteral (v : Value) : Moves R (writeLiteral v) := fun e => hR.text e _

theorem moves_reset : Moves R reset :=
  fun e => hR.trans (hR.text e "") (hR.reset { e with source := "" })

theorem moves_descriptorOf (name : String) : Moves R (descriptorOf name) := by
  intro e
  rw [descriptorOf_apply]
  split <;> exact hR.refl e

theorem moves_nested {m : EmitM Unit} (hm : Moves R m) : Moves R (nested m) := by
  intro e
  rcases UInt32.lt_or_le e.depth e.options.maxDepth with h | h
  · rw [nested_of_lt h]
    exact hR.scope h (hm _)
  · rw [nested_of_le h]
    exact hR.refl e

theorem moves_isolated {m : EmitM Unit} (hm : Moves R m) : Moves R (isolated m) := by
  intro e
  have hn : R { e with source := "" } (nested m { e with source := "" }).2 :=
    moves_nested hR hm _
  -- the depth is back already when the scope around the text ends
  have hd : (nested m { e with source := "" }).2.depth = e.depth := depth_nested m _
  have ht := hR.text (nested m { e with source := "" }).2 e.source
  rw [hd] at ht
  exact hR.trans (hR.text e "") (hR.trans hn ht)

theorem moves_onError {m : EmitM α} {handler : EmissionError → EmitM α} (hm : Moves R m)
    (hh : ∀ e, Moves R (handler e)) : Moves R (onError m handler) := by
  refine moves_tryCatch hR hm fun s => ?_
  cases s with
  | error err => exact hh err
  | abort message => exact moves_throw hR _

theorem moves_onAbort {m : EmitM α} {handler : String → EmitM α} (hm : Moves R m)
    (hh : ∀ message, Moves R (handler message)) : Moves R (onAbort m handler) := by
  refine moves_tryCatch hR hm fun s => ?_
  cases s with
  | error err => exact moves_throw hR _
  | abort message => exact hh message

end Moves

end Emitter

open Emitter

/-! ## Properties that every expression's emission has -/

/-- A property of emissions that the steps of an expression have and that composes. -/
structure Emitter.Composes (P : ∀ {α : Type}, EmitM α → Prop) : Prop where
  pure : ∀ {α : Type} (a : α), P (pure a)
  bind : ∀ {α β : Type} {m : EmitM α} {f : α → EmitM β}, P m → (∀ a, P (f a)) → P (m >>= f)
  write : ∀ text, P (write text)
  writeString : ∀ text, P (writeString text)
  writeLiteral : ∀ v, P (writeLiteral v)
  descriptorOf : ∀ name, P (descriptorOf name)
  nested : ∀ {m : EmitM Unit}, P m → P (nested m)
  isolated : ∀ {m : EmitM Unit}, P m → P (isolated m)

namespace Expr

section Composes

variable {P : ∀ {α : Type}, EmitM α → Prop} (hP : Composes P)

include hP

theorem composes_emitProperty (property : String) : P (emitProperty property) := by
  unfold emitProperty
  split
  · exact hP.bind (hP.write _) fun _ => hP.write _
  · exact hP.bind (hP.write _) fun _ => hP.bind (hP.writeString _) fun _ => hP.write _

mutual

theorem composes_emit : ∀ x : Expr, P x.emit
  | .constant v => by
    unfold emit
    exact hP.writeLiteral v
  | .name text => by
    unfold emit
    exact hP.write text
  | .array items => by
    unfold emit
    exact hP.bind (composes_fragments items) fun _ => hP.write _
  | .object entries => by
    unfold emit
    exact hP.bind (hP.write _) fun _ =>
      hP.bind (composes_emitEntries entries "") fun _ => hP.write _
  | .unary operator operand => by
    unfold emit
    exact hP.bind (hP.write _) fun _ =>
      hP.bind (hP.nested (composes_emit operand)) fun _ => hP.write _
  | .binary left operator right => by
    unfold emit
    exact hP.bind (hP.write _) fun _ =>
      hP.bind (hP.nested (composes_emit left)) fun _ =>
      hP.bind (hP.write _) fun _ =>
      hP.bind (hP.nested (composes_emit right)) fun _ => hP.write _
  | .conditional test yes no => by
    unfold emit
    exact hP.bind (hP.write _) fun _ =>
      hP.bind (hP.nested (composes_emit test)) fun _ =>
      hP.bind (hP.write _) fun _ =>
      hP.bind (hP.nested (composes_emit yes)) fun _ =>
      hP.bind (hP.write _) fun _ =>
      hP.bind (hP.nested (composes_emit no)) fun _ => hP.write _
  | .member target property => by
    unfold emit
    exact hP.bind (hP.nested (composes_emit target)) fun _ => composes_emitProperty hP property
  | .index target key => by
    unfold emit
    exact hP.bind (hP.nested (composes_emit target)) fun _ =>
      hP.bind (hP.write _) fun _ =>
      hP.bind (hP.nested (composes_emit key)) fun _ => hP.write _
  | .call function arguments => by
    unfold emit
    exact hP.bind (hP.descriptorOf function) fun _ =>
      hP.bind (composes_fragments arguments) fun _ => hP.write _

theorem composes_fragments : ∀ items : List Expr, P (fragments items)
  | [] => by
    unfold fragments
    exact hP.pure []
  | x :: rest => by
    unfold fragments
    exact hP.bind (hP.isolated (composes_emit x)) fun _ =>
      hP.bind (composes_fragments rest) fun _ => hP.pure _

theorem composes_emitEntries :
    ∀ (entries : List (String × Expr)) (separator : String), P (emitEntries entries separator)
  | [], _ => by
    unfold emitEntries
    exact hP.pure ()
  | (key, x) :: rest, separator => by
    unfold emitEntries
    exact hP.bind (hP.write _) fun _ =>
      hP.bind (hP.writeString _) fun _ =>
      hP.bind (hP.write _) fun _ =>
      hP.bind (hP.nested (composes_emit x)) fun _ => composes_emitEntries rest ", "

end

end Composes

end Expr

section Emit

variable {R : Emitter → Emitter → Prop} (hR : Kept R)

include hR

theorem Emitter.composes_moves : Composes (Moves R) where
  pure := moves_pure hR
  bind := moves_bind hR
  write := moves_write hR
  writeString := moves_writeString hR
  writeLiteral := moves_writeLiteral hR
  descriptorOf := moves_descriptorOf hR
  nested := moves_nested hR
  isolated := moves_isolated hR

mutual

theorem Node.moves_emit : ∀ n : Node, Moves R n.emit
  | .expr e => by
    unfold Node.emit
    exact e.composes_emit (composes_moves hR)
  | .shared node => by
    unfold Node.emit
    exact Node.moves_emit node
  | .script ops => by
    unfold Node.emit
    exact Op.moves_runAll ops

theorem Op.moves_run : ∀ op : Op, Moves R op.run
  | .write text => by
    unfold Op.run
    exact moves_write hR text
  | .writeString text => by
    unfold Op.run
    exact moves_writeString hR text
  | .writeLiteral value => by
    unfold Op.run
    exact moves_writeLiteral hR value
  | .writeDescriptor function => by
    unfold Op.run
    exact moves_bind hR (moves_descriptorOf hR function) fun _ => moves_write hR _
  | .writeDepth => by
    unfold Op.run
    exact moves_bind hR (moves_get hR) fun _ => moves_write hR _
  | .writeLength => by
    unfold Op.run
    exact moves_bind hR (moves_get hR) fun _ => moves_write hR _
  | .emit node => by
    unfold Op.run
    exact moves_nested hR (Node.moves_emit node)
  | .emitApart node => by
    unfold Op.run
    exact moves_bind hR (moves_isolated hR (Node.moves_emit node)) fun _ => moves_write hR _
  | .discard node => by
    unfold Op.run
    exact moves_bind hR (moves_isolated hR (Node.moves_emit node)) fun _ => moves_pure hR ()
  | .attempt node text => by
    unfold Op.run
    exact moves_onError hR (moves_nested hR (Node.moves_emit node)) fun _ => moves_write hR text
  | .attemptApart node text => by
    unfold Op.run
    exact moves_bind hR
      (moves_onError hR (moves_isolated hR (Node.moves_emit node)) fun _ => moves_pure hR text)
      fun _ => moves_write hR _
  | .guarded node => by
    unfold Op.run
    exact moves_onAbort hR (moves_nested hR (Node.moves_emit node)) fun _ => moves_write hR _
  | .reset => by
    unfold Op.run
    exact moves_reset hR
  | .fail message => by
    unfold Op.run
    exact moves_throw hR _
  | .abort message => by
    unfold Op.run
    exact moves_throw hR _

theorem Op.moves_runAll : ∀ ops : List Op, Moves R (Op.runAll ops)
  | [] => by
    unfold Op.runAll
    exact moves_pure hR ()
  | op :: rest => by
    unfold Op.runAll
    exact moves_bind hR (Op.moves_run op) fun _ => Op.moves_runAll rest

end

end Emit

/-! ## Functions, options and scopes -/

namespace Emitter

/-- The two emitters know the same functions and have the same options. -/
def SameConfiguration (e e' : Emitter) : Prop :=
  e'.functions = e.functions ∧ e'.options = e.options

theorem kept_sameConfiguration : Kept SameConfiguration where
  refl _ := ⟨rfl, rfl⟩
  trans h₁ h₂ := ⟨h₂.1.trans h₁.1, h₂.2.trans h₁.2⟩
  text _ _ := ⟨rfl, rfl⟩
  reset _ := ⟨rfl, rfl⟩
  scope _ h := h

/-- Whatever a node does and however it ends, written apart it leaves the whole emitter as it was,
and written in place it leaves the depth, the functions and the options as they were. -/
theorem scopes_restore (n : Node) (e : Emitter) :
    (isolated n.emit e).2 = e ∧ (nested n.emit e).2.depth = e.depth
      ∧ (nested n.emit e).2.functions = e.functions ∧ (nested n.emit e).2.options = e.options := by
  have hkept := kept_sameConfiguration
  have hmoves := moves_nested hkept (Node.moves_emit hkept n)
  obtain ⟨hf, ho⟩ := hmoves e
  obtain ⟨hf', ho'⟩ := hmoves { e with source := "" }
  refine ⟨?_, depth_nested n.emit e, hf, ho⟩
  -- the scope puts text and depth back itself, so only the other two fields come from the node
  change Emitter.mk (nested n.emit { e with source := "" }).2.functions
    (nested n.emit { e with source := "" }).2.options e.source e.depth = e
  rw [hf', ho']

end Emitter

end ScriptWriter
