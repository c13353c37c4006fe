import ScriptWriter.Proofs.Isolation

/-!
# Nodes under a greater limit

The limit is looked at in one place only, where a scope opens a node, and there it can do nothing
but refuse. So an emission that the limit does not stop does the same under every greater limit
(`Outlasts`). A refusal is an error, which a guard lets through; a node that handles errors could
go on after it and show in its text that there was one, so those are left out (`outlasts_emit`).
-/

namespace ScriptWriter

namespace Emitter

variable {α β : Type}

/-- The emitter with another limit. -/
def withLimit (e : Emitter) (limit : UInt32) : Emitter :=
  { e with options := e.options.withMaxDepth limit }

/-- The emission was stopped by a limit. -/
def Refused (result : Except Stop α) : Prop := ∃ limit, result = .error (.error (.tooDeep limit))

/-- Unless the limit stops it, the emission does the same under any greater limit. -/
def Outlasts (m : EmitM α) : Prop :=
  ∀ (e : Emitter) (limit : UInt32), e.options.maxDepth ≤ limit → Refused (m e).1 ∨
    (m e).2.options.maxDepth ≤ limit ∧ m (e.withLimit limit) = ((m e).1, (m e).2.withLimit limit)

namespace Outlasts

/-- An emission that does not look at the limit. -/
theorem of_eq {m : EmitM α} (ho : ∀ e, (m e).2.options = e.options)
    (h : ∀ (e : Emitter) limit, m (e.withLimit limit) = ((m e).1, (m e).2.withLimit limit)) :
    Outlasts m :=
  fun e limit hle => Or.inr ⟨ho e ▸ hle, h e limit⟩

theorem pure (a : α) : Outlasts (pure a : EmitM α) := of_eq (fun _ => rfl) fun _ _ => rfl

theorem throw (stop : Stop) : Outlasts (throw stop : EmitM α) := of_eq (fun _ => rfl) fun _ _ => rfl

theorem write (text : String) : Outlasts (write text) := of_eq (fun _ => rfl) fun _ _ => rfl

theorem writeString (text : String) : Outlasts (writeString text) :=
  of_eq (fun _ => rfl) fun e limit => by
    rw [writeString_apply, writeString_apply, withLimit, Literal.quoted_withMaxDepth]
    rfl

theorem writeLiteral (v : Value) : Outlasts (writeLiteral v) :=
  of_eq (fun _ => rfl) fun e limit => by
    rw [writeLiteral_apply, writeLiteral_apply, withLimit, Literal.append_eq_append_render,
      Literal.append_eq_append_render, Literal.render_withMaxDepth]
    rfl

theorem reset : Outlasts reset := of_eq (fun _ => rfl) fun _ _ => rfl

theorem descriptorOf (name : String) : Outlasts (descriptorOf name) := by
  refine of_eq (fun e => ?_) fun e limit => ?_
  · rw [descriptorOf_apply]
    split <;> rfl
  · rw [descriptorOf_apply, descriptorOf_apply, withLimit]
    rcases e.functions.get? name with _ | d <;> rfl

theorem bind {m : EmitM α} {f : α → EmitM β} (hm : Outlasts m) (hf : ∀ a, Outlasts (f a)) :
    Outlasts (m >>= f) := by
  intro e limit hle
  rw [bind_apply, bind_apply]
  rcases hm e limit hle with ⟨l, hr⟩ | ⟨hle₁, heq⟩
  · rcases hrun : m e with ⟨r, e₁⟩
    rw [hrun] at hr
    subst hr
    exact Or.inl ⟨l, rfl⟩
  · rw [heq]
    rcases hrun : m e with ⟨stop | a, e₁⟩ <;> rw [hrun] at hle₁
    · exact Or.inr ⟨hle₁, rfl⟩
    · exact hf a e₁ limit hle₁

/-- A guard does not see a refusal, which is an error. -/
theorem onAbort {m : EmitM α} {handler : String → EmitM α} (hm : Outlasts m)
    (hh : ∀ message, Outlasts (handler message)) : Outlasts (onAbort m handler) := by
  intro e limit hle
  unfold Emitter.onAbort
  rw [tryCatch_apply, tryCatch_apply]
  rcases hm e limit hle with ⟨l, hr⟩ | ⟨hle₁, heq⟩
  · rcases hrun : m e with ⟨r, e₁⟩
    rw [hrun] at hr
    subst hr
    exact Or.inl ⟨l, rfl⟩
  · rw [heq]
    rcases hrun : m e with ⟨(err | message) | a, e₁⟩ <;> rw [hrun] at hle₁
    · exact Or.inr ⟨hle₁, rfl⟩
    · exact hh message e₁ limit hle₁
    · exact Or.inr ⟨hle₁, rfl⟩

theorem nested {m : EmitM Unit} (hm : Outlasts m) : Outlasts (nested m) := by
  intro e limit hle
  rcases UInt32.lt_or_le e.depth e.options.maxDepth with hd | hd
  · have hd' : (e.withLimit limit).depth < (e.withLimit limit).options.maxDepth :=
      UInt32.lt_of_lt_of_le hd hle
    rw [nested_of_lt hd, nested_of_lt hd']
    rcases hm { e with depth := e.depth + 1 } limit hle with hr | ⟨hle₁, heq⟩
    · exact Or.inl hr
    · refine Or.inr ⟨hle₁, ?_⟩
      change ((m ({ e with depth := e.depth + 1 }.withLimit limit)).1,
        { (m ({ e with depth := e.depth + 1 }.withLimit limit)).2 with depth := e.depth }) = _
      rw [heq]
      rfl
  · rw [nested_of_le hd]
    exact Or.inl ⟨e.options.maxDepth, rfl⟩

theorem isolated {m : EmitM Unit} (hm : Outlasts m) : Outlasts (isolated m) := by
  intro e limit hle
  rcases hm.nested { e with source := "" } limit hle with ⟨l, hr⟩ | ⟨hle₁, heq⟩
  · refine Or.inl ⟨l, ?_⟩
    rw [fst_isolated, hr]
    rfl
  · refine Or.inr ⟨hle₁, ?_⟩
    have hin : Emitter.nested m { e.withLimit limit with source := "" } = _ := heq
    unfold Emitter.isolated
    rw [hin]
    rfl

theorem composes : Composes @Outlasts where
  pure := pure
  bind := bind
  write := write
  writeString := writeString
  writeLiteral := writeLiteral
  descriptorOf := descriptorOf
  nested := nested
  isolated := isolated

end Outlasts

end Emitter

open Emitter

/-- The operation does not go on after an error. -/
def Op.handlesNoError : Op → Bool
  | .attempt _ _ => false
  | .attemptApart _ _ => false
  | _ => true

mutual

theorem Node.outlasts_emit : ∀ {n : Node}, n.every Op.handlesNoError true = true → Outlasts n.emit
  | .expr x, _ => by
    rw [Node.emit]
    exact x.composes_emit Outlasts.composes
  | .shared node, h => by
    rw [Node.every] at h
    rw [Node.emit]
    exact Node.outlasts_emit h
  | .script ops, h => by
    rw [Node.every] at h
    rw [Node.emit]
    exact Op.outlasts_runAll h

theorem Op.outlasts_run : ∀ {op : Op}, op.every Op.handlesNoError true = true → Outlasts op.run
  | .write text, _ => by
    rw [Op.run]
    exact .write text
  | .writeString text, _ => by
    rw [Op.run]
    exact .writeString text
  | .writeLiteral value, _ => by
    rw [Op.run]
    exact .writeLiteral value
  | .writeDescriptor function, _ => by
    rw [Op.run]
    exact (Outlasts.descriptorOf function).bind fun _ => .write _
  | .writeDepth, _ => by
    rw [Op.run]
    exact .of_eq (fun _ => rfl) fun _ _ => rfl
  | .writeLength, _ => by
    rw [Op.run]
    exact .of_eq (fun _ => rfl) fun _ _ => rfl
  | .emit node, h => by
    simp only [Op.every, Bool.and_eq_true] at h
    rw [Op.run]
    exact (Node.outlasts_emit h.2).nested
  | .emitApart node, h => by
    simp only [Op.every, Bool.and_eq_true, Bool.not_true, Bool.false_or] at h
    rw [Op.run]
    exact (Node.outlasts_emit h.2).isolated.bind fun _ => .write _
  | .discard node, h => by
    simp only [Op.every, Bool.and_eq_true, Bool.not_true, Bool.false_or] at h
    rw [Op.run]
    exact (Node.outlasts_emit h.2).isolated.bind fun _ => .pure ()
  | .attempt node text, h => by simp [Op.every, Op.handlesNoError] at h
  | .attemptApart node text, h => by simp [Op.every, Op.handlesNoError] at h
  | .guarded node, h => by
    simp only [Op.every, Bool.and_eq_true] at h
    rw [Op.run]
    exact (Node.outlasts_emit h.2).nested.onAbort fun _ => .write _
  | .reset, _ => by
    rw [Op.run]
    exact .reset
  | .fail message, _ => by
    rw [Op.run]
    exact .throw _
  | .abort message, _ => by
    rw [Op.run]
    exact .throw _

theorem Op.outlasts_runAll : ∀ {ops : List Op}, Op.everyOf Op.handlesNoError true ops = true →
    Outlasts (Op.runAll ops)
  | [], _ => by
    rw [Op.runAll]
    exact .pure ()
  | op :: rest, h => by
    simp only [Op.everyOf, Bool.and_eq_true] at h
    rw [Op.runAll]
    exact (Op.outlasts_run h.1).bind fun _ => Op.outlasts_runAll h.2

end

theorem Emitter.Outlasts.eq_of_ne {α : Type} {m : EmitM α} (hm : Outlasts m) {e : Emitter}
    {limit : UInt32} (hle : e.options.maxDepth ≤ limit)
    (h : ∀ l, (m e).1 ≠ .error (.error (.tooDeep l))) :
    m (e.withLimit limit) = ((m e).1, (m e).2.withLimit limit) := by
  rcases hm e limit hle with ⟨l, hr⟩ | ⟨-, heq⟩
  · exact absurd hr (h l)
  · exact heq

/-- A node that handles no errors and is not stopped by the limit ends the same way under every
greater limit, with the same text and depth, in place and apart. -/
theorem Node.same_outcome_under_greater_limit (n : Node)
    (h : n.every Op.handlesNoError true = true) (e : Emitter) (limit : UInt32)
    (hle : e.options.maxDepth ≤ limit) :
    ((∀ l, (nested n.emit e).1 ≠ .error (.error (.tooDeep l))) →
        nested n.emit (e.withLimit limit)
          = ((nested n.emit e).1, (nested n.emit e).2.withLimit limit))
      ∧ ((∀ l, (isolated n.emit e).1 ≠ .error (.error (.tooDeep l))) →
        isolated n.emit (e.withLimit limit)
          = ((isolated n.emit e).1, (isolated n.emit e).2.withLimit limit)) :=
  ⟨(Node.outlasts_emit h).nested.eq_of_ne hle, (Node.outlasts_emit h).isolated.eq_of_ne hle⟩

/-- A node that opens three levels, one of which aborts and is guarded, and forgets its depth in a
node written apart. -/
def Node.threeLevels : Node :=
  .script [.guarded (.script [.write "a", .emit (.expr (.name "x")), .abort "b"]),
    .discard (.script [.reset, .writeDepth]), .writeDepth, .writeLength]

theorem Node.threeLevels_same_outcome : threeLevels.every Op.handlesNoError true = true
    ∧ (3 : UInt32) ≤ 1000
    ∧ (nested threeLevels.emit { options := { maxDepth := 3 } }).1 = .ok ()
    ∧ nested threeLevels.emit { options := { maxDepth := 1000 } }
      = (.ok (), (nested threeLevels.emit { options := { maxDepth := 3 } }).2.withLimit 1000) := by
  have hrun : (nested threeLevels.emit { options := { maxDepth := 3 } }).1 = .ok () :=
    eq_ok_of_isOk (by decide +kernel)
  have hlimit : Emitter.withLimit { options := { maxDepth := 3 } } 1000
      = { options := { maxDepth := 1000 } } := rfl
  have heq := (threeLevels.same_outcome_under_greater_limit (by decide)
    { options := { maxDepth := 3 } } 1000 (by decide)).1 (by simp [hrun])
  rw [hrun, hlimit] at heq
  exact ⟨by decide, by decide, hrun, heq⟩

end ScriptWriter
