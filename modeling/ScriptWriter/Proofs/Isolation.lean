import ScriptWriter.Proofs.ExprText

/-!
# Nodes and the text before them

A node that clears no text and reads no length, unless in a node written apart, cannot tell what
was written before it: it ends the same way after any text and adds the same text to it, also when
it stops half-way (`appends_emit`). Below a node written apart everything is allowed, since it
starts from the empty text and leaves the emitter as it was (`snd_isolated`).

So a node can be written in place or apart with its text added afterwards: one that succeeds adds
the same text either way (`EndsAlike.apart`). If nothing goes on after a stop with a text that was
written half-way, this can be done at any choice of places at once (`endsAlike_setApart`).
-/

namespace ScriptWriter

open Emitter

/-! ## Operations of a node -/

mutual

/-- Every operation of the node meets the condition. Those in nodes that it writes apart are asked
only if `apart` says so. -/
def Node.every (p : Op → Bool) (apart : Bool) : Node → Bool
  | .expr _ => true
  | .shared node => node.every p apart
  | .script ops => Op.everyOf p apart ops

def Op.every (p : Op → Bool) (apart : Bool) : Op → Bool
  | .emit node => p (.emit node) && node.every p apart
  | .emitApart node => p (.emitApart node) && (!apart || node.every p apart)
  | .discard node => p (.discard node) && (!apart || node.every p apart)
  | .attempt node text => p (.attempt node text) && node.every p apart
  | .attemptApart node text => p (.attemptApart node text) && (!apart || node.every p apart)
  | .guarded node => p (.guarded node) && node.every p apart
  | op => p op

def Op.everyOf (p : Op → Bool) (apart : Bool) : List Op → Bool
  | [] => true
  | op :: rest => op.every p apart && Op.everyOf p apart rest

end

section Mono

variable {p q : Op → Bool}

mutual

theorem Node.every_mono (hpq : ∀ op, p op = true → q op = true) : ∀ {n : Node},
    n.every p true = true → n.every q false = true
  | .expr _, _ => rfl
  | .shared node, h => by
    rw [Node.every] at h ⊢
    exact Node.every_mono hpq h
  | .script ops, h => by
    rw [Node.every] at h ⊢
    exact Op.everyOf_mono hpq h

theorem Op.every_mono (hpq : ∀ op, p op = true → q op = true) : ∀ {op : Op},
    op.every p true = true → op.every q false = true
  | .emit node, h => by
    simp only [Op.every, Bool.and_eq_true] at h ⊢
    exact ⟨hpq _ h.1, Node.every_mono hpq h.2⟩
  | .attempt node text, h => by
    simp only [Op.every, Bool.and_eq_true] at h ⊢
    exact ⟨hpq _ h.1, Node.every_mono hpq h.2⟩
  | .guarded node, h => by
    simp only [Op.every, Bool.and_eq_true] at h ⊢
    exact ⟨hpq _ h.1, Node.every_mono hpq h.2⟩
  | .emitApart node, h => by
    simp only [Op.every, Bool.and_eq_true, Bool.not_false, Bool.true_or, and_true] at h ⊢
    exact hpq _ h.1
  | .discard node, h => by
    simp only [Op.every, Bool.and_eq_true, Bool.not_false, Bool.true_or, and_true] at h ⊢
    exact hpq _ h.1
  | .attemptApart node text, h => by
    simp only [Op.every, Bool.and_eq_true, Bool.not_false, Bool.true_or, and_true] at h ⊢
    exact hpq _ h.1
  | .write text, h | .writeString text, h | .writeLiteral value, h | .writeDescriptor function, h
  | .writeDepth, h | .writeLength, h | .reset, h | .fail message, h | .abort message, h => by
    simp only [Op.every] at h ⊢
    exact hpq _ h

theorem Op.everyOf_mono (hpq : ∀ op, p op = true → q op = true) : ∀ {ops : List Op},
    Op.everyOf p true ops = true → Op.everyOf q false ops = true
  | [], _ => rfl
  | op :: rest, h => by
    simp only [Op.everyOf, Bool.and_eq_true] at h ⊢
    exact ⟨Op.every_mono hpq h.1, Op.everyOf_mono hpq h.2⟩

end

end Mono

/-! ## Emissions that only add text -/

namespace Emitter

variable {α β : Type}

theorem fst_isolated (m : EmitM Unit) (e : Emitter) :
    (isolated m e).1 = (nested m { e with source := "" }).1.map
      fun _ => (nested m { e with source := "" }).2.source := rfl

/-- A scope of its own text leaves the emitter as it was. -/
theorem snd_isolated {m : EmitM Unit} (hm : Moves SameConfiguration m) (e : Emitter) :
    (isolated m e).2 = e := by
  obtain ⟨hf, ho⟩ := moves_isolated kept_sameConfiguration hm e
  have hs := source_isolated m e
  have hd := depth_isolated m e
  obtain ⟨functions, options, source, depth⟩ := e
  rcases hr : (isolated m ⟨functions, options, source, depth⟩).2 with ⟨f, o, s, d⟩
  simp only [hr] at hf ho hs hd
  rw [hf, ho, hs, hd]

/-- The emission ends the same way after any text and adds the same to it; nothing else changes. -/
def Appends (m : EmitM α) : Prop :=
  ∀ e : Emitter, ∃ result text, ∀ s,
    m { e with source := s } = (result, { e with source := s ++ text })

namespace Appends

theorem of_eq {m : EmitM α} (result : Emitter → Except Stop α) (text : Emitter → String)
    (h : ∀ (e : Emitter) s, m { e with source := s }
      = (result e, { e with source := s ++ text e })) : Appends m :=
  fun e => ⟨result e, text e, h e⟩

theorem pure (a : α) : Appends (pure a : EmitM α) :=
  of_eq (fun _ => .ok a) (fun _ => "") fun _ _ => by rw [String.append_empty]; rfl

theorem throw (stop : Stop) : Appends (throw stop : EmitM α) :=
  of_eq (fun _ => .error stop) (fun _ => "") fun _ _ => by rw [String.append_empty]; rfl

theorem write (text : String) : Appends (write text) :=
  of_eq (fun _ => .ok ()) (fun _ => text) fun _ _ => rfl

theorem writeString (text : String) : Appends (writeString text) :=
  of_eq (fun _ => .ok ()) (fun e => Literal.quoted e.options text) fun _ _ => rfl

theorem writeLiteral (v : Value) : Appends (writeLiteral v) :=
  of_eq (fun _ => .ok ()) (fun e => Literal.render e.options v) fun _ _ => by
    rw [writeLiteral_apply, Literal.append_eq_append_render]

theorem descriptorOf (name : String) : Appends (descriptorOf name) := by
  intro e
  rcases hd : e.functions.get? name with _ | d
  · refine ⟨.error (.error (.unknownFunction name)), "", fun s => ?_⟩
    simp only [descriptorOf_apply, hd, String.append_empty]
  · refine ⟨.ok d, "", fun s => ?_⟩
    simp only [descriptorOf_apply, hd, String.append_empty]

theorem bind {m : EmitM α} {f : α → EmitM β} (hm : Appends m) (hf : ∀ a, Appends (f a)) :
    Appends (m >>= f) := by
  intro e
  obtain ⟨result, text, h⟩ := hm e
  rcases result with stop | a
  · exact ⟨.error stop, text, fun s => by rw [bind_apply, h]⟩
  · obtain ⟨result', text', h'⟩ := hf a e
    refine ⟨result', text ++ text', fun s => ?_⟩
    rw [bind_apply, h]
    simp only []
    rw [h', String.append_assoc]

theorem tryCatch {m : EmitM α} {handler : Stop → EmitM α} (hm : Appends m)
    (hh : ∀ stop, Appends (handler stop)) : Appends (tryCatch m handler) := by
  intro e
  obtain ⟨result, text, h⟩ := hm e
  rcases result with stop | a
  · -- what was written before the stop stays in front of what the handler adds
    obtain ⟨result', text', h'⟩ := hh stop e
    refine ⟨result', text ++ text', fun s => ?_⟩
    rw [tryCatch_apply, h]
    simp only []
    rw [h', String.append_assoc]
  · exact ⟨.ok a, text, fun s => by rw [tryCatch_apply, h]⟩

theorem onError {m : EmitM α} {handler : EmissionError → EmitM α} (hm : Appends m)
    (hh : ∀ err, Appends (handler err)) : Appends (onError m handler) := by
  refine hm.tryCatch fun stop => ?_
  cases stop with
  | error err => exact hh err
  | abort message => exact .throw _

theorem onAbort {m : EmitM α} {handler : String → EmitM α} (hm : Appends m)
    (hh : ∀ message, Appends (handler message)) : Appends (onAbort m handler) := by
  refine hm.tryCatch fun stop => ?_
  cases stop with
  | error err => exact .throw _
  | abort message => exact hh message

theorem nested {m : EmitM Unit} (hm : Appends m) : Appends (nested m) := by
  intro e
  rcases UInt32.lt_or_le e.depth e.options.maxDepth with hd | hd
  · obtain ⟨result, text, h⟩ := hm { e with depth := e.depth + 1 }
    refine ⟨result, text, fun s => ?_⟩
    rw [nested_of_lt (e := { e with source := s }) hd, h]
  · refine ⟨.error (.error (.tooDeep e.options.maxDepth)), "", fun s => ?_⟩
    rw [nested_of_le (e := { e with source := s }) hd, String.append_empty]

/-- The emission in an isolated scope may do what it likes to the text. -/
theorem isolated {m : EmitM Unit} (hm : Moves SameConfiguration m) : Appends (isolated m) := by
  intro e
  refine ⟨(Emitter.isolated m e).1, "", fun s => ?_⟩
  rw [String.append_empty]
  exact Prod.ext rfl (snd_isolated hm { e with source := s })

end Appends

end Emitter

/-! ## The text before a node -/

/-- The operation neither clears the text nor reads its length. -/
def Op.ignoresText : Op → Bool
  | .reset => false
  | .writeLength => false
  | _ => true

theorem Expr.appends_emit (x : Expr) : Appends x.emit := by
  intro e
  obtain ⟨written, -, -, -, h⟩ := writes_emit e x fun c _ => nodeWrites c
  exact ⟨_, written, h⟩

mutual

theorem Node.appends_emit : ∀ {n : Node}, n.every Op.ignoresText false = true → Appends n.emit
  | .expr x, _ => by
    rw [Node.emit]
    exact x.appends_emit
  | .shared node, h => by
    rw [Node.every] at h
    rw [Node.emit]
    exact Node.appends_emit h
  | .script ops, h => by
    rw [Node.every] at h
    rw [Node.emit]
    exact Op.appends_runAll h

theorem Op.appends_run : ∀ {op : Op}, op.every Op.ignoresText false = true → Appends op.run
  | .write text, _ => by
    rw [Op.run]
    exact .write text
  | .writeString text, _ => by
    rw [Op.run]
    exact .writeString text
  | .writeLiteral value, _ => by
    rw [Op.run]
    exact .writeLiteral value
  | .writeDescriptor function, _ => by
    rw [Op.run]
    exact (Appends.descriptorOf function).bind fun _ => .write _
  | .writeDepth, _ => by
    rw [Op.run]
    exact .of_eq (fun _ => .ok ()) (fun e => intText e.depth.toNat) fun _ _ => rfl
  | .writeLength, h => by simp [Op.every, Op.ignoresText] at h
  | .emit node, h => by
    simp only [Op.every, Bool.and_eq_true] at h
    rw [Op.run]
    exact (Node.appends_emit h.2).nested
  | .emitApart node, _ => by
    rw [Op.run]
    exact (Appends.isolated (node.moves_emit kept_sameConfiguration)).bind fun _ => .write _
  | .discard node, _ => by
    rw [Op.run]
    exact (Appends.isolated (node.moves_emit kept_sameConfiguration)).bind fun _ => .pure ()
  | .attempt node text, h => by
    simp only [Op.every, Bool.and_eq_true] at h
    rw [Op.run]
    exact (Node.appends_emit h.2).nested.onError fun _ => .write text
  | .attemptApart node text, _ => by
    rw [Op.run]
    exact ((Appends.isolated (node.moves_emit kept_sameConfiguration)).onError
      fun _ => .pure text).bind fun _ => .write _
  | .guarded node, h => by
    simp only [Op.every, Bool.and_eq_true] at h
    rw [Op.run]
    exact (Node.appends_emit h.2).nested.onAbort fun _ => .write _
  | .reset, h => by simp [Op.every, Op.ignoresText] at h
  | .fail message, _ => by
    rw [Op.run]
    exact .throw _
  | .abort message, _ => by
    rw [Op.run]
    exact .throw _

theorem Op.appends_runAll : ∀ {ops : List Op}, Op.everyOf Op.ignoresText false ops = true →
    Appends (Op.runAll ops)
  | [], _ => by
    rw [Op.runAll]
    exact .pure ()
  | op :: rest, h => by
    simp only [Op.everyOf, Bool.and_eq_true] at h
    rw [Op.runAll]
    exact (Op.appends_run h.1).bind fun _ => Op.appends_runAll h.2

end

/-- Two emitters that differ in their text only: a node that clears no text and reads no length,
unless in a node written apart, ends the same way on both and adds the same text to theirs. -/
theorem Node.same_text_after_any (n : Node) (h : n.every Op.ignoresText false = true)
    (e e' : Emitter) (hf : e.functions = e'.functions) (ho : e.options = e'.options)
    (hd : e.depth = e'.depth) : (nested n.emit e').1 = (nested n.emit e).1 ∧
      ∃ t, (nested n.emit e).2 = { e with source := e.source ++ t }
        ∧ (nested n.emit e').2 = { e' with source := e'.source ++ t } := by
  obtain ⟨functions, options, source, depth⟩ := e
  obtain ⟨functions', options', source', depth'⟩ := e'
  subst hf ho hd
  obtain ⟨result, t, hrun⟩ := (Node.appends_emit h).nested ⟨functions, options, source, depth⟩
  have hs := hrun source
  have hs' := hrun source'
  exact ⟨by rw [hs, hs'], t, by rw [hs], by rw [hs']⟩

/-- A text that is cleared apart, an error and an abort that are handled in place after some text,
and an abort at the end. -/
def Node.scattered : Node :=
  .script [.write "a", .emitApart (.script [.write "x", .writeLength, .reset, .write "b"]),
    .attempt (.script [.write "c", .fail "no"]) "d", .guarded (.script [.write "e", .abort "f"]),
    .writeDepth, .abort "g"]

theorem Node.scattered_same_text : scattered.every Op.ignoresText false = true ∧
    (nested scattered.emit { source := "before" }).1 = (nested scattered.emit {}).1 ∧
      ∃ t, (nested scattered.emit {}).2 = { source := "" ++ t }
        ∧ (nested scattered.emit { source := "before" }).2 = { source := "before" ++ t } :=
  ⟨by decide, scattered.same_text_after_any (by decide) {} { source := "before" } rfl rfl rfl⟩

/-! ## In place or apart -/

namespace Emitter

variable {α β : Type}

/-- From every emitter the two emissions do the same, or both stop and for the same reason. -/
def EndsAlike (m m' : EmitM α) : Prop :=
  ∀ e, m' e = m e ∨ ∃ stop, (m e).1 = .error stop ∧ (m' e).1 = .error stop

namespace EndsAlike

theorem refl (m : EmitM α) : EndsAlike m m := fun _ => Or.inl rfl

theorem bind {m m' : EmitM α} {f f' : α → EmitM β} (hm : EndsAlike m m')
    (hf : ∀ a, EndsAlike (f a) (f' a)) : EndsAlike (m >>= f) (m' >>= f') := by
  intro e
  rw [bind_apply, bind_apply]
  rcases hm e with h | ⟨stop, h, h'⟩
  · rw [h]
    rcases m e with ⟨stop | a, e₁⟩
    · exact Or.inl rfl
    · exact hf a e₁
  · refine Or.inr ⟨stop, ?_⟩
    rcases hr : m e with ⟨r, e₁⟩
    rcases hr' : m' e with ⟨r', e₁'⟩
    rw [hr] at h
    rw [hr'] at h'
    subst h h'
    exact ⟨rfl, rfl⟩

theorem nested {m m' : EmitM Unit} (hm : EndsAlike m m') :
    EndsAlike (nested m) (nested m') := by
  intro e
  rcases UInt32.lt_or_le e.depth e.options.maxDepth with hd | hd
  · rw [nested_of_lt hd, nested_of_lt hd]
    rcases hm { e with depth := e.depth + 1 } with h | ⟨stop, h, h'⟩
    · exact Or.inl (by rw [h])
    · exact Or.inr ⟨stop, h, h'⟩
  · rw [nested_of_le hd, nested_of_le hd]
    exact Or.inl rfl

/-- Written apart they are the same: what was written before a stop is dropped. -/
theorem isolated_eq {m m' : EmitM Unit} (hm : EndsAlike m m') (hc : Moves SameConfiguration m)
    (hc' : Moves SameConfiguration m') : isolated m' = isolated m := by
  funext e
  refine Prod.ext ?_ ((snd_isolated hc' e).trans (snd_isolated hc e).symm)
  rw [fst_isolated, fst_isolated]
  rcases hm.nested { e with source := "" } with h | ⟨stop, h, h'⟩
  · rw [h]
  · rw [h, h']
    rfl

/-- An emission that only adds text may as well be written apart and its text added then. -/
theorem apart {m : EmitM Unit} (hm : Appends m) (hc : Moves SameConfiguration m) :
    EndsAlike (Emitter.nested m) (isolated m >>= write) := by
  intro e
  obtain ⟨result, text, h⟩ := hm.nested e
  have hin : Emitter.nested m e = (result, { e with source := e.source ++ text }) := h e.source
  have hout : isolated m e = (result.map fun _ => text, e) := by
    refine Prod.ext ?_ (snd_isolated hc e)
    rw [fst_isolated, h "", String.empty_append]
  rw [bind_apply, hin, hout]
  rcases result with stop | u
  · exact Or.inr ⟨stop, rfl, rfl⟩
  · exact Or.inl rfl

end EndsAlike

end Emitter

mutual

/-- The node with chosen operations writing their nodes apart instead of in place. An operation is
found by its place in its script, after the places of the operations around it. -/
def Node.setApart (chosen : List Nat → Bool) : Node → Node
  | .expr x => .expr x
  | .shared node => .shared (node.setApart chosen)
  | .script ops => .script (Op.setApartFrom chosen 0 ops)

def Op.setApart (chosen : List Nat → Bool) : Op → Op
  | .emit node =>
    if chosen [] then .emitApart (node.setApart chosen) else .emit (node.setApart chosen)
  | .emitApart node => .emitApart (node.setApart chosen)
  | .discard node => .discard (node.setApart chosen)
  | .attempt node text => .attempt (node.setApart chosen) text
  | .attemptApart node text => .attemptApart (node.setApart chosen) text
  | .guarded node => .guarded (node.setApart chosen)
  | op => op

def Op.setApartFrom (chosen : List Nat → Bool) (place : Nat) : List Op → List Op
  | [] => []
  | op :: rest =>
    op.setApart (fun path => chosen (place :: path)) :: Op.setApartFrom chosen (place + 1) rest

end

/-- The operation ignores the text and does not go on from a text that was left half-way. -/
def Op.keepsNoRemains : Op → Bool
  | .attempt _ _ => false
  | .guarded _ => false
  | op => op.ignoresText

theorem Op.ignoresText_of_keepsNoRemains (op : Op) (h : op.keepsNoRemains = true) :
    op.ignoresText = true := by
  cases op <;> simp_all [keepsNoRemains, ignoresText]

theorem Node.isolated_setApart {n : Node} {chosen : List Nat → Bool}
    (h : EndsAlike n.emit (n.setApart chosen).emit) :
    isolated (n.setApart chosen).emit = isolated n.emit :=
  h.isolated_eq (n.moves_emit kept_sameConfiguration)
    ((n.setApart chosen).moves_emit kept_sameConfiguration)

mutual

theorem Node.endsAlike_setApart : ∀ {n : Node} (chosen : List Nat → Bool),
    n.every Op.keepsNoRemains true = true → EndsAlike n.emit (n.setApart chosen).emit
  | .expr x, _, _ => by
    rw [Node.setApart]
    exact .refl _
  | .shared node, chosen, h => by
    rw [Node.every] at h
    rw [Node.setApart, Node.emit, Node.emit]
    exact Node.endsAlike_setApart chosen h
  | .script ops, chosen, h => by
    rw [Node.every] at h
    rw [Node.setApart, Node.emit, Node.emit]
    exact Op.endsAlike_setApartFrom chosen 0 h

theorem Op.endsAlike_setApart : ∀ {op : Op} (chosen : List Nat → Bool),
    op.every Op.keepsNoRemains true = true → EndsAlike op.run (op.setApart chosen).run
  | .emit node, chosen, h => by
    simp only [Op.every, Bool.and_eq_true] at h
    have ih := Node.endsAlike_setApart chosen h.2
    rw [Op.setApart]
    split
    · -- set apart: the other node is the same apart, and this one does not see the text before
      have happends := Node.appends_emit (Node.every_mono Op.ignoresText_of_keepsNoRemains h.2)
      rw [Op.run, Op.run, Node.isolated_setApart ih]
      exact .apart happends (node.moves_emit kept_sameConfiguration)
    · rw [Op.run, Op.run]
      exact ih.nested
  | .emitApart node, chosen, h => by
    simp only [Op.every, Bool.and_eq_true, Bool.not_true, Bool.false_or] at h
    rw [Op.setApart, Op.run, Op.run, Node.isolated_setApart (Node.endsAlike_setApart chosen h.2)]
    exact .refl _
  | .discard node, chosen, h => by
    simp only [Op.every, Bool.and_eq_true, Bool.not_true, Bool.false_or] at h
    rw [Op.setApart, Op.run, Op.run, Node.isolated_setApart (Node.endsAlike_setApart chosen h.2)]
    exact .refl _
  | .attemptApart node text, chosen, h => by
    simp only [Op.every, Bool.and_eq_true, Bool.not_true, Bool.false_or] at h
    rw [Op.setApart, Op.run, Op.run, Node.isolated_setApart (Node.endsAlike_setApart chosen h.2)]
    exact .refl _
  | .attempt node text, _, h => by simp [Op.every, Op.keepsNoRemains] at h
  | .guarded node, _, h => by simp [Op.every, Op.keepsNoRemains] at h
  | .write text, _, _ | .writeString text, _, _ | .writeLiteral value, _, _
  | .writeDescriptor function, _, _ | .writeDepth, _, _ | .writeLength, _, _ | .reset, _, _
  | .fail message, _, _ | .abort message, _, _ => by
    rw [Op.setApart]
    · exact .refl _
    all_goals simp

theorem Op.endsAlike_setApartFrom : ∀ {ops : List Op} (chosen : List Nat → Bool) (place : Nat),
    Op.everyOf Op.keepsNoRemains true ops = true →
      EndsAlike (Op.runAll ops) (Op.runAll (Op.setApartFrom chosen place ops))
  | [], _, _, _ => by
    rw [Op.setApartFrom]
    exact .refl _
  | op :: rest, chosen, place, h => by
    simp only [Op.everyOf, Bool.and_eq_true] at h
    rw [Op.setApartFrom, Op.runAll, Op.runAll]
    exact (Op.endsAlike_setApart _ h.1).bind fun _ =>
      Op.endsAlike_setApartFrom chosen (place + 1) h.2

end

/-- In a node that clears no text, reads no length and handles no stop in place, any choice of
operations may write apart what they write in place: the node ends the same way, and with the same
emitter if it succeeds. -/
theorem Node.setApart_same_outcome (n : Node) (h : n.every Op.keepsNoRemains true = true)
    (chosen : List Nat → Bool) (e : Emitter) :
    (nested (n.setApart chosen).emit e).1 = (nested n.emit e).1
      ∧ ((nested n.emit e).1 = .ok () →
        (nested (n.setApart chosen).emit e).2 = (nested n.emit e).2)
      ∧ isolated (n.setApart chosen).emit e = isolated n.emit e := by
  have halike := Node.endsAlike_setApart chosen h
  refine ⟨?_, fun hok => ?_, by rw [Node.isolated_setApart halike]⟩
  · rcases halike.nested e with heq | ⟨stop, hs, hs'⟩
    · rw [heq]
    · rw [hs, hs']
  · rcases halike.nested e with heq | ⟨stop, hs, hs'⟩
    · rw [heq]
    · rw [hs] at hok
      cases hok

/-- Nodes in place, one of them in a node that fails and is replaced. -/
def Node.layered : Node :=
  .script [.emit (.script [.write "a", .emit (.expr (.name "x")), .writeDepth]),
    .attemptApart (.script [.write "b", .emit (.script [.write "c", .fail "no"])]) "d",
    .emit (.shared (.script [.write "e"]))]

theorem Node.layered_same_outcome :
    layered.every Op.keepsNoRemains true = true ∧ (nested layered.emit {}).1 = .ok ()
      ∧ (nested (layered.setApart fun path => path.length == 2).emit {}).1 = .ok ()
      ∧ (nested (layered.setApart fun path => path.length == 2).emit {}).2
        = (nested layered.emit {}).2 := by
  have hok : (nested layered.emit {}).1 = .ok () := by
    have hdone : (nested layered.emit {}).1.toBool = true := by decide +kernel
    generalize (nested layered.emit {}).1 = result at hdone ⊢
    cases result with
    | ok _ => rfl
    | error stop => cases hdone
  obtain ⟨hresult, hemitter, -⟩ :=
    layered.setApart_same_outcome (by decide) (fun path => path.length == 2) {}
  exact ⟨by decide, hok, hresult.trans hok, hemitter hok⟩

end ScriptWriter
