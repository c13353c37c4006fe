import ScriptWriter.Proofs.ExprText
import ScriptWriter.Proofs.Isolation

/-!
# What a failed emission leaves in the text

An emission that stops at an unknown function or at the limit has written something already. This
is a beginning of what the same expression writes wherever it succeeds, in any emitter that escapes
alike and keeps the functions, whatever functions it has besides and however much room it has
(`failed_emission_writes_beginning`). For this two runs are compared step by step: up to the first
fault they write the same, and after it one of them writes nothing (`Begins`). The text of an
expression in the emitter that fails would not do for the comparison, since it writes an unknown
function by its own name, where the other emitter may know another one.

The items of an array and the arguments of a call are written apart, so nothing of them is left.
-/

namespace ScriptWriter

namespace Emitter

variable {α β : Type}

/-- The other emitter escapes alike and has the same functions, perhaps among others. -/
structure ExtendedBy (e e' : Emitter) : Prop where
  escapeDollar : e'.options.escapeDollar = e.options.escapeDollar
  escapeLineTerminators : e'.options.escapeLineTerminators = e.options.escapeLineTerminators
  functions : ∀ name d, e.functions.get? name = some d → e'.functions.get? name = some d

/-- The emitter with more text. -/
def adding (e : Emitter) (text : String) : Emitter := { e with source := e.source ++ text }

theorem adding_empty (e : Emitter) : e.adding "" = e := by
  rw [adding, String.append_empty]

theorem adding_adding (e : Emitter) (s t : String) : (e.adding s).adding t = e.adding (s ++ t) := by
  rw [adding, adding, adding, String.append_assoc]

namespace ExtendedBy

variable {e e' : Emitter}

theorem options_eq (h : e.ExtendedBy e') :
    e'.options = e.options.withMaxDepth e'.options.maxDepth := by
  have hdollar := h.escapeDollar
  have hterminators := h.escapeLineTerminators
  rcases ho : e'.options with ⟨dollar, terminators, limit⟩
  rw [ho] at hdollar hterminators
  rw [Options.withMaxDepth, ← hdollar, ← hterminators]

theorem quoted_eq (h : e.ExtendedBy e') (text : String) :
    Literal.quoted e'.options text = Literal.quoted e.options text := by
  rw [h.options_eq, Literal.quoted_withMaxDepth]

theorem render_eq (h : e.ExtendedBy e') (v : Value) :
    Literal.render e'.options v = Literal.render e.options v := by
  rw [h.options_eq, Literal.render_withMaxDepth]

theorem adding (h : e.ExtendedBy e') (s t : String) : (e.adding s).ExtendedBy (e'.adding t) :=
  ⟨h.escapeDollar, h.escapeLineTerminators, h.functions⟩

end ExtendedBy

/-- Where the emission succeeds in an emitter that extends another one, it writes in this one a
beginning of what it writes there, and all of it, with the same result, if it succeeds here too. -/
def Begins (m : EmitM α) : Prop :=
  ∀ ⦃e e' : Emitter⦄ ⦃a' : α⦄, e.ExtendedBy e' → (m e').1 = .ok a' →
    ∃ written rest, (m e).2 = e.adding written ∧ (m e').2 = e'.adding (written ++ rest)
      ∧ ∀ a, (m e).1 = .ok a → a = a' ∧ rest = ""

namespace Begins

/-- An emission that writes the same and has the same result in both. -/
theorem of_same {m : EmitM α} (h : ∀ e e' : Emitter, e.ExtendedBy e' →
    ∃ a text, m e = (.ok a, e.adding text) ∧ m e' = (.ok a, e'.adding text)) : Begins m := by
  intro e e' a' hext hok
  obtain ⟨a, text, hm, hm'⟩ := h e e' hext
  rw [hm', Except.ok.injEq] at hok
  refine ⟨text, "", by rw [hm], by rw [hm', String.append_empty], fun b hb => ⟨?_, rfl⟩⟩
  rw [hm, Except.ok.injEq] at hb
  exact hb.symm.trans hok

theorem pure (a : α) : Begins (pure a : EmitM α) :=
  of_same fun e e' _ => ⟨a, "", by rw [adding_empty]; rfl, by rw [adding_empty]; rfl⟩

theorem write (text : String) : Begins (write text) :=
  of_same fun _ _ _ => ⟨(), text, rfl, rfl⟩

theorem writeString (text : String) : Begins (writeString text) :=
  of_same fun e e' h => ⟨(), Literal.quoted e.options text, writeString_apply text e, by
    rw [writeString_apply, h.quoted_eq]
    rfl⟩

theorem writeLiteral (v : Value) : Begins (writeLiteral v) :=
  of_same fun e e' h => ⟨(), Literal.render e.options v, by
    rw [writeLiteral_apply, Literal.append_eq_append_render]
    rfl, by
    rw [writeLiteral_apply, Literal.append_eq_append_render, h.render_eq]
    rfl⟩

/-- A function that is known here is known there as the same one. -/
theorem descriptorOf (name : String) : Begins (descriptorOf name) := by
  intro e e' d' hext hok
  rw [descriptorOf_apply] at hok
  rcases hd' : e'.functions.get? name with _ | d
  · simp [hd'] at hok
  · obtain rfl : d = d' := by simpa [hd'] using hok
    refine ⟨"", "", ?_, ?_, fun a ha => ⟨?_, rfl⟩⟩
    · rw [descriptorOf_apply, adding_empty]
      rcases e.functions.get? name with _ | _ <;> rfl
    · rw [descriptorOf_apply, hd', String.append_empty, adding_empty]
    · rw [descriptorOf_apply] at ha
      rcases hd : e.functions.get? name with _ | b
      · simp [hd] at ha
      · have hsame := hext.functions name b hd
        rw [hd'] at hsame
        simp only [hd, Except.ok.injEq, Option.some.injEq] at ha hsame
        exact ha.symm.trans hsame.symm

theorem bind {m : EmitM α} {f : α → EmitM β} (hm : Begins m) (hf : ∀ a, Begins (f a)) :
    Begins (m >>= f) := by
  intro e e' b' hext hok
  rw [bind_apply] at hok
  rcases hrun' : m e' with ⟨stop | a', e₁'⟩
  · simp [hrun'] at hok
  · simp only [hrun'] at hok
    have hfirst : (m e').1 = .ok a' := by rw [hrun']
    obtain ⟨w, r, hw, hw', hall⟩ := hm hext hfirst
    rw [hrun'] at hw'
    obtain rfl : e₁' = e'.adding (w ++ r) := hw'
    obtain ⟨v, s, hv, hv', hall'⟩ := hf a' (hext.adding w (w ++ r)) hok
    rw [bind_apply, bind_apply, hrun']
    rcases hrun : m e with ⟨stop | a, e₁⟩ <;> rw [hrun] at hw hall <;> obtain rfl : e₁ = _ := hw
    · -- the first run has stopped, so all the rest of the second one is missing in it
      refine ⟨w, r ++ (v ++ s), rfl, ?_, by simp⟩
      rw [hv', adding_adding, String.append_assoc]
    · obtain ⟨rfl, rfl⟩ := hall a rfl
      refine ⟨w ++ v, s, ?_, ?_, hall'⟩
      · rw [hv, adding_adding]
      · rw [hv', adding_adding, String.append_empty, String.append_assoc]

theorem nested {m : EmitM Unit} (hm : Begins m) : Begins (nested m) := by
  intro e e' a' hext hok
  rcases UInt32.lt_or_le e'.depth e'.options.maxDepth with hd' | hd'
  · rw [nested_of_lt hd'] at hok ⊢
    have hdeeper : ExtendedBy { e with depth := e.depth + 1 } { e' with depth := e'.depth + 1 } :=
      ⟨hext.escapeDollar, hext.escapeLineTerminators, hext.functions⟩
    obtain ⟨w, r, hw, hw', hall⟩ := hm hdeeper hok
    rcases UInt32.lt_or_le e.depth e.options.maxDepth with hd | hd
    · rw [nested_of_lt hd]
      exact ⟨w, r, by rw [hw]; rfl, by rw [hw']; rfl, hall⟩
    · rw [nested_of_le hd]
      exact ⟨"", w ++ r, (adding_empty e).symm, by rw [hw', String.empty_append]; rfl, by simp⟩
  · rw [nested_of_le hd'] at hok
    cases hok

theorem snd_isolated_of_adding {m : EmitM Unit} {e : Emitter} {text : String}
    (h : (Emitter.nested m { e with source := "" }).2
      = Emitter.adding { e with source := "" } text) : (isolated m e).2 = e := by
  unfold Emitter.isolated
  rcases hrun : Emitter.nested m { e with source := "" } with ⟨result, e₁⟩
  rw [hrun] at h
  obtain rfl : e₁ = _ := h
  rfl

/-- Neither run adds to its own text, and the fragments are the same if both are complete. -/
theorem isolated {m : EmitM Unit} (hm : Begins m) : Begins (isolated m) := by
  intro e e' a' hext hok
  have hfresh : ExtendedBy { e with source := "" } { e' with source := "" } :=
    ⟨hext.escapeDollar, hext.escapeLineTerminators, hext.functions⟩
  rw [fst_isolated] at hok
  rcases hrun' : Emitter.nested m { e' with source := "" } with ⟨stop | u', e₁'⟩
  · simp [hrun', Except.map] at hok
  · have hfull : (Emitter.nested m { e' with source := "" }).1 = .ok u' := by rw [hrun']
    obtain ⟨w, r, hw, hw', hall⟩ := hm.nested hfresh hfull
    rw [hrun'] at hw' hok
    obtain rfl : e₁' = _ := hw'
    refine ⟨"", "", ?_, ?_, fun a ha => ⟨?_, rfl⟩⟩
    · rw [snd_isolated_of_adding hw, adding_empty]
    · rw [snd_isolated_of_adding (by rw [hrun']), String.append_empty, adding_empty]
    · rw [fst_isolated] at ha
      rcases hrun : Emitter.nested m { e with source := "" } with ⟨stop | u, e₁⟩
      · simp [hrun, Except.map] at ha
      · rw [hrun] at hw hall ha
        obtain rfl : e₁ = _ := hw
        rw [(hall u rfl).2, String.append_empty] at hok
        exact Except.ok.inj (ha.symm.trans hok)

theorem composes : Composes @Begins where
  pure := pure
  bind := bind
  write := write
  writeString := writeString
  writeLiteral := writeLiteral
  descriptorOf := descriptorOf
  nested := nested
  isolated := isolated

end Begins

end Emitter

open Emitter

namespace Expr

theorem begins_nested_emit (x : Expr) : Begins (nested x.emit) :=
  (x.composes_emit Begins.composes).nested

/-! ## Lists leave nothing behind -/

theorem snd_fragments_of_error {items : List Expr} {join : List String → String} {e : Emitter}
    {stop : Stop} (h : ((fragments items >>= fun parts => write (join parts)) e).1 = .error stop) :
    ((fragments items >>= fun parts => write (join parts)) e).2 = e := by
  rw [bind_apply, fragments_eq e fun c _ => nodeWrites c] at h ⊢
  rcases hf : firstFault e.functions e.options.maxDepth e.depth.toNat items with _ | err
  · simp only [hf, outcome] at h
    cases h
  · rfl

theorem snd_emit_call_of_error {f : String} {arguments : List Expr} {e : Emitter} {stop : Stop}
    (h : ((call f arguments).emit e).1 = .error stop) : ((call f arguments).emit e).2 = e := by
  unfold emit at h ⊢
  rw [bind_apply, descriptorOf_apply] at h ⊢
  rcases hd : e.functions.get? f with _ | d
  · rfl
  · simp only [hd] at h ⊢
    exact snd_fragments_of_error h

theorem snd_emit_array_of_error {items : List Expr} {e : Emitter} {stop : Stop}
    (h : ((array items).emit e).1 = .error stop) : ((array items).emit e).2 = e := by
  unfold emit at h ⊢
  exact snd_fragments_of_error h

/-- The parts of the expression are written apart before any of its text. -/
def isList : Expr → Bool
  | .array _ => true
  | .call _ _ => true
  | _ => false

theorem snd_nested_of_isList {x : Expr} (hx : x.isList = true) {e : Emitter} {stop : Stop}
    (h : (nested x.emit e).1 = .error stop) : (nested x.emit e).2 = e := by
  rcases UInt32.lt_or_le e.depth e.options.maxDepth with hd | hd
  · rw [nested_of_lt hd] at h ⊢
    have hsame : (x.emit { e with depth := e.depth + 1 }).2 = { e with depth := e.depth + 1 } := by
      cases x with
      | array items => exact snd_emit_array_of_error h
      | call f arguments => exact snd_emit_call_of_error h
      | _ => cases hx
    dsimp only
    rw [hsame]
  · rw [nested_of_le hd]

/-- An expression that cannot be emitted adds a beginning of its text and changes nothing else. The
text is the one that is written by any emitter that escapes alike, has the same functions among
others and succeeds. Of an array or a call nothing is added. -/
theorem failed_emission_writes_beginning (x : Expr) (e : Emitter) (stop : Stop)
    (h : (nested x.emit e).1 = .error stop) : ∃ written,
      (nested x.emit e).2 = { e with source := e.source ++ written }
        ∧ (∀ e' : Emitter, e.ExtendedBy e' → (nested x.emit e').1 = .ok () → ∃ rest,
          (nested x.emit e').2.source = e'.source ++ (written ++ rest))
        ∧ (x.isList = true → written = "") := by
  obtain ⟨written, -, -, -, hwrites⟩ := nodeWrites x e
  have hstate : (nested x.emit e).2 = e.adding written := congrArg Prod.snd (hwrites e.source)
  refine ⟨written, hstate, fun e' hext hok => ?_, fun hx => ?_⟩
  · obtain ⟨w, rest, hw, hw', -⟩ := x.begins_nested_emit hext hok
    have hsource := congrArg Emitter.source (hstate.symm.trans hw)
    obtain rfl : written = w := (String.append_right_inj e.source).1 hsource
    exact ⟨rest, by rw [hw']; rfl⟩
  · have hsource := congrArg Emitter.source (hstate.symm.trans (snd_nested_of_isList hx h))
    rw [adding, String.append_eq_left_iff] at hsource
    exact hsource

/-- A call of a function with another name, behind text that is written before it. -/
def halfCall : Expr := .binary (.name "a") "and" (.index (.name "b") (.call "f" [.name "x"]))

def knowingF : Emitter := { functions := .ofList [("f", .ofList [("native", .string "g")])] }

theorem halfCall_writes_beginning :
    (nested halfCall.emit {}).1 = .error (.error (.unknownFunction "f"))
      ∧ ExtendedBy {} knowingF ∧ (nested halfCall.emit knowingF).1 = .ok ()
      ∧ (nested halfCall.emit {}).2.source = "(a && b["
      ∧ ∃ rest, (nested halfCall.emit knowingF).2.source = "(a && b[" ++ rest := by
  have herror : (nested halfCall.emit {}).1 = .error (.error (.unknownFunction "f")) := rfl
  have hextended : ExtendedBy {} knowingF := ⟨rfl, rfl, fun name d h => by cases h⟩
  have hok : (nested halfCall.emit knowingF).1 = .ok () := eq_ok_of_isOk (by decide +kernel)
  have hsource : (nested halfCall.emit {}).2.source = "(a && b[" := by decide +kernel
  obtain ⟨written, hstate, hbegins, -⟩ := halfCall.failed_emission_writes_beginning {} _ herror
  obtain ⟨rest, hrest⟩ := hbegins knowingF hextended hok
  obtain rfl : written = "(a && b[" := by
    rw [hstate] at hsource
    simpa using hsource
  rw [show knowingF.source = "" from rfl, String.empty_append] at hrest
  exact ⟨herror, hextended, hok, hsource, rest, hrest⟩

end Expr

end ScriptWriter
