import ScriptWriter.Proofs.FormReading

/-!
# The text of an expression determines it

An expression is plain if its names are identifiers other than the words for constants, its unary
operators are signs or a negation, its binary operators have no bracket, separator or quote in
them, and the functions it calls are written as dotted names. Constants, keys and properties are
free. Plain expressions are emitted as the same text exactly if they have the same normal form
(`text_eq_iff_norm_eq`).
-/

namespace ScriptWriter

open Mark Form

mutual

/-- The form of a constant is well-formed, whatever the constant is. -/
theorem Value.wellFormed_norm : ∀ v : Value, v.norm.WellFormed
  | .null => .null
  | .bool b => .bool b
  | .int n => .number (Literal.numberText_int n)
  | .float x => .number (Literal.numberText_float x)
  | .string s => .string s
  | .list items => .array (Value.wellFormed_normItems items)
  | .map entries => .array (Value.wellFormed_normEntries entries)

theorem Value.wellFormed_normItems : ∀ items : List Value,
    ∀ f ∈ Value.normItems items, f.WellFormed
  | [], f, h => absurd h (by simp [Value.normItems])
  | v :: rest, f, h => by
    rcases List.mem_cons.1 h with rfl | h
    · exact Value.wellFormed_norm v
    · exact Value.wellFormed_normItems rest f h

theorem Value.wellFormed_normEntries : ∀ entries : List (String × Value),
    ∀ f ∈ Value.normEntries entries, f.WellFormed
  | [], f, h => absurd h (by simp [Value.normEntries])
  | (_, v) :: rest, f, h => by
    rcases List.mem_cons.1 h with rfl | h
    · exact Value.wellFormed_norm v
    · exact Value.wellFormed_normEntries rest f h

end

namespace Expr

open Emitter

/-- The expression itself, apart from its parts, can be read back: a name is an identifier that is
no constant, operators are plain and a callee is a dotted name. -/
def PlainAt (functions : FunctionTable) : Expr → Prop
  | .name s => isIdentifier s = true ∧ s ∉ reserved
  | .unary operator _ => operator ∈ ["!", "-", "+", "not"]
  | .binary _ operator _ => PlainOperator operator
  | .call function _ => Dotted (calleeText functions function)
  | _ => True

/-- The expression and all its parts can be read back. -/
def Plain (functions : FunctionTable) (e : Expr) : Prop :=
  ∀ p ∈ e.positions 0, PlainAt functions p.2

theorem Plain.plainAt {functions : FunctionTable} {e : Expr} (h : Plain functions e) :
    PlainAt functions e :=
  (forall_positions_iff.1 h).1

theorem Plain.child {functions : FunctionTable} {e c : Expr} (h : Plain functions e)
    (hc : c ∈ e.children) : Plain functions c :=
  (forall_positions_iff.1 h).2 c hc

theorem unaryText_mem {operator : String} (h : operator ∈ ["!", "-", "+", "not"]) :
    unaryText operator ∈ signs := by
  simp only [List.mem_cons, List.not_mem_nil, or_false] at h
  rcases h with rfl | rfl | rfl | rfl <;> decide

theorem plainOperator_binaryText {operator : String} (h : PlainOperator operator) :
    PlainOperator (binaryText operator) := by
  rw [← binaryOperator_eq_binaryText, binaryOperator]
  split_ifs
  · decide
  · decide
  · decide
  · exact h

theorem wellFormed_norm {functions : FunctionTable} (e : Expr) (h : Plain functions e) :
    (e.norm functions).WellFormed := by
  induction e using children_induction with
  | h e ih =>
    have hpart : ∀ c ∈ e.children, (c.norm functions).WellFormed :=
      fun c hc => ih c hc (h.child hc)
    have hat := h.plainAt
    cases e with
    | constant value => exact value.wellFormed_norm
    | name s => exact .name hat.1 hat.2
    | array items =>
      rw [norm, normItems_eq_map]
      exact .array (List.forall_mem_map.2 hpart)
    | object entries =>
      rw [norm, normEntries_eq_map]
      refine .object (List.forall_mem_map.2 fun p hp => ?_)
      exact hpart p.2 (List.mem_map_of_mem hp)
    | unary operator operand =>
      exact .unary (unaryText_mem hat) (hpart operand (by simp [children]))
    | binary left operator right =>
      exact .binary (hpart left (by simp [children])) (plainOperator_binaryText hat)
        (hpart right (by simp [children]))
    | conditional test yes no =>
      exact .conditional (hpart test (by simp [children])) (hpart yes (by simp [children]))
        (hpart no (by simp [children]))
    | member target property =>
      have htarget := hpart target (by simp [children])
      rw [norm]
      split
      · exact .member htarget ‹_›
      · exact .index htarget (.string property)
    | index target key =>
      exact .index (hpart target (by simp [children])) (hpart key (by simp [children]))
    | call function arguments =>
      rw [norm, normItems_eq_map]
      exact .call hat (List.forall_mem_map.2 hpart)

/-- Plain expressions are emitted as the same text exactly if they have the same normal form,
even if the functions they call are looked up in different tables. -/
theorem text_eq_iff_norm_eq {a b : Expr} {m n : Emitter} {s t : String}
    (ho : m.options = n.options) (ha : Plain m.functions a) (hb : Plain n.functions b)
    (hoka : (nested a.emit m).1 = .ok ()) (hokb : (nested b.emit n).1 = .ok ())
    (hs : (nested a.emit m).2.source = m.source ++ s)
    (ht : (nested b.emit n).2.source = n.source ++ t) :
    s = t ↔ a.norm m.functions = b.norm n.functions := by
  have hwa := wellFormed_norm a ha
  have hwb := wellFormed_norm b hb
  rw [eq_text_of_nested_ok hoka hs, eq_text_of_nested_ok hokb ht, ← String.toList_inj,
    toList_text, toList_text, ho]
  constructor
  · intro h
    exact hwa.marks_injective hwb
      (inscribe_injective n.options hwa.quote_not_mem hwb.quote_not_mem h)
  · intro h
    rw [h]

/-- Two spellings of `((!x)) ? ([-1]) : (Math.max(y[""]))`. -/
theorem norm_eq_of_spellings :
    (conditional (.unary "not" (.name "x")) (.constant (.list [.int (-1)]))
        (.call "max" [.member (.name "y") ""])).norm
        (.ofList [("max", .ofList [("native", .string "Math.max")])])
      = (conditional (.unary "!" (.name "x")) (.array [.constant (.int (-1))])
        (.call "Math.max" [.index (.name "y") (.constant (.string ""))])).norm
        (.ofList [("Math.max", .empty)]) := by
  have hx : isIdentifier "x" = true ∧ "x" ∉ reserved := ⟨by decide +kernel, by decide⟩
  have hy : isIdentifier "y" = true ∧ "y" ∉ reserved := ⟨by decide +kernel, by decide⟩
  have hmax : Dotted "Math.max" :=
    ⟨["Math", "max"], by simp, by decide +kernel, by decide +kernel⟩
  have halias : Dotted (calleeText (.ofList [("max", .ofList [("native", .string "Math.max")])])
    "max") := hmax
  have hok {r : Except Stop Unit} (h : r.isOk = true) : r = .ok () := by
    cases r with
    | ok _ => rfl
    | error _ => exact absurd h Bool.false_ne_true
  have hown : Dotted (calleeText (.ofList [("Math.max", .empty)]) "Math.max") := hmax
  refine (text_eq_iff_norm_eq
    (m := { functions := .ofList [("max", .ofList [("native", .string "Math.max")])]
            source := "return "
            depth := 3 })
    (n := { functions := .ofList [("Math.max", .empty)] })
    (s := "(((!x)) ? ([-1]) : (Math.max(y[\"\"])))") rfl ?_ ?_ ?_ ?_ ?_ ?_).1 rfl
  · simp [Plain, positions_eq, children, PlainAt, hx, hy, halias]
  · simp [Plain, positions_eq, children, PlainAt, hx, hy, hown]
  · exact hok (by decide +kernel)
  · exact hok (by decide +kernel)
  · decide +kernel
  · decide +kernel

end Expr

end ScriptWriter
