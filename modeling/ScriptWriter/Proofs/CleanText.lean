import Mathlib.Data.List.Induction
import ScriptWriter.Proofs.UniqueReading

/-!
# What the text of an expression can hold

The characters of an emitted text come from three sources: the words, signs and digits the emitter
writes itself, the parts that are written as they are (names, operators, callees and properties
after a dot), and string literals. What a literal escapes shows in the text only if it is in a part
that is written as it is (`inscribe_clean`).

A dollar sign in a literal stands after an odd number of backslashes, however many the string has
before it. `pairing` follows the backslashes from the left: each escape leaves none open, and a
literal starts with a quote, so what was open before it does not count (`pairing_quoted`). A reader
of templates, which takes a backslash with the character after it, then finds no place where an
interpolation starts (`interpolates_eq_false`).
-/

namespace ScriptWriter

open Mark

/-! ## Escapes -/

namespace Literal

/-- What can stand after the backslash of an escape. -/
def escapeTails : List (List Char) :=
  [['0'], ['x', '0', '0'], ['t'], ['"'], ['\\'], ['$'], ['n'], ['r'], ['u', '2', '0', '2', '8'],
    ['u', '2', '0', '2', '9']]

/-- A character that a literal escapes, whatever the options or because of them. -/
def isEscaped (o : Options) (c : Char) : Bool :=
  c = Char.ofNat 0 || c = '\t' || c = '"' || c = '\\' || (c = '$' && o.escapeDollar) ||
    (o.escapeLineTerminators && Lexer.isLineTerminator c)

theorem escape_cases (o : Options) (c : Char) (rest : List Char) :
    (escape o c rest = [c] ∧ isEscaped o c = false)
      ∨ ∃ tail ∈ escapeTails, escape o c rest = '\\' :: tail := by
  unfold escape
  by_cases h0 : c = Char.ofNat 0
  · rw [if_pos h0]
    cases rest with
    | nil => exact Or.inr ⟨['0'], by decide, rfl⟩
    | cons next rest =>
      rw [nulEscape]
      split
      · exact Or.inr ⟨['x', '0', '0'], by decide, rfl⟩
      · exact Or.inr ⟨['0'], by decide, rfl⟩
  by_cases ht : c = '\t'
  · rw [if_neg h0, if_pos ht]
    exact Or.inr ⟨['t'], by decide, rfl⟩
  by_cases hq : c = '"'
  · rw [if_neg h0, if_neg ht, if_pos hq]
    exact Or.inr ⟨['"'], by decide, rfl⟩
  by_cases hb : c = '\\'
  · rw [if_neg h0, if_neg ht, if_neg hq, if_pos hb]
    exact Or.inr ⟨['\\'], by decide, rfl⟩
  rw [if_neg h0, if_neg ht, if_neg hq, if_neg hb]
  by_cases hs : c = '$' ∧ o.escapeDollar = true
  · rw [if_pos hs]
    exact Or.inr ⟨['$'], by decide, rfl⟩
  have hdollar : (decide (c = '$') && o.escapeDollar) = false := by simpa using hs
  rw [if_neg hs]
  by_cases hl : o.escapeLineTerminators = true
  · rw [if_pos hl]
    by_cases hn : c = '\n'
    · rw [if_pos hn]
      exact Or.inr ⟨['n'], by decide, rfl⟩
    by_cases hr : c = '\r'
    · rw [if_neg hn, if_pos hr]
      exact Or.inr ⟨['r'], by decide, rfl⟩
    by_cases hls : c = Char.ofNat 0x2028
    · rw [if_neg hn, if_neg hr, if_pos hls]
      exact Or.inr ⟨['u', '2', '0', '2', '8'], by decide, rfl⟩
    by_cases hps : c = Char.ofNat 0x2029
    · rw [if_neg hn, if_neg hr, if_neg hls, if_pos hps]
      exact Or.inr ⟨['u', '2', '0', '2', '9'], by decide, rfl⟩
    rw [if_neg hn, if_neg hr, if_neg hls, if_neg hps]
    have hline : Lexer.isLineTerminator c = false := by
      simp [Lexer.isLineTerminator, hn, hr, hls, hps]
    exact Or.inl ⟨rfl, by simp [isEscaped, h0, ht, hq, hb, hdollar, hline]⟩
  · rw [if_neg hl]
    exact Or.inl ⟨rfl, by simp [isEscaped, h0, ht, hq, hb, hdollar, hl]⟩

/-- The characters that are escaped, or can be, and that no escape is written with. -/
def controls : List Char := [Char.ofNat 0, '\t', '\n', '\r', Char.ofNat 0x2028, Char.ofNat 0x2029]

/-- A control character that is escaped is not in a literal. -/
theorem not_mem_quoted {o : Options} {c : Char} (hc : isEscaped o c = true)
    (hcontrol : c ∈ controls) (s : String) : c ∉ (quoted o s).toList := by
  have hquote : c ≠ '"' := by rintro rfl; exact absurd hcontrol (by decide)
  have hslash : c ≠ '\\' := by rintro rfl; exact absurd hcontrol (by decide)
  have htail : ∀ tail ∈ escapeTails, c ∉ tail := by
    have hall : (controls.all fun c => escapeTails.all fun tail => !tail.contains c) = true := by
      decide
    intro tail ht
    simpa using List.all_eq_true.1 (List.all_eq_true.1 hall c hcontrol) tail ht
  have hbody : ∀ cs : List Char, c ∉ escaped o cs := by
    intro cs
    induction cs with
    | nil => exact List.not_mem_nil
    | cons d rest ih =>
      rw [escaped, List.mem_append, not_or]
      refine ⟨?_, ih⟩
      rcases escape_cases o d rest with ⟨heq, hd⟩ | ⟨tail, ht, heq⟩ <;> rw [heq]
      · rw [List.mem_singleton]
        rintro rfl
        rw [hc] at hd
        cases hd
      · rw [List.mem_cons, not_or]
        exact ⟨hslash, htail tail ht⟩
  rw [toList_quoted, List.mem_cons, List.mem_append, List.mem_singleton, not_or, not_or]
  exact ⟨hquote, hbody s.toList, hquote⟩

end Literal

/-! ## Dollar signs -/

/-- Whether the text ends in a backslash that takes the next character with it, if it starts after
one that does or does not. None if a dollar sign stands without such a backslash. -/
def pairing : Bool → List Char → Option Bool
  | odd, [] => some odd
  | odd, c :: cs =>
    if c = '\\' then pairing (!odd) cs
    else if c = '$' ∧ odd = false then none
    else pairing false cs

theorem pairing_append (odd : Bool) (x y : List Char) :
    pairing odd (x ++ y) = (pairing odd x).bind fun odd' => pairing odd' y := by
  induction x generalizing odd with
  | nil => rfl
  | cons c x ih =>
    rw [List.cons_append, pairing, pairing, ih, ih]
    split_ifs <;> rfl

/-- The backslashes at the end of the text. -/
def trailingBackslashes (cs : List Char) : List Char := cs.reverse.takeWhile (· = '\\')

theorem pairing_eq_true_iff {t : List Char} {odd : Bool} (h : pairing false t = some odd) :
    odd = true ↔ (trailingBackslashes t).length % 2 = 1 := by
  induction t using List.reverseRecOn generalizing odd with
  | nil =>
    cases h
    decide
  | append_singleton t c ih =>
    rw [pairing_append] at h
    obtain ⟨odd', hodd', hc⟩ := Option.bind_eq_some_iff.1 h
    have ih' := ih hodd'
    unfold trailingBackslashes at ih' ⊢
    rw [List.reverse_append, List.reverse_singleton, List.singleton_append, List.takeWhile_cons]
    by_cases hb : c = '\\'
    · rw [pairing, if_pos hb, pairing, Option.some.injEq] at hc
      rw [if_pos (decide_eq_true hb), List.length_cons, ← hc, Bool.not_eq_true', ← Bool.not_eq_true,
        ih']
      omega
    · rw [pairing, if_neg hb] at hc
      split_ifs at hc
      rw [pairing, Option.some.injEq] at hc
      simp [hb, ← hc]

/-- Where the backslashes pair up to the end, a dollar sign stands after an odd run of them. -/
theorem odd_backslashes_of_pairing {t before after : List Char}
    (h : (pairing false t).isSome = true) (ht : t = before ++ '$' :: after) :
    (trailingBackslashes before).length % 2 = 1 := by
  obtain ⟨odd, hodd⟩ := Option.isSome_iff_exists.1 h
  rw [ht, pairing_append] at hodd
  obtain ⟨odd', hbefore, hafter⟩ := Option.bind_eq_some_iff.1 hodd
  rw [pairing, if_neg (by decide)] at hafter
  split_ifs at hafter with hfree
  exact (pairing_eq_true_iff hbefore).1 (by simpa using hfree)

/-- A template reader comes to a place where an interpolation starts. -/
def interpolates : List Char → Bool
  | [] => false
  | [_] => false
  | c :: d :: rest =>
    if c = '\\' then interpolates rest
    else if c = '$' ∧ d = '\x7b' then true
    else interpolates (d :: rest)

theorem interpolates_eq_false {t : List Char} (h : (pairing false t).isSome = true) :
    interpolates t = false := by
  fun_induction interpolates t with
  | case1 => rfl
  | case2 => rfl
  | case3 d rest ih =>
    -- the character after the backslash is taken with it, whatever it is
    refine ih ?_
    by_cases hd : d = '\\' <;> simpa [pairing, hd] using h
  | case4 c d rest hb hopen =>
    rw [pairing, if_neg hb, if_pos ⟨hopen.1, rfl⟩] at h
    cases h
  | case5 c d rest hb hopen ih =>
    refine ih ?_
    rw [pairing, if_neg hb] at h
    split_ifs at h
    · cases h
    · exact h

namespace Literal

theorem pairing_escaped {o : Options} (ho : o.escapeDollar = true) (cs : List Char) :
    pairing false (escaped o cs) = some false := by
  induction cs with
  | nil => rfl
  | cons c rest ih =>
    have hescape : pairing false (escape o c rest) = some false := by
      rcases escape_cases o c rest with ⟨heq, hc⟩ | ⟨tail, ht, heq⟩ <;> rw [heq]
      · have hb : c ≠ '\\' := by rintro rfl; simp [isEscaped] at hc
        have hd : c ≠ '$' := by rintro rfl; simp [isEscaped, ho] at hc
        simp [pairing, hb, hd]
      · have hall : ∀ tail ∈ escapeTails, pairing false ('\\' :: tail) = some false := by decide
        exact hall tail ht
    rw [escaped, pairing_append, hescape]
    exact ih

/-- A literal pairs its backslashes on its own. -/
theorem pairing_quoted {o : Options} (ho : o.escapeDollar = true) (odd : Bool) (s : String) :
    pairing odd (quoted o s).toList = some false := by
  rw [toList_quoted, pairing, if_neg (by decide), if_neg (by simp), pairing_append,
    pairing_escaped ho]
  rfl

end Literal

/-! ## Marks -/

namespace Mark

/-- No character between the literals is one of the unwanted. -/
def Clean (unwanted : Char → Bool) (ms : List Mark) : Prop :=
  ∀ c, .char c ∈ ms → unwanted c = false

section Clean

variable {unwanted : Char → Bool}

theorem clean_literal (s : String) : Clean unwanted [.literal s] := by
  intro c hc
  simp at hc

theorem clean_chars {s : String} (h : ∀ c ∈ s.toList, unwanted c = false) :
    Clean unwanted (chars s) :=
  fun c hc => h c (char_mem_chars.1 hc)

theorem Clean.append {x y : List Mark} (hx : Clean unwanted x) (hy : Clean unwanted y) :
    Clean unwanted (x ++ y) := by
  intro c hc
  rcases List.mem_append.1 hc with hc | hc
  · exact hx c hc
  · exact hy c hc

theorem Clean.char_cons {d : Char} {x : List Mark} (hd : unwanted d = false)
    (hx : Clean unwanted x) : Clean unwanted (.char d :: x) := by
  intro c hc
  rcases List.mem_cons.1 hc with hc | hc
  · cases hc
    exact hd
  · exact hx c hc

theorem Clean.enclosed {l r : Char} {x : List Mark} (hl : unwanted l = false)
    (hr : unwanted r = false) (hx : Clean unwanted x) : Clean unwanted (enclosed l r x) :=
  (hx.append (Clean.char_cons hr fun _ h => absurd h List.not_mem_nil)).char_cons hl

theorem Clean.joined (hcomma : unwanted ',' = false) (hspace : unwanted ' ' = false)
    {parts : List (List Mark)} (h : ∀ x ∈ parts, Clean unwanted x) :
    Clean unwanted (Form.joined parts) := by
  rcases parts with _ | ⟨x, rest⟩
  · exact fun _ hc => absurd hc List.not_mem_nil
  · rw [Form.joined_cons]
    refine (h x List.mem_cons_self).append fun c hc => ?_
    obtain ⟨y, hy, hc⟩ := List.mem_flatMap.1 hc
    exact ((h y (List.mem_cons_of_mem x hy)).char_cons hspace).char_cons hcomma c hc

end Clean

theorem mem_inscribe {o : Options} {ms : List Mark} {c : Char} (h : c ∈ inscribe o ms) :
    .char c ∈ ms ∨ ∃ s, c ∈ (Literal.quoted o s).toList := by
  obtain ⟨m, hm, hc⟩ := List.mem_flatMap.1 h
  cases m with
  | char d =>
    rw [inscription, List.mem_singleton] at hc
    exact Or.inl (hc ▸ hm)
  | literal s => exact Or.inr ⟨s, hc⟩

theorem inscribe_clean {unwanted : Char → Bool} {o : Options} {ms : List Mark}
    (hms : Clean unwanted ms)
    (hquoted : ∀ c, unwanted c = true → ∀ s, c ∉ (Literal.quoted o s).toList) :
    ∀ c ∈ inscribe o ms, unwanted c = false := by
  intro c hc
  rcases mem_inscribe hc with hm | ⟨s, hs⟩
  · exact hms c hm
  · exact Bool.not_eq_true _ ▸ fun hu => hquoted c hu s hs

/-- Backslashes between the literals may be left open, since the next literal starts afresh. -/
theorem pairing_inscribe {o : Options} (ho : o.escapeDollar = true) {ms : List Mark}
    (hms : Clean (fun c => decide (c = '$')) ms) (odd : Bool) :
    (pairing odd (inscribe o ms)).isSome = true := by
  induction ms generalizing odd with
  | nil => rfl
  | cons m ms ih =>
    have hrest : Clean (fun c => decide (c = '$')) ms := fun c hc =>
      hms c (List.mem_cons_of_mem m hc)
    rw [inscribe_cons, pairing_append]
    cases m with
    | char c =>
      have hc : c ≠ '$' := by simpa using hms c List.mem_cons_self
      by_cases hb : c = '\\' <;> simpa [inscription, pairing, hb, hc] using ih hrest _
    | literal s =>
      rw [inscription, Literal.pairing_quoted ho]
      exact ih hrest false

end Mark

/-! ## What the emitter writes itself -/

/-- The characters of brackets, separators, numbers and the words for constants. -/
def ink : List Char :=
  ['0', '1', '2', '3', '4', '5', '6', '7', '8', '9', '+', '-', '.', '(', ')', '[', ']', '\x7b',
    '\x7d', ',', ':', '?', ' ', 'N', 'a', 'I', 'n', 'f', 'i', 't', 'y', 'e', 'u', 'l', 'r', 's']

theorem mem_ink_of_isDigit {c : Char} (h : c.isDigit = true) : c ∈ ink := by
  have hc : 48 ≤ c.toNat ∧ c.toNat ≤ 57 := by
    simpa [Char.isDigit, Char.le_def, UInt32.le_iff_toNat_le] using h
  have hall : ∀ n < 10, Char.ofNat (48 + n) ∈ ink := by decide
  have hmem := hall (c.toNat - 48) (by omega)
  rwa [Nat.add_sub_cancel' hc.1, Char.ofNat_toNat] at hmem

theorem Digits.mem_ink {cs : List Char} (h : Digits cs) {c : Char} (hc : c ∈ cs) : c ∈ ink :=
  mem_ink_of_isDigit (h.2 c hc)

theorem DecimalText.mem_ink {w : List Char} (h : DecimalText w) {c : Char} (hc : c ∈ w) :
    c ∈ ink := by
  obtain ⟨whole, fraction, exponent, rfl, hw, hf, he⟩ := h
  rw [List.mem_append, List.mem_append] at hc
  rcases hc with (hc | hc) | hc
  · exact hw.mem_ink hc
  · rcases hf with rfl | ⟨ds, rfl, hd⟩
    · exact absurd hc List.not_mem_nil
    · rcases List.mem_cons.1 hc with rfl | hc
      · decide
      · exact hd.mem_ink hc
  · rcases he with rfl | ⟨sign, ds, rfl, hs, hd⟩
    · exact absurd hc List.not_mem_nil
    · rcases List.mem_cons.1 hc with rfl | hc
      · decide
      · rcases List.mem_cons.1 hc with rfl | hc
        · rcases hs with rfl | rfl <;> decide
        · exact hd.mem_ink hc

theorem NumberText.mem_ink {w : List Char} (h : NumberText w) {c : Char} (hc : c ∈ w) :
    c ∈ ink := by
  have hname : ∀ c ∈ "NaN".toList ++ "Infinity".toList, c ∈ ink :=
    fun c hc => List.contains_iff_mem.1 (List.all_eq_true.1 (by decide) c hc)
  rcases h with rfl | ⟨sign, magnitude, rfl, hs, hm⟩
  · exact hname c (List.mem_append_left _ hc)
  · rcases List.mem_append.1 hc with hc | hc
    · rcases hs with rfl | rfl
      · exact absurd hc List.not_mem_nil
      · rw [List.mem_singleton.1 hc]
        decide
    · rcases hm with rfl | hm
      · exact hname c (List.mem_append_right _ hc)
      · exact hm.mem_ink hc

/-! ## Constants and expressions -/

variable {unwanted : Char → Bool}

theorem clean_of_ink (hink : ∀ c ∈ ink, unwanted c = false) {s : String}
    (h : ∀ c ∈ s.toList, c ∈ ink) : Clean unwanted (chars s) :=
  clean_chars fun c hc => hink c (h c hc)

theorem clean_word (hink : ∀ c ∈ ink, unwanted c = false) {s : String}
    (h : s.toList.all ink.contains = true) : Clean unwanted (chars s) :=
  clean_of_ink hink fun c hc => List.contains_iff_mem.1 (List.all_eq_true.1 h c hc)

theorem clean_array (hink : ∀ c ∈ ink, unwanted c = false) {parts : List (List Mark)}
    (h : ∀ x ∈ parts, Clean unwanted x) : Clean unwanted (enclosed '[' ']' (Form.joined parts)) :=
  .enclosed (hink _ (by decide)) (hink _ (by decide))
    (.joined (hink _ (by decide)) (hink _ (by decide)) h)

mutual

theorem Value.clean_marks (hink : ∀ c ∈ ink, unwanted c = false) :
    ∀ v : Value, Clean unwanted v.norm.marks
  | .null => clean_word hink (by decide)
  | .bool true => clean_word hink (by decide)
  | .bool false => clean_word hink (by decide)
  | .int n => clean_of_ink hink fun _ hc => (Literal.numberText_int n).mem_ink hc
  | .float x => clean_of_ink hink fun _ hc => (Literal.numberText_float x).mem_ink hc
  | .string s => clean_literal s
  | .list items => clean_array hink (Value.clean_marksItems hink items)
  | .map entries => clean_array hink (Value.clean_marksEntries hink entries)

theorem Value.clean_marksItems (hink : ∀ c ∈ ink, unwanted c = false) : ∀ items : List Value,
    ∀ x ∈ Form.marksItems (Value.normItems items), Clean unwanted x
  | [], _, h => absurd h List.not_mem_nil
  | v :: rest, x, h => by
    rcases List.mem_cons.1 h with rfl | h
    · exact Value.clean_marks hink v
    · exact Value.clean_marksItems hink rest x h

theorem Value.clean_marksEntries (hink : ∀ c ∈ ink, unwanted c = false) :
    ∀ entries : List (String × Value),
      ∀ x ∈ Form.marksItems (Value.normEntries entries), Clean unwanted x
  | [], _, h => absurd h List.not_mem_nil
  | (_, v) :: rest, x, h => by
    rcases List.mem_cons.1 h with rfl | h
    · exact Value.clean_marks hink v
    · exact Value.clean_marksEntries hink rest x h

end

namespace Expr

open Emitter

/-- What the expression itself, apart from its parts, writes as it is: its name, its operator or
the name of the function it calls. -/
def rawAt (functions : FunctionTable) : Expr → List String
  | .name s => [s]
  | .unary operator _ => [unaryText operator]
  | .binary _ operator _ => [binaryText operator]
  | .call function _ => [calleeText functions function]
  | _ => []

/-- The property that the expression itself writes after a dot. -/
def dottedAt : Expr → List String
  | .member _ property => if isIdentifier property then [property] else []
  | _ => []

def rawParts (functions : FunctionTable) (x : Expr) : List String :=
  (x.positions 0).flatMap fun p => rawAt functions p.2

def dottedProperties (x : Expr) : List String := (x.positions 0).flatMap fun p => dottedAt p.2

/-- The expression itself writes no unwanted character as it is. -/
def CleanAt (unwanted : Char → Bool) (functions : FunctionTable) (x : Expr) : Prop :=
  ∀ s ∈ rawAt functions x ++ dottedAt x, ∀ c ∈ s.toList, unwanted c = false

/-- No part that is written as it is holds an unwanted character, so no text between the literals
does. -/
theorem clean_marks (hink : ∀ c ∈ ink, unwanted c = false) {functions : FunctionTable} (x : Expr)
    (h : ∀ p ∈ x.positions 0, CleanAt unwanted functions p.2) :
    Clean unwanted (x.norm functions).marks := by
  induction x using children_induction with
  | h x ih =>
    obtain ⟨hat, hparts⟩ := forall_positions_iff.1 h
    have hchild : ∀ c ∈ x.children, Clean unwanted (c.norm functions).marks :=
      fun c hc => ih c hc (hparts c hc)
    have hspace := hink ' ' (by decide)
    have hgroup {ms : List Mark} (hms : Clean unwanted ms) : Clean unwanted (enclosed '(' ')' ms) :=
      hms.enclosed (hink _ (by decide)) (hink _ (by decide))
    cases x with
    | constant value => exact value.clean_marks hink
    | name s => exact clean_chars (hat s (by simp [rawAt]))
    | array items =>
      rw [norm, normItems_eq_map, Form.marks, Form.marksItems_eq_map]
      exact clean_array hink (List.forall_mem_map.2 (List.forall_mem_map.2 hchild))
    | object entries =>
      rw [norm, normEntries_eq_map, Form.marks, Form.marksEntries_eq_map]
      refine .enclosed (hink _ (by decide)) (hink _ (by decide))
        (.joined (hink _ (by decide)) hspace (List.forall_mem_map.2 (List.forall_mem_map.2 ?_)))
      intro p hp
      have hvalue := hchild p.2 (List.mem_map_of_mem hp)
      exact (clean_literal p.1).append ((hvalue.char_cons hspace).char_cons (hink _ (by decide)))
    | unary operator operand =>
      rw [norm, Form.marks]
      exact hgroup ((clean_chars (hat _ (by simp [rawAt]))).append
        (hchild operand (by simp [children])))
    | binary left operator right =>
      rw [norm, Form.marks]
      exact hgroup ((hchild left (by simp [children])).append
        (((clean_chars (hat _ (by simp [rawAt]))).append
          ((hchild right (by simp [children])).char_cons hspace)).char_cons hspace))
    | conditional test yes no =>
      have hmark : unwanted '?' = false := hink _ (by decide)
      have hcolon : unwanted ':' = false := hink _ (by decide)
      rw [norm, Form.marks]
      exact hgroup ((hgroup (hchild test (by simp [children]))).append
        (((((hgroup (hchild yes (by simp [children]))).append
          ((((hgroup (hchild no (by simp [children]))).char_cons hspace).char_cons
            hcolon).char_cons hspace)).char_cons hspace).char_cons hmark).char_cons hspace))
    | member target property =>
      have htarget := hchild target (by simp [children])
      rw [norm]
      split
      · rename_i hp
        rw [Form.marks]
        exact htarget.append ((clean_chars (hat property (by simp [dottedAt, hp]))).char_cons
          (hink _ (by decide)))
      · rw [Form.marks, Form.marks]
        exact htarget.append ((clean_literal property).enclosed (hink _ (by decide))
          (hink _ (by decide)))
    | index target key =>
      rw [norm, Form.marks]
      exact (hchild target (by simp [children])).append
        ((hchild key (by simp [children])).enclosed (hink _ (by decide)) (hink _ (by decide)))
    | call function arguments =>
      rw [norm, normItems_eq_map, Form.marks, Form.marksItems_eq_map]
      refine (clean_chars (hat _ (by simp [rawAt]))).append (hgroup ?_)
      exact .joined (hink _ (by decide)) hspace
        (List.forall_mem_map.2 (List.forall_mem_map.2 hchild))

/-- The control characters that are escaped, or can be, are in no identifier. -/
theorem continuesIdentifier_control {c : Char} (h : c ∈ Literal.controls) :
    continuesIdentifier c = false := by
  have hall : (Literal.controls.all fun c => !continuesIdentifier c) = true := by decide +kernel
  simpa using List.all_eq_true.1 hall c h

theorem cleanAt_of_rawParts {functions : FunctionTable} {x : Expr}
    (hcontrol : ∀ c, unwanted c = true → continuesIdentifier c = false)
    (h : ∀ s ∈ x.rawParts functions, ∀ c ∈ s.toList, unwanted c = false) :
    ∀ p ∈ x.positions 0, CleanAt unwanted functions p.2 := by
  intro p hp s hs c hc
  rcases List.mem_append.1 hs with hs | hs
  · exact h s (List.mem_flatMap.2 ⟨p, hp, hs⟩) c hc
  · -- a property after a dot is an identifier
    have hid : isIdentifier s = true := by
      unfold dottedAt at hs
      split at hs
      · split at hs
        · rw [List.mem_singleton.1 hs]
          assumption
        · exact absurd hs List.not_mem_nil
      · exact absurd hs List.not_mem_nil
    have hword := continuesIdentifier_of_mem hid hc
    rw [← Bool.not_eq_true]
    intro hu
    rw [hcontrol c hu] at hword
    cases hword

section Text

variable (functions : FunctionTable) (o : Options) (x : Expr)

theorem pairing_text (ho : o.escapeDollar = true)
    (h : ∀ s ∈ x.rawParts functions ++ x.dottedProperties, '$' ∉ s.toList) :
    (pairing false (x.text functions o).toList).isSome = true := by
  rw [toList_text]
  refine pairing_inscribe ho (clean_marks ?_ x ?_) false
  · exact fun c hc => decide_eq_false fun hd => absurd (hd ▸ hc) (by decide)
  · intro p hp s hs c hc
    have hmem : s ∈ x.rawParts functions ++ x.dottedProperties := by
      rcases List.mem_append.1 hs with hs | hs
      · exact List.mem_append_left _ (List.mem_flatMap.2 ⟨p, hp, hs⟩)
      · exact List.mem_append_right _ (List.mem_flatMap.2 ⟨p, hp, hs⟩)
    exact decide_eq_false fun hd => h s hmem (hd ▸ hc)

/-- What a literal escapes is in the text only if it is in a part that is written as it is. -/
theorem text_clean (unwanted : Char → Bool)
    (hunwanted : ∀ c, unwanted c = true → Literal.isEscaped o c = true ∧ c ∈ Literal.controls)
    (h : ∀ s ∈ x.rawParts functions, ∀ c ∈ s.toList, unwanted c = false) :
    ∀ c ∈ (x.text functions o).toList, unwanted c = false := by
  rw [toList_text]
  refine inscribe_clean (clean_marks ?_ x (cleanAt_of_rawParts ?_ h)) ?_
  · intro c hc
    rw [← Bool.not_eq_true]
    intro hu
    have hall : (Literal.controls.all fun c => !ink.contains c) = true := by decide
    have hnot := List.all_eq_true.1 hall c (hunwanted c hu).2
    simp [hc] at hnot
  · exact fun c hu => continuesIdentifier_control (hunwanted c hu).2
  · exact fun c hu s => Literal.not_mem_quoted (hunwanted c hu).1 (hunwanted c hu).2 s

end Text

/-- Whatever constants, keys and bracketed properties an expression has, its text holds nothing
that should have been escaped, unless a part that is written as it is holds it. With dollar signs
escaped, each stands after an odd run of backslashes, so no interpolation starts; with line
terminators escaped there are none; and there is never a NUL or a tab. -/
theorem emitted_text_clean (x : Expr) (e : Emitter) (hok : (nested x.emit e).1 = .ok ()) :
    ∃ t : String, (nested x.emit e).2 = { e with source := e.source ++ t }
      ∧ (e.options.escapeDollar = true →
        (∀ s ∈ x.rawParts e.functions ++ x.dottedProperties, '$' ∉ s.toList) →
          (∀ before after, t.toList = before ++ '$' :: after →
            (trailingBackslashes before).length % 2 = 1) ∧ interpolates t.toList = false)
      ∧ (e.options.escapeLineTerminators = true →
        (∀ s ∈ x.rawParts e.functions, ∀ c ∈ s.toList, Lexer.isLineTerminator c = false) →
          ∀ c ∈ t.toList, Lexer.isLineTerminator c = false)
      ∧ ((∀ s ∈ x.rawParts e.functions, Char.ofNat 0 ∉ s.toList ∧ '\t' ∉ s.toList) →
        Char.ofNat 0 ∉ t.toList ∧ '\t' ∉ t.toList) := by
  refine ⟨x.text e.functions e.options, snd_nested_emit hok, fun ho h => ?_, fun ho h => ?_,
    fun h => ?_⟩
  · have hpairing := pairing_text e.functions e.options x ho h
    exact ⟨fun _ _ ht => odd_backslashes_of_pairing hpairing ht, interpolates_eq_false hpairing⟩
  · refine text_clean e.functions e.options x _ (fun c hc => ?_) h
    refine ⟨by simp [Literal.isEscaped, ho, hc], ?_⟩
    simp only [Lexer.isLineTerminator, Bool.or_eq_true, decide_eq_true_eq] at hc
    rcases hc with ((rfl | rfl) | rfl) | rfl <;> simp [Literal.controls]
  · have hclean := text_clean e.functions e.options x
      (fun c => c = Char.ofNat 0 || c = '\t') (fun c hc => ?_) fun s hs c hc => ?_
    · refine ⟨fun hc => ?_, fun hc => ?_⟩
      · exact absurd (hclean _ hc) (by decide)
      · exact absurd (hclean _ hc) (by decide)
    · simp only [Bool.or_eq_true, decide_eq_true_eq] at hc
      rcases hc with rfl | rfl <;> simp [Literal.isEscaped, Literal.controls]
    · have h0 : c ≠ Char.ofNat 0 := fun h0 => (h s hs).1 (h0 ▸ hc)
      have ht : c ≠ '\t' := fun ht => (h s hs).2 (ht ▸ hc)
      simp [h0, ht]

/-- An object with a line break in a key and a backslash before a dollar sign in a value, and a
property that is written in brackets. -/
def dollarInValue : Expr :=
  .binary (.object [("k\n\t", .constant (.list [.string "\\$\x7bx\x7d", .string "\x00"]))]) "~"
    (.member (.name "row") "first $")

theorem dollarInValue_clean :
    (nested dollarInValue.emit { options := { escapeLineTerminators := true } }).1 = .ok ()
      ∧ (∀ s ∈ dollarInValue.rawParts .empty ++ dollarInValue.dottedProperties, '$' ∉ s.toList)
      ∧ ∃ t : String, (nested dollarInValue.emit { options := { escapeLineTerminators := true } }).2
          = { options := { escapeLineTerminators := true }, source := "" ++ t }
        ∧ interpolates t.toList = false
        ∧ (∀ c ∈ t.toList, Lexer.isLineTerminator c = false)
        ∧ Char.ofNat 0 ∉ t.toList ∧ '\t' ∉ t.toList := by
  have hok : (nested dollarInValue.emit { options := { escapeLineTerminators := true } }).1
      = .ok () := eq_ok_of_isOk (by decide +kernel)
  have hraw : dollarInValue.rawParts .empty = ["+", "row"] := by
    have hplus : binaryText "~" = "+" := rfl
    simp [rawParts, dollarInValue, positions_eq, children, rawAt, hplus]
  have hdotted : dollarInValue.dottedProperties = [] := by
    have hid : isIdentifier "first $" = false := by decide +kernel
    simp [dottedProperties, dollarInValue, positions_eq, children, dottedAt, hid]
  obtain ⟨t, ht, hdollar, hline, hnul⟩ := emitted_text_clean dollarInValue _ hok
  rw [hraw] at hdollar hline hnul
  rw [hdotted] at hdollar
  rw [hraw, hdotted]
  exact ⟨hok, by decide, t, ht, (hdollar rfl (by decide)).2,
    hline rfl (by simp [Lexer.isLineTerminator]), hnul (by decide)⟩

end Expr

end ScriptWriter
