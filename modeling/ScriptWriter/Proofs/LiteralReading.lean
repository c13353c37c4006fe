import ScriptWriter.Proofs.LiteralText
import ScriptWriter.Proofs.NumberReading
import ScriptWriter.Proofs.StringReading
import ScriptWriter.Proofs.Words

/-!
# Reading literals back

`Lexer.literal` reads the literal at the start of a text as a script does: a name, a number, a
string or a list. A number is the binary64 number nearest the decimal, a string is its code units.

What is written for a value is read as what the value means in a script, and the reading ends where
the literal does if a separator, a closing bracket or the end follows (`readsBack`). What is
assumed of the text that follows holds inside a list too, where `, ` or `]` follows, so the
induction over the value carries it down.
-/

namespace ScriptWriter

/-! ## The reader -/

/-- What a literal means: a string is its code units, and there is one kind of number. -/
inductive Datum where
  | null
  | bool (b : Bool)
  | number (x : Binary64)
  | string (units : List Nat)
  | array (items : List Datum)

namespace Lexer

def word (cs : List Char) : String := String.ofList (cs.takeWhile continuesIdentifier)

def named? : String → Option Datum
  | "null" => some .null
  | "true" => some (.bool true)
  | "false" => some (.bool false)
  | "NaN" => some (.number .nan)
  | "Infinity" => some (.number (.ofMagnitude false Binary64.infinityBits))
  | _ => none

/-- A decimal, or minus infinity. -/
def number (cs : List Char) : Option (Datum × List Char) :=
  match Json.Reader.numeral .malformed cs with
  | .ok (n, rest) => some (.number n.toBinary64, rest)
  | .error _ =>
    if cs.head? = some '-' ∧ word (cs.drop 1) = "Infinity" then
      some (.number (.ofMagnitude true Binary64.infinityBits),
        (cs.drop 1).dropWhile continuesIdentifier)
    else none

mutual

/-- The literal at the start of the text and the text after it. Going into a list and on to its next
item takes one of `room` each. -/
def literalWithin : (room : Nat) → List Char → Option (Datum × List Char)
  | 0, _ => none
  | _, [] => none
  | room + 1, c :: rest =>
    if startsIdentifier c then
      (named? (word (c :: rest))).map fun d => (d, (c :: rest).dropWhile continuesIdentifier)
    else if c = '"' then (stringLiteral false (c :: rest)).map fun p => (.string p.1, p.2)
    else if c = '[' then
      if rest.head? = some ']' then some (.array [], rest.drop 1)
      else (itemsWithin room rest).map fun p => (.array p.1, p.2)
    else number (c :: rest)

/-- One item or more up to the closing bracket. -/
def itemsWithin : (room : Nat) → List Char → Option (List Datum × List Char)
  | 0, _ => none
  | room + 1, cs =>
    match literalWithin room cs with
    | some (d, ']' :: rest) => some ([d], rest)
    | some (d, ',' :: ' ' :: rest) => (itemsWithin room rest).map fun p => (d :: p.1, p.2)
    | _ => none

end

/-- Every item takes a character, so the length of the text leaves room for all. -/
def literal (cs : List Char) : Option (Datum × List Char) := literalWithin cs.length cs

/-- The characters that may follow a literal. -/
def terminators : List Char := [',', ']', ')', '\x7d', ' ']

/-- The text is over or goes on with a terminator. -/
def EndsLiteral (r : List Char) : Prop := EndsBefore (fun c => decide (c ∉ terminators)) r

end Lexer

/-! ## What values mean -/

namespace Value

mutual

/-- The meaning of a value in a script: numbers are the nearest binary64 numbers, and of a map the
values are left, in their order. -/
def meaning : Value → Datum
  | .null => .null
  | .bool b => .bool b
  | .int n => .number (.ofInt n.toInt)
  | .float x => .number (if x.isNaN then .nan else x)
  | .string s => .string (Lexer.utf16 s.toList)
  | .list items => .array (meaningItems items)
  | .map entries => .array (meaningEntries entries)

def meaningItems : List Value → List Datum
  | [] => []
  | v :: rest => v.meaning :: meaningItems rest

def meaningEntries : List (String × Value) → List Datum
  | [] => []
  | (_, v) :: rest => v.meaning :: meaningEntries rest

end

theorem meaningItems_eq_map (items : List Value) : meaningItems items = items.map meaning := by
  induction items with
  | nil => rfl
  | cons v rest ih => rw [meaningItems, ih, List.map_cons]

theorem meaningEntries_eq_map (entries : List (String × Value)) :
    meaningEntries entries = (values entries).map meaning := by
  induction entries with
  | nil => rfl
  | cons p rest ih =>
    rw [meaningEntries, ih]
    rfl

end Value

namespace Lexer

/-! ## Names and numbers -/

theorem EndsLiteral.mono {p : Char → Bool} {r : List Char} (h : EndsLiteral r)
    (hp : ∀ c ∈ terminators, p c = false) : EndsBefore p r :=
  EndsBefore.mono h fun c hc => hp c (by simpa using hc)

theorem EndsLiteral.word {r : List Char} (h : EndsLiteral r) : EndsBefore continuesIdentifier r :=
  h.mono fun c hc => continuesIdentifier_special
    (by simp only [terminators, special, List.mem_cons] at hc ⊢; tauto)

theorem EndsLiteral.number {r : List Char} (h : EndsLiteral r) :
    EndsBefore Json.Reader.continuesNumber r := by
  refine h.mono fun c hc => ?_
  simp only [terminators, List.mem_cons, List.not_mem_nil, or_false] at hc
  rcases hc with rfl | rfl | rfl | rfl | rfl <;> rfl

theorem word_append {s : String} (hs : isIdentifier s = true) {r : List Char}
    (hr : EndsBefore continuesIdentifier r) : word (s.toList ++ r) = s := by
  rw [word, takeWhile_append (fun _ hc => continuesIdentifier_of_mem hs hc) hr,
    String.ofList_toList]

theorem literalWithin_word {s : String} (hs : isIdentifier s = true) {d : Datum}
    (hd : named? s = some d) {r : List Char} (hr : EndsLiteral r) (room : Nat) :
    literalWithin (room + 1) (s.toList ++ r) = some (d, r) := by
  have hword := word_append hs hr.word
  have hrest := dropWhile_append (fun _ hc => continuesIdentifier_of_mem hs hc) hr.word
  obtain ⟨c, rest, hcons, hc⟩ := isIdentifier_cons hs
  rw [hcons, List.cons_append] at hword hrest ⊢
  rw [literalWithin, if_pos hc, hword, hd, hrest]
  rfl

theorem literalWithin_of_number {c : Char} {rest : List Char} {p : Datum × List Char}
    (hc : c = '-' ∨ c.isDigit = true) (h : number (c :: rest) = some p) (room : Nat) :
    literalWithin (room + 1) (c :: rest) = some p := by
  have hstart : ¬ startsIdentifier c = true := by
    rcases hc with rfl | hc
    · decide +kernel
    · rw [startsIdentifier_of_isDigit hc]
      exact Bool.false_ne_true
  have hquote : c ≠ '"' := by rintro rfl; simp at hc
  have hopen : c ≠ '[' := by rintro rfl; simp at hc
  rw [literalWithin, if_neg hstart, if_neg hquote, if_neg hopen, h]

theorem literalWithin_numeral {n : Json.Reader.Numeral} (h : n.WellFormed) {r : List Char}
    (hr : EndsLiteral r) (room : Nat) :
    literalWithin (room + 1) (n.text ++ r) = some (.number n.toBinary64, r) := by
  have hread : number (n.text ++ r) = some (.number n.toBinary64, r) := by
    rw [number, Json.Reader.numeral_text .malformed h hr.number]
  obtain ⟨c, rest, hcons, hc⟩ := h.written.cons
  rw [hcons, List.cons_append] at hread ⊢
  exact literalWithin_of_number hc hread room

theorem literalWithin_minusInfinity {r : List Char} (hr : EndsLiteral r) (room : Nat) :
    literalWithin (room + 1) ("-Infinity".toList ++ r)
      = some (.number (.ofMagnitude true Binary64.infinityBits), r) := by
  have hs : isIdentifier "Infinity" = true := by decide +kernel
  have hword := word_append hs hr.word
  have hrest := dropWhile_append (fun _ hc => continuesIdentifier_of_mem hs hc) hr.word
  have hread : Json.Reader.numeral .malformed ('-' :: ("Infinity".toList ++ r))
      = .error .malformed := rfl
  change literalWithin (room + 1) ('-' :: ("Infinity".toList ++ r)) = _
  refine literalWithin_of_number (Or.inl rfl) ?_ room
  rw [number, hread]
  simp only [List.head?_cons, List.drop_one, List.tail_cons, hword, hrest, and_self, if_true]

theorem literalWithin_string (o : Options) (s r : String) (room : Nat) :
    literalWithin (room + 1) (Literal.quoted o s ++ r).toList
      = some (.string (utf16 s.toList), r.toList) := by
  have hread := Literal.stringLiteral_quoted false o s r
  simp only [Bool.false_and, Bool.false_eq_true, if_false] at hread
  have hstart : ¬ startsIdentifier '"' = true := by decide +kernel
  rw [String.toList_append, Literal.toList_quoted, List.cons_append] at hread ⊢
  rw [literalWithin, if_neg hstart, if_pos rfl, hread]
  rfl

/-! ## Lists -/

/-- No literal starts with a closing bracket. -/
theorem literalWithin_close (room : Nat) (r : List Char) :
    literalWithin room (']' :: r) = none := by
  have hstart : ¬ startsIdentifier ']' = true := by decide +kernel
  have hread : Json.Reader.numeral .malformed (']' :: r) = .error .malformed := rfl
  cases room with
  | zero => rfl
  | succ room =>
    rw [literalWithin, if_neg hstart, if_neg (by decide), if_neg (by decide), number, hread]
    simp

theorem itemsWithin_close (room : Nat) (r : List Char) : itemsWithin room (']' :: r) = none := by
  cases room with
  | zero => rfl
  | succ room => rw [itemsWithin, literalWithin_close]

end Lexer

namespace Literal

open Lexer

/-- The literal of the value is read as its meaning wherever a literal may end after it. -/
def ReadsBack (o : Options) (v : Value) : Prop := ∀ (room : Nat) (r : String),
  (render o v).length ≤ room → EndsLiteral r.toList →
    literalWithin room (render o v ++ r).toList = some (v.meaning, r.toList)

theorem endsLiteral_cons {c : Char} (hc : c ∈ terminators) (r : List Char) :
    EndsLiteral (c :: r) := by
  simpa [EndsLiteral, EndsBefore] using hc

theorem itemsWithin_joined {o : Options} (r : String) : ∀ (v : Value) (rest : List Value),
    (∀ w ∈ v :: rest, ReadsBack o w) → ∀ room,
      (", ".intercalate ((v :: rest).map (render o))).length < room →
        itemsWithin room (", ".intercalate ((v :: rest).map (render o)) ++ ("]" ++ r)).toList
          = some ((v :: rest).map Value.meaning, r.toList)
  | v, [], h, room + 1, hroom => by
    rw [List.map_singleton, String.intercalate_singleton] at hroom ⊢
    have hclose : ("]" ++ r).toList = ']' :: r.toList := String.toList_append
    have hv := h v List.mem_cons_self room ("]" ++ r) (Nat.le_of_lt_succ hroom)
      (hclose ▸ endsLiteral_cons (by decide) _)
    rw [itemsWithin, hv, hclose]
    rfl
  | v, w :: rest, h, room + 1, hroom => by
    rw [List.map_cons, List.map_cons, String.intercalate_cons_cons, ← List.map_cons] at hroom ⊢
    have hcomma : ", ".length = 2 := rfl
    rw [String.length_append, String.length_append, hcomma] at hroom
    generalize hjoined : ", ".intercalate ((w :: rest).map (render o)) = joined at hroom ⊢
    have hsep : (", " ++ (joined ++ ("]" ++ r))).toList
        = ',' :: ' ' :: (joined ++ ("]" ++ r)).toList := String.toList_append
    have hv := h v List.mem_cons_self room (", " ++ (joined ++ ("]" ++ r))) (by omega)
      (hsep ▸ endsLiteral_cons (by decide) _)
    have ih := itemsWithin_joined r w rest (fun u hu => h u (List.mem_cons_of_mem _ hu)) room
    rw [hjoined] at ih
    rw [String.append_assoc, String.append_assoc, itemsWithin, hv, hsep]
    exact congrArg (Option.map _) (ih (by omega))

theorem literalWithin_array {o : Options} {vs : List Value} (h : ∀ v ∈ vs, ReadsBack o v)
    {room : Nat} (r : String)
    (hroom : ("[" ++ ", ".intercalate (vs.map (render o)) ++ "]").length ≤ room) :
    literalWithin room ("[" ++ ", ".intercalate (vs.map (render o)) ++ "]" ++ r).toList
      = some (.array (vs.map Value.meaning), r.toList) := by
  have hstart : ¬ startsIdentifier '[' = true := by decide +kernel
  have hopen : ("[" ++ ", ".intercalate (vs.map (render o)) ++ "]" ++ r).toList
      = '[' :: (", ".intercalate (vs.map (render o)) ++ ("]" ++ r)).toList := by
    simp [String.toList_append]
  have hbrackets : "[".length = 1 ∧ "]".length = 1 := ⟨rfl, rfl⟩
  rw [String.length_append, String.length_append, hbrackets.1, hbrackets.2] at hroom
  obtain ⟨room, rfl⟩ : ∃ k, room = k + 1 := ⟨room - 1, by omega⟩
  rw [hopen, literalWithin, if_neg hstart, if_neg (by decide), if_pos rfl]
  cases vs with
  | nil =>
    have hclose : (", ".intercalate ([].map (render o)) ++ ("]" ++ r)).toList
        = ']' :: r.toList := by
      simp [String.toList_append]
    rw [hclose]
    rfl
  | cons v rest =>
    have hitems := itemsWithin_joined r v rest h room (by omega)
    have hhead : (", ".intercalate ((v :: rest).map (render o)) ++ ("]" ++ r)).toList.head?
        ≠ some ']' := by
      -- the first item was read, and nothing is read from a closing bracket
      intro hclose
      obtain ⟨tail, htail⟩ := List.head?_eq_some_iff.1 hclose
      rw [htail, itemsWithin_close] at hitems
      cases hitems
    rw [if_neg hhead, hitems]
    rfl

/-! ## All values -/

theorem ReadsBack.of_scalar {o : Options} {v : Value}
    (h : ∀ room r, EndsLiteral r →
      literalWithin (room + 1) ((render o v).toList ++ r) = some (v.meaning, r)) :
    ReadsBack o v := by
  intro room r hroom hr
  rw [String.toList_append]
  cases room with
  | zero =>
    -- there would be no text at all, and nothing is read from none
    have hempty : (render o v).toList = [] := by simpa using hroom
    have hread := h 0 [] trivial
    rw [hempty] at hread
    cases hread
  | succ room => exact h room r.toList hr

theorem readsBack_float (o : Options) (x : Binary64) : ReadsBack o (.float x) := by
  refine .of_scalar fun room r hr => ?_
  rw [render, Value.meaning]
  rcases lt_trichotomy x.magnitudeBits Binary64.infinityBits with hlt | heq | hgt
  · have hfin : x.isFinite = true := by simpa [Binary64.isFinite] using hlt
    rw [if_neg (Binary64.not_isNaN_of_isFinite hfin), ← text_numeralOf hfin,
      literalWithin_numeral (wellFormed_numeralOf x) hr, toBinary64_numeralOf hfin]
  · have hnan : ¬ x.isNaN = true := by simpa [Binary64.isNaN] using heq.le
    have hinf : x.isInfinite = true := by simpa [Binary64.isInfinite] using heq
    have hx : Binary64.ofMagnitude x.isNegative Binary64.infinityBits = x :=
      heq ▸ Binary64.ofMagnitude_self x
    rw [if_neg hnan, float, if_neg hnan, magnitude, if_pos hinf]
    cases hneg : x.isNegative <;> rw [hneg] at hx <;> rw [← hx]
    · exact literalWithin_word (s := "Infinity") (by decide +kernel) rfl hr room
    · exact literalWithin_minusInfinity hr room
  · have hnan : x.isNaN = true := by simpa [Binary64.isNaN] using hgt
    rw [if_pos hnan, float, if_pos hnan]
    exact literalWithin_word (by decide +kernel) rfl hr room

mutual

theorem readsBack (o : Options) : ∀ v : Value, ReadsBack o v
  | .null => .of_scalar fun room _ hr =>
    literalWithin_word (s := "null") (by decide +kernel) rfl hr room
  | .bool true => .of_scalar fun room _ hr =>
    literalWithin_word (s := "true") (by decide +kernel) rfl hr room
  | .bool false => .of_scalar fun room _ hr =>
    literalWithin_word (s := "false") (by decide +kernel) rfl hr room
  | .int n => .of_scalar fun room r hr => by
    have hread := literalWithin_numeral (wellFormed_numeralOfInt n.toInt) hr room
    rwa [text_numeralOfInt, toBinary64_numeralOfInt] at hread
  | .float x => readsBack_float o x
  | .string s => .of_scalar fun room r _ => by
    have hread := literalWithin_string o s (String.ofList r) room
    rwa [String.toList_append, String.toList_ofList] at hread
  | .list items => fun room r hroom _ => by
    rw [render, renderItems_eq_map] at hroom ⊢
    rw [Value.meaning, Value.meaningItems_eq_map]
    exact literalWithin_array (readsBack_items o items) r hroom
  | .map entries => fun room r hroom _ => by
    rw [render, renderEntries_eq_map] at hroom ⊢
    rw [Value.meaning, Value.meaningEntries_eq_map]
    exact literalWithin_array (readsBack_entries o entries) r hroom

theorem readsBack_items (o : Options) : ∀ items : List Value, ∀ v ∈ items, ReadsBack o v
  | [] => fun _ hv => absurd hv List.not_mem_nil
  | v :: rest => List.forall_mem_cons.2 ⟨readsBack o v, readsBack_items o rest⟩

theorem readsBack_entries (o : Options) : ∀ entries : List (String × Value),
    ∀ v ∈ Value.values entries, ReadsBack o v
  | [] => fun _ hv => absurd hv List.not_mem_nil
  | (_, v) :: rest => List.forall_mem_cons.2 ⟨readsBack o v, readsBack_entries o rest⟩

end

/-- The literal that an emitter writes for a value is read as the meaning of the value, whatever the
options, and the reading ends where the literal does. An integer means the binary64 number nearest
it, and so does the decimal that the reader finds; a string is given by its code units. -/
theorem writeLiteral_reads_back (v : Value) (e : Emitter) :
    ∃ literal, Emitter.writeLiteral v e = (.ok (), { e with source := e.source ++ literal })
      ∧ (∀ r : String, EndsLiteral r.toList →
        Lexer.literal (literal ++ r).toList = some (v.meaning, r.toList))
      ∧ (∀ n : Int64, Binary64.IsNearest n.toInt (.ofInt n.toInt))
      ∧ (∀ n : Json.Reader.Numeral, n.toBinary64.isFinite = true →
        Binary64.IsNearest (Binary64.signed n.negative n.magnitude) n.toBinary64)
      ∧ ∀ s s' : String, utf16 s.toList = utf16 s'.toList → s = s' := by
  refine ⟨render e.options v, ?_, fun r hr => ?_, fun n => ?_,
    fun n hn => n.isNearest_toBinary64 hn, fun s s' h => String.toList_inj.1 (utf16_injective h)⟩
  · rw [Emitter.writeLiteral_apply, append_eq_append_render]
  · refine readsBack e.options v _ r ?_ hr
    rw [String.length_toList, String.length_append]
    exact Nat.le_add_right _ _
  · refine Binary64.isNearest_ofInt ?_
    have hlow := n.le_toInt
    have hhigh := n.toInt_lt
    have hword : n.toInt.natAbs ≤ 2 ^ 63 := by omega
    exact hword.trans_lt (pow_lt_pow_right₀ one_lt_two (by decide))

/-- A map with an integer between two binary64 numbers, minus zero and a line separator in it. -/
def layeredMap : Value :=
  .map [("n", .list [.int 9007199254740993, .float ⟨0x8000000000000000⟩]),
    ("s", .string "\u2028\"")]

theorem layeredMap_reads_back : EndsLiteral ", 1]".toList ∧ ∃ literal,
    Emitter.writeLiteral layeredMap {} = (.ok (), { source := "" ++ literal })
      ∧ Lexer.literal (literal ++ ", 1]").toList
        = some (.array [.array [.number ⟨0x4340000000000000⟩, .number ⟨0x8000000000000000⟩],
            .string [0x2028, 0x22]], ", 1]".toList) := by
  have hend : EndsLiteral ", 1]".toList := endsLiteral_cons (by decide) _
  obtain ⟨literal, hwrite, hread, -⟩ := writeLiteral_reads_back layeredMap {}
  refine ⟨hend, literal, hwrite, (hread _ hend).trans ?_⟩
  have hint : Binary64.ofInt (Int64.toInt 9007199254740993) = ⟨0x4340000000000000⟩ := by
    decide +kernel
  have hzero : Binary64.isNaN ⟨0x8000000000000000⟩ = false := by decide +kernel
  simp only [layeredMap, Value.meaning, Value.meaningEntries, Value.meaningItems, hint, hzero]
  rfl

end Literal

end ScriptWriter
