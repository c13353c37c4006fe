import ScriptWriter.Json.Reader.Skip
import ScriptWriter.Proofs.JsonText

/-!
# Skipping JSON values

The grammar of values (`ValueText`) says nothing about what they mean: numbers may be of any size,
lists and objects may nest without bound and repeat their keys, and a string may hold half of a
pair. A value is skipped from its first character to its last (`skipValue_append`), wherever a
number may end after it.
-/

namespace ScriptWriter.Json

open Reader

/-! ## The grammar of values -/

/-- A character of a string. An escape by number may be half of a pair. -/
inductive CharText : List Char → Prop
  | plain {c : Char} (hquote : c ≠ '"') (hbackslash : c ≠ '\\') (hcontrol : ¬ c.toNat < 32) :
    CharText [c]
  | short {d c : Char} (h : (d, c) ∈ shortEscapes) : CharText ['\\', d]
  | numbered {hex : List Char} {n : Nat} (h : HexDigits hex n) : CharText ('\\' :: 'u' :: hex)

inductive CharsText : List Char → Prop
  | nil : CharsText []
  | cons {t ts : List Char} (h : CharText t) (hs : CharsText ts) : CharsText (t ++ ts)

inductive StringText : List Char → Prop
  | intro {inside : List Char} (h : CharsText inside) : StringText ('"' :: (inside ++ ['"']))

theorem StringText.cons {cs : List Char} (h : StringText cs) : ∃ rest, cs = '"' :: rest := by
  obtain ⟨h⟩ := h
  exact ⟨_, rfl⟩

def flagText (on : Bool) : List Char :=
  if on then ['t', 'r', 'u', 'e'] else ['f', 'a', 'l', 's', 'e']

inductive ValueText : List Char → Prop
  | null : ValueText ['n', 'u', 'l', 'l']
  | flag (on : Bool) : ValueText (flagText on)
  | number {n : Numeral} {cs : List Char} (h : n.Written cs) : ValueText cs
  | string {cs : List Char} (h : StringText cs) : ValueText cs
  | array (lead : Blanks) {parts : List Padded} (h : ∀ p ∈ parts, ValueText p.text) :
    ValueText ('[' :: (listText lead parts ++ [']']))
  | object (lead : Blanks) {members : List Member} (hkeys : ∀ m ∈ members, StringText m.key)
    (hvalues : ∀ m ∈ members, ValueText m.value) : ValueText (objectText lead members)

/-- A value starts neither with a blank nor with a closing bracket. -/
theorem ValueText.head {v : List Char} (h : ValueText v) :
    ∃ c rest, v = c :: rest ∧ isBlank c = false ∧ c ≠ ']' ∧ c ≠ '\x7d' := by
  cases h with
  | null => exact ⟨'n', _, rfl, by decide⟩
  | flag on => cases on <;> exact ⟨_, _, rfl, by decide⟩
  | number h =>
    obtain ⟨c, rest, hcons, hc⟩ := h.cons
    exact ⟨c, rest, hcons, isBlank_of_startsNumber hc, ne_of_startsNumber hc rfl (by decide),
      ne_of_startsNumber hc rfl (by decide)⟩
  | string h =>
    obtain ⟨rest, hcons⟩ := h.cons
    exact ⟨'"', rest, hcons, by decide⟩
  | array => exact ⟨'[', _, rfl, by decide⟩
  | object => exact ⟨'\x7b', _, rfl, by decide⟩

theorem ValueText.startsPart {v : List Char} (h : ValueText v) {close : Char}
    (hclose : close = ']' ∨ close = '\x7d') : StartsPart close v := by
  obtain ⟨c, rest, hcons, hblank, hbracket, hbrace⟩ := h.head
  refine ⟨c, rest, hcons, hblank, ?_⟩
  rcases hclose with rfl | rfl <;> assumption

theorem length_le_intercalate {text : List Char} {texts : List (List Char)} (h : text ∈ texts) :
    text.length ≤ ([','].intercalate texts).length := by
  induction texts with
  | nil => cases h
  | cons t texts ih =>
    rw [intercalate_cons_eq, List.length_append]
    rcases List.mem_cons.1 h with rfl | h
    · omega
    · have hle := ih h
      cases texts with
      | nil => cases h
      | cons t' texts =>
        rw [intercalate_cons_eq] at hle
        rw [List.flatMap_cons, List.cons_append, List.length_cons]
        omega

/-- A part is no longer than the list. -/
theorem length_le_listText {p : Padded} {parts : List Padded} (h : p ∈ parts) (lead : Blanks) :
    p.text.length ≤ (listText lead parts).length := by
  have hle := length_le_intercalate (List.mem_map_of_mem (f := Padded.full) h)
  simp only [listText, Padded.full, List.length_append] at hle ⊢
  omega

/-! ## Skipping -/

namespace Reader

theorem skipStringStep_of_charText {t : List Char} (h : CharText t) (tail : List Char) :
    skipStringStep () (t ++ tail) = .ok (.inl (), tail) := by
  cases h with
  | plain hquote hbackslash hcontrol =>
    simp only [List.singleton_append, skipStringStep, if_neg hquote, if_neg hbackslash,
      if_neg hcontrol]
  | short h =>
    obtain ⟨hu, hshort⟩ := shortEscape?_of_mem h
    simp only [List.cons_append, List.nil_append, skipStringStep, escape, if_neg hu, hshort]
    rfl
  | numbered h =>
    have hhex : (do let _ ← hexWord : Reader Unit) (_ ++ tail) = .ok ((), tail) :=
      bind_of_ok (hexWord_append h tail)
    simp only [List.cons_append, skipStringStep, escape, if_true, hhex]
    rfl

theorem runs_charsText {ts : List Char} (h : CharsText ts) (r : List Char) :
    Runs skipStringStep () (ts ++ '"' :: r) (.ok ((), r)) := by
  induction h with
  | nil => exact .ends (by simp [skipStringStep])
  | @cons t ts h _ ih =>
    have hpos : 0 < t.length := by cases h <;> simp
    rw [List.append_assoc]
    refine .goesOn (skipStringStep_of_charText h _) ?_ ih
    simp only [List.length_append]
    omega

theorem skipString_append {cs : List Char} (h : StringText cs) (r : List Char) :
    skipString (cs ++ r) = .ok ((), r) := by
  obtain ⟨h⟩ := h
  unfold skipString
  rw [List.cons_append, List.append_assoc, List.singleton_append, bind_of_ok (drop_cons _ _),
    loop_of_runs (runs_charsText h r)]

/-- What is no list or object is skipped the same way on every level. -/
theorem skipLevels_of_primitive {c : Char} {cs r : List Char} (hblank : isBlank c = false)
    (harray : c ≠ '[') (hobject : c ≠ '\x7b') (h : skipPrimitive c (c :: cs) = .ok ((), r))
    (room : List Char) : skipLevels room (c :: cs) = .ok ((), r) := by
  cases room with
  | nil => rw [skipLevels, bind_of_ok (next_cons hblank cs), h]
  | cons d room =>
    rw [skipLevels, bind_of_ok (next_cons hblank cs), if_neg harray, if_neg hobject, h]

theorem skipLevels_word {w r : List Char} (c : Char) (h : skipPrimitive c = word (c :: w))
    (hblank : isBlank c = false) (harray : c ≠ '[') (hobject : c ≠ '\x7b') (room : List Char) :
    skipLevels room (c :: w ++ r) = .ok ((), r) := by
  refine skipLevels_of_primitive hblank harray hobject ?_ room
  rw [h]
  exact word_append (c :: w) r

theorem skipLevels_blanks (room : List Char) (ws : Blanks) (cs : List Char) :
    skipLevels room (ws.1 ++ cs) = skipLevels room cs := by
  cases room <;> rw [skipLevels, next_bind_blanks]

/-- A member of an object that is skipped. -/
def skipMember (room : List Char) : Reader Unit := do
  if (← next) = '"' then
    skipString
    colon
    skipLevels room
  else throw .malformed

theorem readsPart_skipMember {m : Member} {room : List Char} (hkey : StringText m.key)
    (hvalue : ∀ r, EndsBefore continuesNumber r → skipLevels room (m.value ++ r) = .ok ((), r)) :
    ReadsPart '\x7d' (skipMember room) m.padded.text () := by
  obtain ⟨rest, hcons⟩ := hkey.cons
  refine ⟨StartsPart.append ⟨'"', rest, hcons, by decide, by decide⟩ _, fun r hr => ?_⟩
  have hnext (r : List Char) : next (m.key ++ r) = .ok ('"', m.key ++ r) := by
    rw [hcons]
    exact next_cons (by decide) _
  unfold skipMember Member.padded
  simp only [List.append_assoc, List.cons_append]
  rw [bind_of_ok (hnext _), if_pos rfl, bind_of_ok (skipString_append hkey _),
    bind_of_ok (colon_append _ _), skipLevels_blanks, hvalue r hr]

theorem skipLevels_append {v : List Char} (h : ValueText v) {room r : List Char}
    (hroom : v.length ≤ room.length) (hr : EndsBefore continuesNumber r) :
    skipLevels room (v ++ r) = .ok ((), r) := by
  induction h generalizing room r with
  | null => exact skipLevels_word 'n' rfl (by decide) (by decide) (by decide) room
  | flag on =>
    cases on with
    | true => exact skipLevels_word 't' rfl (by decide) (by decide) (by decide) room
    | false => exact skipLevels_word 'f' rfl (by decide) (by decide) (by decide) room
  | number h =>
    have hnumeral := numeral_written .malformed h hr
    obtain ⟨c, rest, rfl, hc⟩ := h.cons
    refine skipLevels_of_primitive (isBlank_of_startsNumber hc)
      (ne_of_startsNumber hc rfl (by decide)) (ne_of_startsNumber hc rfl (by decide)) ?_ room
    unfold skipPrimitive
    rw [if_neg (ne_of_startsNumber hc rfl (by decide)),
      if_neg (ne_of_startsNumber hc rfl (by decide)),
      if_neg (ne_of_startsNumber hc rfl (by decide)),
      if_neg (ne_of_startsNumber hc rfl (by decide)), if_pos hc]
    exact bind_of_ok hnumeral
  | string h =>
    have hstring := skipString_append h r
    obtain ⟨rest, rfl⟩ := h.cons
    exact skipLevels_of_primitive (c := '"') (by decide) (by decide) (by decide) hstring room
  | @array lead parts hparts ih =>
    obtain ⟨d, room, rfl⟩ := List.exists_cons_of_length_pos (Nat.lt_of_lt_of_le (by simp) hroom)
    have hread : ∀ p ∈ parts, ∀ s, ReadsPart ']' (skipLevels room) p.text s := by
      intro p hp s
      refine ⟨(hparts p hp).startsPart (Or.inl rfl), fun r hr => ih p hp ?_ hr⟩
      have hle := length_le_listText hp lead
      simp only [List.length_cons, List.length_append] at hroom
      omega
    have hgather := gather_reads closes_bracket (Reads.of_forall hread ()) '[' lead r
    rw [List.map_id'] at hgather
    rw [List.cons_append, List.append_assoc, List.singleton_append, skipLevels,
      bind_of_ok (next_cons (by decide) _), if_pos rfl]
    exact hgather
  | @object lead members hkeys hvalues ih =>
    obtain ⟨d, room, rfl⟩ :=
      List.exists_cons_of_length_pos (Nat.lt_of_lt_of_le (Nat.zero_lt_succ _) hroom)
    have hread : ∀ m ∈ members, ∀ s, ReadsPart '\x7d' (skipMember room) m.padded.text s := by
      intro m hm s
      refine readsPart_skipMember (hkeys m hm) fun r hr => ih m hm ?_ hr
      have hle := length_le_listText (List.mem_map_of_mem (f := Member.padded) hm) lead
      simp only [Member.padded, objectText, List.length_cons, List.length_append] at hroom hle
      omega
    have hgather := gather_reads closes_brace (Reads.of_forall hread ()) '\x7b' lead r
    rw [objectText, List.cons_append, List.append_assoc, List.singleton_append, skipLevels,
      bind_of_ok (next_cons (by decide) _), if_neg (by decide), if_pos rfl]
    exact hgather

/-- A value is skipped, with the blanks before it. -/
theorem skipValue_append {v r : List Char} (h : ValueText v) (hr : EndsBefore continuesNumber r)
    (ws : Blanks) : skipValue (ws.1 ++ (v ++ r)) = .ok ((), r) := by
  unfold skipValue
  rw [skipLevels_blanks]
  refine skipLevels_append h ?_ hr
  simp only [List.length_append]
  omega

end Reader

end ScriptWriter.Json
