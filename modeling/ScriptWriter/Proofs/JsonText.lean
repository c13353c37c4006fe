import ScriptWriter.Json.Printer
import ScriptWriter.Json.Reader.Value
import ScriptWriter.Proofs.NumberReading

/-!
# JSON text

The texts that are read as a given string (`Spells`), and lists of parts with blanks around them
(`listText`), of which an object is one whose parts are members. A string is read as what it spells
(`string_of_spells`). A list is read part by part, each part going from one state to the next
(`Reads`), up to the closing bracket (`gather_reads`) or to a part that fails (`gather_fails`).

What is read by repeated steps is followed step by step (`Runs`). Each step takes something off the
text, so the room, which is the text itself, lasts (`loop_of_runs`).
-/

namespace ScriptWriter.Json

open Reader

/-- Blanks, as they may stand between any two parts of a text. -/
abbrev Blanks := { cs : List Char // ∀ c ∈ cs, isBlank c = true }

def noBlanks : Blanks := ⟨[], by simp⟩

namespace Reader

variable {α β σ : Type}

/-! ## How readers run -/

theorem bind_of_error {m : Reader α} {f : α → Reader β} {cs : List Char} {e : ReadError}
    (h : m cs = .error e) : (m >>= f) cs = .error e := by
  simp only [bind, StateT.bind, h, Except.bind]

theorem map_of_ok {m : Reader α} {f : α → β} {cs rest : List Char} {a : α}
    (h : m cs = .ok (a, rest)) : (f <$> m) cs = .ok (f a, rest) := by
  simp only [Functor.map, StateT.map, h]
  rfl

theorem map_of_error {m : Reader α} {f : α → β} {cs : List Char} {e : ReadError}
    (h : m cs = .error e) : (f <$> m) cs = .error e := by
  simp only [Functor.map, StateT.map, h]
  rfl

theorem next_cons {c : Char} (h : isBlank c = false) (cs : List Char) :
    next (c :: cs) = .ok (c, c :: cs) := by
  simp [next, h]

theorem next_blanks (ws : Blanks) (cs : List Char) : next (ws.1 ++ cs) = next cs := by
  unfold next
  rw [List.dropWhile_append_of_pos ws.2]

/-- Blanks in front make no difference to what starts by looking at the next character. -/
theorem next_bind_blanks (ws : Blanks) (f : Char → Reader β) (cs : List Char) :
    (next >>= f) (ws.1 ++ cs) = (next >>= f) cs := by
  simp only [bind, StateT.bind, next_blanks]

theorem drop_cons (c : Char) (cs : List Char) : drop (c :: cs) = .ok ((), cs) := rfl

theorem word_append (w r : List Char) : word w (w ++ r) = .ok ((), r) := by
  induction w with
  | nil => rfl
  | cons c w ih => simpa [word] using ih

theorem ne_of_startsNumber {c d : Char} (h : c = '-' ∨ c.isDigit = true) (hd : d.isDigit = false)
    (hm : d ≠ '-') : c ≠ d := by
  rintro rfl
  rcases h with h | h
  · exact hm h
  · rw [hd] at h
    cases h

theorem isBlank_of_startsNumber {c : Char} (h : c = '-' ∨ c.isDigit = true) :
    isBlank c = false := by
  simp [isBlank, ne_of_startsNumber (d := ' ') h rfl (by decide),
    ne_of_startsNumber (d := '\t') h rfl (by decide),
    ne_of_startsNumber (d := '\n') h rfl (by decide),
    ne_of_startsNumber (d := '\r') h rfl (by decide)]

theorem readAll_of_ok {m : Reader α} {text : String} {a : α} (ws : Blanks)
    (h : m text.toList = .ok (a, ws.1)) : m.readAll text = .ok a := by
  have hblank : ws.1.all isBlank = true := List.all_eq_true.2 ws.2
  simp only [readAll, h]
  exact if_pos hblank

theorem readAll_of_error {m : Reader α} {text : String} {e : ReadError}
    (h : m text.toList = .error e) : m.readAll text = .error e := by
  simp only [readAll, h]
  rfl

/-- The step, repeated from a state on, takes something off the text each time and comes to an
answer. -/
inductive Runs (step : σ → Reader (σ ⊕ α)) :
    σ → List Char → Except ReadError (α × List Char) → Prop
  | ends {s : σ} {cs rest : List Char} {a : α} (h : step s cs = .ok (.inr a, rest)) :
    Runs step s cs (.ok (a, rest))
  | fails {s : σ} {cs : List Char} {e : ReadError} (h : step s cs = .error e) :
    Runs step s cs (.error e)
  | goesOn {s s' : σ} {cs rest : List Char} {answer : Except ReadError (α × List Char)}
    (h : step s cs = .ok (.inl s', rest)) (hrest : rest.length < cs.length)
    (hs : Runs step s' rest answer) : Runs step s cs answer

section Runs

variable {step : σ → Reader (σ ⊕ α)} {s : σ} {cs : List Char}
  {answer : Except ReadError (α × List Char)}

theorem Runs.repeated (h : Runs step s cs answer) {room : List Char}
    (hroom : cs.length ≤ room.length) : repeated step room s cs = answer := by
  induction h generalizing room with
  | ends h => cases room <;> rw [Reader.repeated, bind_of_ok h] <;> rfl
  | fails h => cases room <;> rw [Reader.repeated, bind_of_error h]
  | goesOn h hrest _ ih =>
    obtain ⟨d, room, rfl⟩ := List.exists_cons_of_length_pos (Nat.zero_lt_of_lt
      (Nat.lt_of_lt_of_le hrest hroom))
    rw [Reader.repeated, bind_of_ok h]
    exact ih (by simp only [List.length_cons] at hroom; omega)

theorem loop_of_runs (h : Runs step s cs answer) : loop step s cs = answer :=
  h.repeated (Nat.le_refl _)

theorem Runs.blanks (h : Runs step s cs answer)
    (hstep : ∀ s (ws : Blanks) cs, step s (ws.1 ++ cs) = step s cs) (ws : Blanks) :
    Runs step s (ws.1 ++ cs) answer := by
  cases h with
  | ends h => exact .ends (by rwa [hstep])
  | fails h => exact .fails (by rwa [hstep])
  | goesOn h hrest hs =>
    exact .goesOn (by rwa [hstep]) (by rw [List.length_append]; omega) hs

end Runs

end Reader

/-! ## Strings -/

/-- Four hexadecimal digits of a number. -/
structure HexDigits (hex : List Char) (n : Nat) : Prop where
  length : hex.length = 4
  value : hexValue? hex = some n

/-- The letters of short escapes, each with its character. -/
def shortEscapes : List (Char × Char) :=
  [('"', '"'), ('\\', '\\'), ('/', '/'), ('b', Char.ofNat 8), ('f', Char.ofNat 12), ('n', '\n'),
    ('r', '\r'), ('t', '\t')]

/-- The ways to write a character in a string: as it is, by a letter, or by its number, which takes
a pair beyond 16 bits. -/
inductive SpellsChar : Char → List Char → Prop
  | plain {c : Char} (hquote : c ≠ '"') (hbackslash : c ≠ '\\') (hcontrol : ¬ c.toNat < 32) :
    SpellsChar c [c]
  | short {c d : Char} (h : (d, c) ∈ shortEscapes) : SpellsChar c ['\\', d]
  | numbered {c : Char} {hex : List Char} (h : HexDigits hex c.toNat) :
    SpellsChar c ('\\' :: 'u' :: hex)
  | paired {c : Char} {high low : List Char} {h l : Nat} (hhigh : HexDigits high (0xD800 + h))
    (hlow : HexDigits low (0xDC00 + l)) (hh : h < 0x400) (hl : l < 0x400)
    (hc : c.toNat = 0x10000 + 0x400 * h + l) :
    SpellsChar c ('\\' :: 'u' :: (high ++ '\\' :: 'u' :: low))

inductive SpellsChars : List Char → List Char → Prop
  | nil : SpellsChars [] []
  | cons {c : Char} {cs t ts : List Char} (h : SpellsChar c t) (hs : SpellsChars cs ts) :
    SpellsChars (c :: cs) (t ++ ts)

/-- The ways to write a string. -/
inductive Spells (s : String) : List Char → Prop
  | intro {inside : List Char} (h : SpellsChars s.toList inside) :
    Spells s ('"' :: (inside ++ ['"']))

theorem shortEscape?_of_mem {d c : Char} (h : (d, c) ∈ shortEscapes) :
    d ≠ 'u' ∧ shortEscape? d = some c := by
  have hall : ∀ p ∈ shortEscapes, p.1 ≠ 'u' ∧ shortEscape? p.1 = some p.2 := by decide
  exact hall (d, c) h

theorem SpellsChars.append {cs cs' ts ts' : List Char} (h : SpellsChars cs ts)
    (h' : SpellsChars cs' ts') : SpellsChars (cs ++ cs') (ts ++ ts') := by
  induction h with
  | nil => exact h'
  | cons hc _ ih =>
    rw [List.append_assoc]
    exact .cons hc ih

theorem SpellsChar.length_pos {c : Char} {t : List Char} (h : SpellsChar c t) : 0 < t.length := by
  cases h <;> simp

namespace Reader

theorem length_le_utf8ByteSize (cs : List Char) :
    cs.length ≤ (String.ofList cs).utf8ByteSize := by
  induction cs with
  | nil => simp
  | cons c cs ih =>
    have hc := c.utf8Size_pos
    rw [String.ofList_cons, String.utf8ByteSize_append, String.utf8ByteSize_singleton,
      List.length_cons]
    omega

theorem hexWord_append {hex : List Char} {n : Nat} (h : HexDigits hex n) (tail : List Char) :
    hexWord (hex ++ tail) = .ok (n, tail) := by
  have hsize := length_le_utf8ByteSize hex
  rw [h.length] at hsize
  unfold hexWord
  simp only [List.take_left' h.length, List.drop_left' h.length, if_neg (Nat.not_lt.2 hsize),
    h.length, h.value, if_true]

theorem numbered_append {c : Char} {hex : List Char} (h : HexDigits hex c.toNat)
    (tail : List Char) : numbered (hex ++ tail) = .ok (c, tail) := by
  have hvalid : c.toNat < 0xD800 ∨ 0xDFFF < c.toNat ∧ c.toNat < 0x110000 := c.valid
  unfold numbered
  rw [bind_of_ok (hexWord_append h tail), if_neg (by omega), if_neg (by omega), Char.ofNat_toNat]
  rfl

theorem numbered_pair {c : Char} {high low : List Char} {h l : Nat}
    (hhigh : HexDigits high (0xD800 + h)) (hlow : HexDigits low (0xDC00 + l)) (hh : h < 0x400)
    (hl : l < 0x400) (hc : c.toNat = 0x10000 + 0x400 * h + l) (tail : List Char) :
    numbered (high ++ '\\' :: 'u' :: (low ++ tail)) = .ok (c, tail) := by
  have hword : word ['\\', 'u'] ('\\' :: 'u' :: (low ++ tail)) = .ok ((), low ++ tail) :=
    word_append ['\\', 'u'] _
  unfold numbered
  rw [bind_of_ok (hexWord_append hhigh _), if_neg (by omega), if_pos (by omega),
    bind_of_ok hword, bind_of_ok (hexWord_append hlow tail), if_pos (by omega),
    Nat.add_sub_cancel_left, Nat.add_sub_cancel_left, ← hc, Char.ofNat_toNat]
  rfl

theorem stringStep_of_spellsChar {c : Char} {t : List Char} (h : SpellsChar c t)
    (acc tail : List Char) : stringStep acc (t ++ tail) = .ok (.inl (c :: acc), tail) := by
  cases h with
  | plain hquote hbackslash hcontrol =>
    simp only [List.singleton_append, stringStep, if_neg hquote, if_neg hbackslash,
      if_neg hcontrol]
  | short h =>
    obtain ⟨hu, hshort⟩ := shortEscape?_of_mem h
    simp only [List.cons_append, List.nil_append, stringStep, escape, if_neg hu, hshort]
    rfl
  | numbered h =>
    simp only [List.cons_append, stringStep, escape, if_true, numbered_append h tail]
    rfl
  | paired hhigh hlow hh hl hc =>
    have hread := numbered_pair hhigh hlow hh hl hc tail
    simp only [List.cons_append, List.append_assoc, stringStep, escape, if_true, hread]
    rfl

theorem runs_spelled {cs ts : List Char} (h : SpellsChars cs ts) (acc r : List Char) :
    Runs stringStep acc (ts ++ '"' :: r) (.ok (String.ofList (acc.reverse ++ cs), r)) := by
  induction h generalizing acc with
  | nil => exact .ends (by simp [stringStep])
  | @cons c cs t ts h _ ih =>
    have hpos := h.length_pos
    rw [List.append_assoc]
    refine .goesOn (stringStep_of_spellsChar h acc _) ?_ ?_
    · simp only [List.length_append]
      omega
    · simpa using ih (c :: acc)

/-- A string is read as what it spells. -/
theorem string_of_spells {s : String} {text : List Char} (h : Spells s text) (r : List Char) :
    string (text ++ r) = .ok (s, r) := by
  obtain ⟨h⟩ := h
  have hruns := runs_spelled h [] r
  rw [List.reverse_nil, List.nil_append, String.ofList_toList] at hruns
  unfold string
  rw [List.cons_append, List.append_assoc, List.singleton_append, bind_of_ok (drop_cons _ _),
    loop_of_runs hruns]

end Reader

/-- The escape of a character spells it. -/
theorem spellsChar_escape (c : Char) : SpellsChar c (escape c) := by
  have hhex : ∀ n < 32, HexDigits ('0' :: '0' :: hexPair n) n :=
    fun n hn => ⟨rfl, by revert n; decide +kernel⟩
  have hshort {d e : Char} (hc : c = e) (h : (d, e) ∈ shortEscapes) : SpellsChar c ['\\', d] :=
    hc ▸ .short h
  unfold escape
  split_ifs with hq hb hn hr ht h8 h12 hc
  · exact hshort hq (by decide)
  · exact hshort hb (by decide)
  · exact hshort hn (by decide)
  · exact hshort hr (by decide)
  · exact hshort ht (by decide)
  · exact hshort h8 (by decide)
  · exact hshort h12 (by decide)
  · exact .numbered (hhex _ hc)
  · exact .plain hq hb hc

theorem toList_quoted (s : String) :
    (quoted s).toList = '"' :: (s.toList.flatMap escape ++ ['"']) := by
  rw [quoted, String.toList_ofList]

theorem spellsChars_flatMap (cs : List Char) : SpellsChars cs (cs.flatMap escape) := by
  induction cs with
  | nil => exact .nil
  | cons c cs ih => exact .cons (spellsChar_escape c) ih

theorem spells_quoted (s : String) : Spells s (quoted s).toList := by
  rw [toList_quoted]
  exact .intro (spellsChars_flatMap s.toList)

/-! ## Lists of parts -/

/-- A part of a list with the blanks around it. -/
structure Padded where
  before : Blanks
  text : List Char
  after : Blanks

namespace Padded

def full (p : Padded) : List Char := p.before.1 ++ (p.text ++ p.after.1)

def bare (text : List Char) : Padded := ⟨noBlanks, text, noBlanks⟩

theorem full_bare (text : List Char) : (bare text).full = text := by
  simp [full, bare, noBlanks]

end Padded

/-- What stands between the brackets of a list: commas between the parts, blanks if there are
none. -/
def listText (lead : Blanks) (parts : List Padded) : List Char :=
  lead.1 ++ [','].intercalate (parts.map Padded.full)

theorem intercalate_cons_eq (text : List Char) (texts : List (List Char)) :
    [','].intercalate (text :: texts) = text ++ texts.flatMap (',' :: ·) := by
  induction texts generalizing text with
  | nil => simp
  | cons next texts ih =>
    rw [List.intercalate_cons_cons, ih, List.flatMap_cons, List.append_assoc]
    rfl

/-- A part of a list and all that follow it, taken for one. -/
theorem intercalate_append_cons (texts : List (List Char)) (text : List Char)
    (more : List (List Char)) :
    [','].intercalate (texts ++ text :: more)
      = [','].intercalate (texts ++ [text ++ more.flatMap (',' :: ·)]) := by
  cases texts with
  | nil => rw [List.nil_append, List.nil_append, intercalate_cons_eq, List.intercalate_singleton]
  | cons first texts =>
    rw [List.cons_append, List.cons_append, intercalate_cons_eq, intercalate_cons_eq]
    simp

namespace Reader

/-- The text does not look like a blank or the end of the list. -/
def StartsPart (close : Char) (text : List Char) : Prop :=
  ∃ c rest, text = c :: rest ∧ isBlank c = false ∧ c ≠ close

theorem StartsPart.append {close : Char} {text : List Char} (h : StartsPart close text)
    (r : List Char) : StartsPart close (text ++ r) := by
  obtain ⟨c, rest, rfl, hc⟩ := h
  exact ⟨c, rest ++ r, rfl, hc⟩

/-- The part is read from its text wherever a number may end after it. -/
structure ReadsPart {σ : Type} (close : Char) (part : Reader σ) (text : List Char) (s : σ) :
    Prop where
  starts : StartsPart close text
  reads : ∀ r, EndsBefore continuesNumber r → part (text ++ r) = .ok (s, r)

/-- A bracket that ends a list. -/
structure Closes (close : Char) : Prop where
  blank : isBlank close = false
  number : continuesNumber close = false
  comma : close ≠ ','

theorem closes_bracket : Closes ']' := ⟨by decide, by decide, by decide⟩

theorem closes_brace : Closes '\x7d' := ⟨by decide, by decide, by decide⟩

section Gather

variable {ι σ : Type} {close : Char} {part : σ → Reader σ}

/-- The parts are read one after another, from state to state. -/
inductive Reads (close : Char) (part : σ → Reader σ) : σ → List Padded → σ → Prop
  | nil {s : σ} : Reads close part s [] s
  | cons {s s' s'' : σ} {p : Padded} {parts : List Padded}
    (h : ReadsPart close (part s) p.text s') (hs : Reads close part s' parts s'') :
    Reads close part s (p :: parts) s''

theorem Reads.of_forall {pad : ι → Padded} {add : σ → ι → σ} {items : List ι}
    (h : ∀ i ∈ items, ∀ s, ReadsPart close (part s) (pad i).text (add s i)) (start : σ) :
    Reads close part start (items.map pad) (items.foldl add start) := by
  induction items generalizing start with
  | nil => exact .nil
  | cons i items ih =>
    exact .cons (h i List.mem_cons_self start)
      (ih (fun j hj => h j (List.mem_cons_of_mem i hj)) (add start i))

theorem endsBefore_blanks {p : Char → Bool} (hp : ∀ c, isBlank c = true → p c = false)
    (ws : Blanks) {r : List Char} (hr : EndsBefore p r) : EndsBefore p (ws.1 ++ r) := by
  obtain ⟨ws, hws⟩ := ws
  cases ws with
  | nil => exact hr
  | cons c ws => exact hp c (hws c List.mem_cons_self)

theorem continuesNumber_of_isBlank (c : Char) (h : isBlank c = true) :
    continuesNumber c = false := by
  simp only [isBlank, decide_eq_true_eq] at h
  rcases h with rfl | rfl | rfl | rfl <;> decide

theorem gatherStep_blanks (s : Bool × σ) (ws : Blanks) (cs : List Char) :
    gatherStep close part s (ws.1 ++ cs) = gatherStep close part s cs := by
  simp only [gatherStep, element, bind_assoc]
  exact next_bind_blanks ws _ cs

theorem element_first {reader : Reader σ} {cs : List Char} (h : StartsPart close cs) :
    element close true reader cs = (some <$> reader) cs := by
  obtain ⟨c, rest, rfl, hblank, hne⟩ := h
  unfold element
  rw [bind_of_ok (next_cons hblank _), if_neg hne, if_pos rfl]

theorem element_next (hclose : Closes close) {reader : Reader σ} {cs : List Char}
    (h : StartsPart close cs) (ws : Blanks) :
    element close false reader (',' :: (ws.1 ++ cs)) = (some <$> reader) cs := by
  obtain ⟨c, rest, rfl, hblank, hne⟩ := h
  unfold element
  rw [bind_of_ok (next_cons (by decide) _), if_neg hclose.comma.symm, if_neg Bool.false_ne_true,
    if_pos rfl, bind_of_ok (drop_cons _ _), next_bind_blanks, bind_of_ok (next_cons hblank _),
    if_neg hne]

theorem gatherStep_of_reads {first : Bool} {s s' : σ} {cs text r : List Char}
    (helement : element close first (part s) cs = (some <$> part s) (text ++ r))
    (h : ReadsPart close (part s) text s') (hr : EndsBefore continuesNumber r) :
    gatherStep close part (first, s) cs = .ok (.inl (false, s'), r) := by
  rw [gatherStep, bind_of_ok (helement.trans (map_of_ok (h.reads r hr)))]
  rfl

theorem gatherStep_of_error {first : Bool} {s : σ} {cs text : List Char} {e : ReadError}
    (helement : element close first (part s) cs = (some <$> part s) text)
    (h : part s text = .error e) : gatherStep close part (first, s) cs = .error e := by
  rw [gatherStep, bind_of_error (helement.trans (map_of_error h))]

variable (hclose : Closes close)

include hclose

theorem gatherStep_close (first : Bool) (s : σ) (r : List Char) :
    gatherStep close part (first, s) (close :: r) = .ok (.inr s, r) := by
  have helement : element close first (part s) (close :: r) = .ok (none, close :: r) := by
    unfold element
    rw [bind_of_ok (next_cons hclose.blank r), if_pos rfl]
    rfl
  rw [gatherStep, bind_of_ok helement]
  rfl

/-- The parts after a comma are read, and then what follows them. -/
theorem runs_following {s s' : σ} {parts : List Padded} (h : Reads close part s parts s')
    {tail : List Char} {answer : Except ReadError (σ × List Char)}
    (htail : EndsBefore continuesNumber tail)
    (hruns : Runs (gatherStep close part) (false, s') tail answer) :
    EndsBefore continuesNumber ((parts.flatMap fun p => ',' :: p.full) ++ tail)
      ∧ Runs (gatherStep close part) (false, s) ((parts.flatMap fun p => ',' :: p.full) ++ tail)
        answer := by
  induction h with
  | nil => exact ⟨htail, hruns⟩
  | @cons s s' s'' p parts h _ ih =>
    obtain ⟨hends, hrest⟩ := ih hruns
    refine ⟨rfl, ?_⟩
    have hstep := gatherStep_of_reads (element_next hclose (h.starts.append _) p.before) h
      (endsBefore_blanks continuesNumber_of_isBlank p.after hends)
    rw [List.flatMap_cons, List.append_assoc, List.cons_append, Padded.full, List.append_assoc,
      List.append_assoc]
    refine .goesOn hstep ?_ (hrest.blanks gatherStep_blanks p.after)
    simp only [List.length_cons, List.length_append]
    omega

/-- So is a list that has parts, from after its opening bracket. -/
theorem runs_list {s s' s'' : σ} {p : Padded} {parts : List Padded}
    (h : ReadsPart close (part s) p.text s') (hs : Reads close part s' parts s'') {tail : List Char}
    {answer : Except ReadError (σ × List Char)} (htail : EndsBefore continuesNumber tail)
    (hruns : Runs (gatherStep close part) (false, s'') tail answer) (lead : Blanks) :
    Runs (gatherStep close part) (true, s) (listText lead (p :: parts) ++ tail) answer := by
  obtain ⟨hends, hrest⟩ := runs_following hclose hs htail hruns
  have hstep := gatherStep_of_reads (element_first (h.starts.append _)) h
    (endsBefore_blanks continuesNumber_of_isBlank p.after hends)
  rw [listText, List.map_cons, intercalate_cons_eq, List.flatMap_map, Padded.full,
    List.append_assoc, List.append_assoc, List.append_assoc, List.append_assoc]
  refine Runs.blanks (.blanks (.goesOn hstep ?_ (hrest.blanks gatherStep_blanks p.after))
    gatherStep_blanks _) gatherStep_blanks _
  obtain ⟨c, rest, hcons, -⟩ := h.starts
  rw [hcons]
  simp only [List.length_cons, List.length_append]
  omega

/-- A list whose parts can be read is read up to its closing bracket. -/
theorem gather_reads {start s : σ} {parts : List Padded} (h : Reads close part start parts s)
    (bracket : Char) (lead : Blanks) (r : List Char) :
    gather close part start (bracket :: (listText lead parts ++ close :: r)) = .ok (s, r) := by
  unfold gather
  rw [bind_of_ok (drop_cons _ _)]
  refine loop_of_runs ?_
  cases h with
  | nil =>
    rw [listText, List.map_nil, List.intercalate_nil, List.append_nil]
    exact .blanks (.ends (gatherStep_close hclose true start r)) gatherStep_blanks lead
  | cons h hs =>
    have hends : EndsBefore continuesNumber (close :: r) := hclose.number
    exact runs_list hclose h hs hends (.ends (gatherStep_close hclose _ _ r)) lead

/-- A list fails at the first part that does, whatever follows. -/
theorem gather_fails {start s : σ} {parts : List Padded} (h : Reads close part start parts s)
    {last : List Char} {e : ReadError} (hlast : StartsPart close last)
    (herror : part s last = .error e) (bracket : Char) (lead before : Blanks) :
    gather close part start
        (bracket :: (lead.1 ++ [','].intercalate (parts.map Padded.full ++ [before.1 ++ last])))
      = .error e := by
  unfold gather
  rw [bind_of_ok (drop_cons _ _)]
  refine loop_of_runs ?_
  cases h with
  | nil =>
    rw [List.map_nil, List.nil_append, List.intercalate_singleton]
    exact .blanks (.blanks (.fails (gatherStep_of_error (element_first hlast) herror))
      gatherStep_blanks before) gatherStep_blanks lead
  | @cons _ s' _ p parts h hs =>
    have hends : EndsBefore continuesNumber (',' :: (before.1 ++ last)) := rfl
    have hruns := runs_list hclose h hs hends
      (.fails (gatherStep_of_error (element_next hclose hlast before) herror)) lead
    have htext : [','].intercalate ((p :: parts).map Padded.full ++ [before.1 ++ last])
        = [','].intercalate ((p :: parts).map Padded.full) ++ ',' :: (before.1 ++ last) := by
      rw [List.map_cons, List.cons_append, intercalate_cons_eq, intercalate_cons_eq,
        List.flatMap_append, List.flatMap_singleton, List.append_assoc]
    rwa [htext, ← List.append_assoc]

/-- A list without blanks is read item by item. -/
theorem gather_joined {text : ι → List Char} {add : σ → ι → σ} {items : List ι}
    (h : ∀ i ∈ items, ∀ s, ReadsPart close (part s) (text i) (add s i)) (start : σ)
    (bracket : Char) (r : List Char) :
    gather close part start (bracket :: ([','].intercalate (items.map text) ++ close :: r))
      = .ok (items.foldl add start, r) := by
  have hreads : Reads close part start (items.map fun i => .bare (text i)) _ := .of_forall h start
  have hgather := gather_reads hclose hreads bracket noBlanks r
  rw [listText, List.map_map] at hgather
  simpa only [Function.comp_def, Padded.full_bare, noBlanks, List.nil_append] using hgather

end Gather

end Reader

/-! ## Objects -/

/-- A member of an object with the blanks around its parts. -/
structure Member where
  before : Blanks
  key : List Char
  beforeColon : Blanks
  afterColon : Blanks
  value : List Char
  after : Blanks

namespace Member

def padded (m : Member) : Padded where
  before := m.before
  text := m.key ++ (m.beforeColon.1 ++ ':' :: (m.afterColon.1 ++ m.value))
  after := m.after

def bare (key value : List Char) : Member := ⟨noBlanks, key, noBlanks, noBlanks, value, noBlanks⟩

theorem full_bare (key value : List Char) : (bare key value).padded.full = key ++ ':' :: value := by
  simp [Padded.full, padded, bare, noBlanks]

/-- The member is a way to write the field, `value` saying which texts are ways to write its
value. -/
def Writes {α : Type} (value : α → List Char → Prop) (field : String × α) (m : Member) : Prop :=
  Spells field.1 m.key ∧ value field.2 m.value

theorem writes_bare {α : Type} {value : α → List Char → Prop} {field : String × α}
    {key text : List Char} (hkey : Spells field.1 key) (hvalue : value field.2 text) :
    (bare key text).Writes value field := ⟨hkey, hvalue⟩

end Member

def objectText (lead : Blanks) (members : List Member) : List Char :=
  '\x7b' :: (listText lead (members.map Member.padded) ++ ['\x7d'])

/-- The ways to write an object with the fields in order, keys repeated or not. -/
inductive WritesObject {α : Type} (value : α → List Char → Prop) (fields : List (String × α)) :
    List Char → Prop
  | intro (lead : Blanks) {members : List Member}
    (h : List.Forall₂ (Member.Writes value) fields members) :
    WritesObject value fields (objectText lead members)

/-- The whole text is one of those, with blanks around it. -/
def IsText (texts : List Char → Prop) (text : String) : Prop :=
  ∃ (before after : Blanks) (cs : List Char),
    text.toList = before.1 ++ (cs ++ after.1) ∧ texts cs

theorem isText_of_toList {texts : List Char → Prop} {text : String} (h : texts text.toList) :
    IsText texts text := ⟨noBlanks, noBlanks, text.toList, by simp [noBlanks], h⟩

namespace Reader

variable {σ : Type}

/-- A member of an object, `entry` reading on from after its key. -/
def member (entry : σ → String → Reader σ) (s : σ) : Reader σ := do
  if (← next) = '"' then entry s (← string) else throw .malformed

theorem object_eq_gather (entry : σ → String → Reader σ) (start : σ) :
    object entry start = gather '\x7d' (member entry) start := rfl

theorem startsPart_of_spells {key : String} {text : List Char} (h : Spells key text)
    (r : List Char) : StartsPart '\x7d' (text ++ r) := by
  obtain ⟨h⟩ := h
  exact ⟨'"', _, rfl, by decide, by decide⟩

theorem member_of_spells {key : String} {text : List Char} (h : Spells key text)
    (entry : σ → String → Reader σ) (s : σ) (r : List Char) :
    member entry s (text ++ r) = entry s key r := by
  have hstring := string_of_spells h r
  obtain ⟨h⟩ := h
  unfold member
  rw [List.cons_append] at hstring ⊢
  rw [bind_of_ok (next_cons (by decide) _), if_pos rfl, bind_of_ok hstring]

theorem colon_append (ws : Blanks) (cs : List Char) :
    colon (ws.1 ++ ':' :: cs) = .ok ((), cs) := by
  unfold colon
  rw [next_bind_blanks, bind_of_ok (next_cons (by decide) _), if_pos rfl]
  rfl

/-- A member is read from its key on. -/
theorem readsPart_member {key : String} {text rest : List Char} (h : Spells key text)
    {entry : σ → String → Reader σ} {s s' : σ} (hentry : ∀ r, EndsBefore continuesNumber r →
      entry s key (rest ++ r) = .ok (s', r)) :
    ReadsPart '\x7d' (member entry s) (text ++ rest) s' := by
  refine ⟨startsPart_of_spells h rest, fun r hr => ?_⟩
  rw [List.append_assoc, member_of_spells h, hentry r hr]

end Reader

end ScriptWriter.Json
