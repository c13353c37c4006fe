import ScriptWriter.Options.Json
import ScriptWriter.Proofs.JsonReading
import ScriptWriter.Proofs.Skipping

/-!
# Options read from text

Options read from an object are the defaults with the setter of each known field applied
(`read_of_writesObject`). The order of the fields makes no difference (`foldl_apply_perm`), and
fields of other names are skipped. A known field that comes again, or whose value no setting has,
fails where it stands, whatever follows (`readField_given`, `readField_mistyped`). So an object
that is well-formed up to such a field fails (`object_fails`): each field before it sets its key or
fails itself (`reads_or_fails`).

Keys are strings, written in any way; an escape for half of a pair is none.
-/

namespace ScriptWriter.Options

open Json Json.Reader

/-! ## Settings -/

/-- A field that is set to a value. -/
inductive Setting where
  | escapeDollar (on : Bool)
  | escapeLineTerminators (on : Bool)
  | maxDepth (limit : UInt32)

def knownKeys : List String := ["escapeDollar", "escapeLineTerminators", "maxDepth"]

namespace Setting

def key : Setting → String
  | escapeDollar _ => "escapeDollar"
  | escapeLineTerminators _ => "escapeLineTerminators"
  | maxDepth _ => "maxDepth"

/-- The text of the value: a limit is written in decimal. -/
def value : Setting → List Char
  | escapeDollar on => flagText on
  | escapeLineTerminators on => flagText on
  | maxDepth limit => Nat.toDigits 10 limit.toNat

def field (s : Setting) : String × List Char := (s.key, s.value)

def apply (o : Options) : Setting → Options
  | escapeDollar on => o.withEscapeDollar on
  | escapeLineTerminators on => o.withEscapeLineTerminators on
  | maxDepth limit => o.withMaxDepth limit

/-- The fields that a text gives once it gives this one too. -/
def put (g : Given) : Setting → Given
  | escapeDollar on => { g with escapeDollar := some on }
  | escapeLineTerminators on => { g with escapeLineTerminators := some on }
  | maxDepth limit => { g with maxDepth := some limit }

theorem complete_put (g : Given) (s : Setting) : (s.put g).complete = s.apply g.complete := by
  cases s <;> rfl

theorem complete_foldl (settings : List Setting) (g : Given) :
    (settings.foldl put g).complete = settings.foldl apply g.complete := by
  induction settings generalizing g with
  | nil => rfl
  | cons s settings ih => rw [List.foldl_cons, ih, complete_put, List.foldl_cons]

end Setting

/-- The field is given. -/
def Given.has (g : Given) (key : String) : Bool :=
  if key = "escapeDollar" then g.escapeDollar.isSome
  else if key = "escapeLineTerminators" then g.escapeLineTerminators.isSome
  else if key = "maxDepth" then g.maxDepth.isSome
  else false

theorem Given.has_put (g : Given) (s : Setting) (key : String) :
    (s.put g).has key = true ↔ g.has key = true ∨ key = s.key := by
  cases s <;> unfold Given.has Setting.put Setting.key <;> split_ifs <;> simp_all

/-! ## Values of fields -/

theorem readFlag_append (on : Bool) (ws : Blanks) (r : List Char) :
    readFlag (ws.1 ++ (flagText on ++ r)) = .ok (on, r) := by
  unfold readFlag
  rw [next_bind_blanks]
  cases on with
  | true =>
    have hword : word ['t', 'r', 'u', 'e'] (flagText true ++ r) = .ok ((), r) := word_append _ r
    have hnext : next (flagText true ++ r) = .ok ('t', flagText true ++ r) :=
      next_cons (by decide) _
    rw [bind_of_ok hnext, if_pos rfl]
    exact bind_of_ok hword
  | false =>
    have hword : word ['f', 'a', 'l', 's', 'e'] (flagText false ++ r) = .ok ((), r) :=
      word_append _ r
    have hnext : next (flagText false ++ r) = .ok ('f', flagText false ++ r) :=
      next_cons (by decide) _
    rw [bind_of_ok hnext, if_neg (by decide), if_pos rfl]
    exact bind_of_ok hword

theorem toList_compact_limit (limit : UInt32) :
    (Number.natural limit.toUInt64).compact.toList = Nat.toDigits 10 limit.toNat := by
  simp [Number.compact, intText, Int.not_lt.2 (Int.natCast_nonneg limit.toNat)]

theorem readLimit_append (limit : UInt32) (ws : Blanks) {r : List Char}
    (hr : EndsBefore continuesNumber r) :
    readLimit (ws.1 ++ (Nat.toDigits 10 limit.toNat ++ r)) = .ok (limit, r) := by
  have hdigits := digits_toDigits limit.toNat
  have hnumber : number (Nat.toDigits 10 limit.toNat ++ r) = .ok (.natural limit.toUInt64, r) := by
    have hread := number_text (Number.wellFormed_numeral _)
      (Number.toNumber?_numeral (n := .natural limit.toUInt64) rfl) hr
    rwa [Number.text_numeral rfl, toList_compact_limit] at hread
  obtain ⟨c, rest, hcons⟩ := List.exists_cons_of_ne_nil hdigits.1
  have hc : c = '-' ∨ c.isDigit = true := Or.inr (hdigits.2 c (hcons ▸ List.mem_cons_self))
  unfold readLimit
  rw [hcons, List.cons_append] at hnumber ⊢
  rw [next_bind_blanks, bind_of_ok (next_cons (isBlank_of_startsNumber hc) _), if_pos hc,
    bind_of_ok hnumber]
  dsimp only
  rw [if_pos (by simpa using limit.toNat_lt_size)]
  simp
  rfl

theorem refuse_fails {α : Type} (expected : Expected) (cs : List Char) :
    ∃ e, (refuse expected : Reader α) cs = .error e := by
  unfold refuse
  cases hnext : next cs with
  | error e => exact ⟨e, bind_of_error hnext⟩
  | ok p =>
    rw [bind_of_ok hnext]
    split_ifs
    · exact ⟨_, rfl⟩
    · exact ⟨_, rfl⟩
    · cases hvalue : primitive p.1 p.2 with
      | error e => exact ⟨e, bind_of_error hvalue⟩
      | ok q =>
        rw [bind_of_ok hvalue]
        exact ⟨_, rfl⟩

/-- A value that starts as a flag does is one. -/
theorem flag_of_head {c : Char} {cs : List Char} (h : ValueText (c :: cs))
    (hc : c = 't' ∨ c = 'f') : ∃ on, c :: cs = flagText on := by
  generalize hv : c :: cs = v at h
  cases h with
  | null => cases hv; simp at hc
  | flag on => exact ⟨on, rfl⟩
  | number h =>
    obtain ⟨d, rest, rfl, hd⟩ := h.cons
    cases hv
    rcases hc with rfl | rfl <;> simp at hd
  | string h =>
    obtain ⟨rest, rfl⟩ := h.cons
    cases hv; simp at hc
  | array => cases hv; simp at hc
  | object => cases hv; simp at hc

theorem readFlag_fails {v : List Char} (h : ValueText v) (hwrong : ∀ on, v ≠ flagText on)
    (ws : Blanks) (rest : List Char) : ∃ e, readFlag (ws.1 ++ (v ++ rest)) = .error e := by
  obtain ⟨c, cs, rfl, hblank, -⟩ := h.head
  have hc : c ≠ 't' ∧ c ≠ 'f' := by
    rw [← not_or]
    intro hc
    obtain ⟨on, hon⟩ := flag_of_head h hc
    exact hwrong on hon
  unfold readFlag
  rw [next_bind_blanks, List.cons_append, bind_of_ok (next_cons hblank _), if_neg hc.1,
    if_neg hc.2]
  exact refuse_fails _ _

/-- A limit is read from its decimal alone. -/
theorem readLimit_eq_ok {c : Char} {cs r : List Char} {limit : UInt32}
    (hnext : next cs = .ok (c, cs)) (h : readLimit cs = .ok (limit, r)) :
    cs = Nat.toDigits 10 limit.toNat ++ r ∧ EndsBefore continuesNumber r := by
  unfold readLimit at h
  rw [bind_of_ok hnext] at h
  split at h
  · obtain ⟨k, rest, hnumber, h⟩ := bind_eq_ok h
    cases k with
    | natural n =>
      dsimp only at h
      split at h
      · rename_i hsize
        cases h
        have hlimit : n.toUInt32.toNat = n.toNat := by simpa using Nat.mod_eq_of_lt hsize
        rw [hlimit]
        exact number_eq_natural hnumber
      · cases h
    | negative n => cases h
    | float x => cases h
  · obtain ⟨e, he⟩ := @refuse_fails UInt32 .word cs
    rw [he] at h
    cases h

/-- A value that starts with a digit is a number: the digits before the point, and then nothing or
what a number may go on with. -/
theorem digits_of_head {c : Char} {cs : List Char} (h : ValueText (c :: cs))
    (hc : c.isDigit = true) : ∃ ds tail, c :: cs = ds ++ tail ∧ Digits ds
      ∧ (ds = ['0'] ∨ ds.head? ≠ some '0') ∧ GoesOn tail := by
  generalize hv : c :: cs = v at h
  cases h with
  | null => cases hv; cases hc
  | flag on => cases on <;> cases hv <;> cases hc
  | @number n _ h =>
    obtain ⟨h, hexponent⟩ := h
    cases hnegative : n.negative with
    | true =>
      rw [hnegative] at hv
      cases hv
      cases hc
    | false => exact ⟨n.whole, _, rfl, h.whole, h.leading, goesOn_of_written n.fraction hexponent⟩
  | string h =>
    obtain ⟨rest, rfl⟩ := h.cons
    cases hv; cases hc
  | array => cases hv; cases hc
  | object => cases hv; cases hc

/-- If the digits before the point start the decimal of a number, no more belongs to the value. -/
theorem value_le_of_append {ds tail rest r : List Char} {n : Nat} (hds : Digits ds)
    (htail : GoesOn tail) (h : ds ++ (tail ++ rest) = Nat.toDigits 10 n ++ r)
    (hr : EndsBefore continuesNumber r) : tail = [] ∧ Numeral.value ds ≤ n := by
  have hvalue : Numeral.value (Nat.toDigits 10 n) = n := Nat.ofDigitChars_ten_toDigits
  have hdigit : EndsBefore Char.isDigit r := hr.mono fun c hc => by simp_all [continuesNumber]
  rcases htail with rfl | ⟨d, t, rfl, hd, hgoes⟩
  · refine ⟨rfl, ?_⟩
    rcases List.append_eq_append_iff.1 h with ⟨more, hmore, -⟩ | ⟨more, hmore, rfl⟩
    · rw [← hvalue, hmore]
      exact Numeral.value_le_append ds more
    · cases more with
      | nil => rw [hmore, List.append_nil, hvalue]
      | cons c more =>
        have hc : c.isDigit = true := hds.2 c (by simp [hmore])
        exact absurd hc (by rw [show c.isDigit = false from hdigit]; decide)
  · -- both sides have the same digits in front, so what is left goes on like a number
    have hleft := takeWhile_append (r := d :: t ++ rest) hds.2 hd
    have hright := takeWhile_append (digits_toDigits n).2 hdigit
    rw [h, hright] at hleft
    rw [hleft, List.append_cancel_left_eq] at h
    subst h
    exact absurd hgoes (by rw [show continuesNumber d = false from hr]; decide)

theorem readLimit_fails {v : List Char} (h : ValueText v)
    (hwrong : ∀ limit : UInt32, v ≠ Nat.toDigits 10 limit.toNat)
    (ws : Blanks) (rest : List Char) : ∃ e, readLimit (ws.1 ++ (v ++ rest)) = .error e := by
  have hblanks : readLimit (ws.1 ++ (v ++ rest)) = readLimit (v ++ rest) := next_bind_blanks _ _ _
  rw [hblanks]
  cases hread : readLimit (v ++ rest) with
  | error e => exact ⟨e, rfl⟩
  | ok p =>
    exfalso
    obtain ⟨limit, r⟩ := p
    obtain ⟨c, cs, rfl, hblank, -⟩ := h.head
    have hnext : next (c :: cs ++ rest) = .ok (c, c :: cs ++ rest) := next_cons hblank _
    obtain ⟨happend, hends⟩ := readLimit_eq_ok hnext hread
    have hdigits := digits_toDigits limit.toNat
    have hc : c.isDigit = true := by
      obtain ⟨d, ds, hcons⟩ := List.exists_cons_of_ne_nil hdigits.1
      rw [hcons] at happend
      obtain rfl : c = d := (List.cons.inj happend).1
      exact hdigits.2 c (hcons ▸ List.mem_cons_self)
    obtain ⟨ds, tail, hsplit, hds, hlead, htail⟩ := digits_of_head h hc
    rw [hsplit, List.append_assoc] at happend
    obtain ⟨rfl, hle⟩ := value_le_of_append hds htail happend hends
    have hlt : Numeral.value ds < UInt32.size := Nat.lt_of_le_of_lt hle limit.toNat_lt_size
    refine hwrong (UInt32.ofNat (Numeral.value ds)) ?_
    rw [UInt32.toNat_ofNat_of_lt' hlt, toDigits_value hds hlead, hsplit, List.append_nil]

/-! ## Fields -/

section Once

variable {α : Type} {value : Reader α} {name : String}

theorem once_of_ok {cs r : List Char} {a : α} (h : value cs = .ok (a, r)) (ws : Blanks) :
    once name none value (ws.1 ++ ':' :: cs) = .ok (some a, r) := by
  have hthen : (do colon; some <$> value : Reader (Option α)) (ws.1 ++ ':' :: cs)
      = .ok (some a, r) := by
    rw [bind_of_ok (colon_append ws cs), map_of_ok h]
  exact hthen

theorem once_of_isSome {given : Option α} (h : given.isSome = true) (cs : List Char) :
    once name given value cs = .error (.mismatch (.repeated name)) := by
  unfold once
  rw [if_pos h]
  rfl

theorem once_of_error {cs : List Char} {e : ReadError} (h : value cs = .error e)
    (given : Option α) (ws : Blanks) :
    ∃ e', once name given value (ws.1 ++ ':' :: cs) = .error e' := by
  cases given with
  | some a => exact ⟨_, once_of_isSome rfl _⟩
  | none =>
    have hthen : (do colon; some <$> value : Reader (Option α)) (ws.1 ++ ':' :: cs)
        = .error e := by
      rw [bind_of_ok (colon_append ws cs), map_of_error h]
    exact ⟨e, hthen⟩

end Once

/-- A field that is not given yet is set. -/
theorem readField_setting {g : Given} {s : Setting} (h : g.has s.key = false) (ws ws' : Blanks)
    {r : List Char} (hr : EndsBefore continuesNumber r) :
    readField g s.key (ws.1 ++ ':' :: (ws'.1 ++ (s.value ++ r))) = .ok (s.put g, r) := by
  obtain ⟨dollar, terminators, depth⟩ := g
  unfold readField
  cases s with
  | escapeDollar on =>
    obtain rfl : dollar = none := by simpa [Given.has, Setting.key] using h
    rw [Setting.key, if_pos rfl]
    exact bind_of_ok (once_of_ok (readFlag_append on ws' r) ws)
  | escapeLineTerminators on =>
    obtain rfl : terminators = none := by simpa [Given.has, Setting.key] using h
    rw [Setting.key, if_neg (by simp), if_pos rfl]
    exact bind_of_ok (once_of_ok (readFlag_append on ws' r) ws)
  | maxDepth limit =>
    obtain rfl : depth = none := by simpa [Given.has, Setting.key] using h
    rw [Setting.key, if_neg (by simp), if_neg (by simp), if_pos rfl]
    exact bind_of_ok (once_of_ok (readLimit_append limit ws' hr) ws)

/-- A field of another name is skipped. -/
theorem readField_unknown {key : String} (hkey : key ∉ knownKeys) {v : List Char}
    (hv : ValueText v) (g : Given) (ws ws' : Blanks) {r : List Char}
    (hr : EndsBefore continuesNumber r) :
    readField g key (ws.1 ++ ':' :: (ws'.1 ++ (v ++ r))) = .ok (g, r) := by
  simp only [knownKeys, List.mem_cons, List.not_mem_nil, or_false, not_or] at hkey
  unfold readField
  rw [if_neg hkey.1, if_neg hkey.2.1, if_neg hkey.2.2, bind_of_ok (colon_append ws _),
    bind_of_ok (skipValue_append hv hr ws')]
  rfl

theorem readField_given {g : Given} {key : String} (h : g.has key = true) (cs : List Char) :
    ∃ e, readField g key cs = .error e := by
  unfold Given.has at h
  unfold readField
  split_ifs at h ⊢
  · exact ⟨_, bind_of_error (once_of_isSome h cs)⟩
  · exact ⟨_, bind_of_error (once_of_isSome h cs)⟩
  · exact ⟨_, bind_of_error (once_of_isSome h cs)⟩

/-- A known field fails on a value that no setting has, given before or not. -/
theorem readField_mistyped {key : String} (hkey : key ∈ knownKeys) {v : List Char}
    (hv : ValueText v) (hwrong : ∀ s : Setting, s.field ≠ (key, v)) (g : Given) (ws ws' : Blanks)
    (rest : List Char) :
    ∃ e, readField g key (ws.1 ++ ':' :: (ws'.1 ++ (v ++ rest))) = .error e := by
  simp only [knownKeys, List.mem_cons, List.not_mem_nil, or_false] at hkey
  unfold readField
  rcases hkey with rfl | rfl | rfl
  · obtain ⟨e, he⟩ := readFlag_fails hv
      (fun on heq => hwrong (.escapeDollar on) (by rw [heq]; rfl)) ws' rest
    obtain ⟨e', he'⟩ := once_of_error he g.escapeDollar ws
    exact ⟨e', bind_of_error he'⟩
  · obtain ⟨e, he⟩ := readFlag_fails hv
      (fun on heq => hwrong (.escapeLineTerminators on) (by rw [heq]; rfl)) ws' rest
    obtain ⟨e', he'⟩ := once_of_error he g.escapeLineTerminators ws
    exact ⟨e', bind_of_error he'⟩
  · obtain ⟨e, he⟩ := readLimit_fails hv
      (fun limit heq => hwrong (.maxDepth limit) (by rw [heq]; rfl)) ws' rest
    obtain ⟨e', he'⟩ := once_of_error he g.maxDepth ws
    exact ⟨e', bind_of_error he'⟩

/-! ## Objects -/

section Objects

variable {g : Given} {f : String × List Char} {m : Member}

theorem readsPart_of_readField {g' : Given} (hm : m.Writes (· = ·) f)
    (h : ∀ r, EndsBefore continuesNumber r →
      readField g f.1 (m.beforeColon.1 ++ ':' :: (m.afterColon.1 ++ (f.2 ++ r))) = .ok (g', r)) :
    ReadsPart '\x7d' (member readField g) m.padded.text g' := by
  refine readsPart_member hm.1 fun r hr => ?_
  rw [← hm.2, List.append_assoc, List.cons_append, List.append_assoc]
  exact h r hr

theorem readsPart_setting {s : Setting} (hm : m.Writes (· = ·) s.field)
    (h : g.has s.key = false) : ReadsPart '\x7d' (member readField g) m.padded.text (s.put g) :=
  readsPart_of_readField hm fun _ hr => readField_setting h _ _ hr

theorem readsPart_unknown (hm : m.Writes (· = ·) f) (hkey : f.1 ∉ knownKeys)
    (hv : ValueText f.2) : ReadsPart '\x7d' (member readField g) m.padded.text g :=
  readsPart_of_readField hm fun _ hr => readField_unknown hkey hv g _ _ hr

/-- The known fields are set one after another, and the others are passed over. -/
theorem reads_fields {fields : List (String × List Char)} {members : List Member}
    (hm : List.Forall₂ (Member.Writes (· = ·)) fields members) (hv : ∀ f ∈ fields, ValueText f.2)
    {settings : List Setting} (hs : fields.filter (·.1 ∈ knownKeys) = settings.map Setting.field)
    (hdistinct : (settings.map Setting.key).Nodup) (hg : ∀ s ∈ settings, g.has s.key = false) :
    Reads '\x7d' (member readField) g (members.map Member.padded)
      (settings.foldl Setting.put g) := by
  induction hm generalizing g settings with
  | nil =>
    obtain rfl : settings = [] := by simpa using hs.symm
    exact .nil
  | @cons f m fields members hfm _ ih =>
    have hv' : ∀ f ∈ fields, ValueText f.2 := fun f hf => hv f (List.mem_cons_of_mem _ hf)
    by_cases hkey : f.1 ∈ knownKeys
    · rw [List.filter_cons_of_pos (by simpa using hkey)] at hs
      obtain ⟨s, settings, rfl, rfl, hrest⟩ := List.map_eq_cons_iff.1 hs.symm
      rw [List.map_cons, List.nodup_cons] at hdistinct
      refine .cons (readsPart_setting hfm (hg s List.mem_cons_self))
        (ih hv' hrest.symm hdistinct.2 fun s' hs' => ?_)
      rw [← Bool.not_eq_true, Given.has_put, hg s' (List.mem_cons_of_mem _ hs')]
      rintro (h | h)
      · cases h
      · exact hdistinct.1 (h ▸ List.mem_map_of_mem hs')
    · rw [List.filter_cons_of_neg (by simpa using hkey)] at hs
      exact .cons (readsPart_unknown hfm hkey (hv f List.mem_cons_self)) (ih hv' hs hdistinct hg)

/-- A field with a well-formed value either sets its key or fails whatever follows. -/
theorem readsPart_or_fails (g : Given) (hm : m.Writes (· = ·) f) (hv : ValueText f.2) :
    (∃ g', ReadsPart '\x7d' (member readField g) m.padded.text g'
      ∧ ∀ key ∈ knownKeys, g.has key = true ∨ key = f.1 → g'.has key = true)
    ∨ ∀ rest, ∃ e, member readField g (m.padded.text ++ rest) = .error e := by
  have hmember (rest : List Char) : member readField g (m.padded.text ++ rest)
      = readField g f.1 (m.beforeColon.1 ++ ':' :: (m.afterColon.1 ++ (f.2 ++ rest))) := by
    rw [Member.padded, List.append_assoc, member_of_spells hm.1, ← hm.2]
    simp only [List.append_assoc, List.cons_append]
  by_cases hkey : f.1 ∈ knownKeys
  · by_cases hgiven : g.has f.1 = true
    · refine Or.inr fun rest => ?_
      rw [hmember]
      exact readField_given hgiven _
    · by_cases hright : ∃ s : Setting, s.field = f
      · obtain ⟨s, rfl⟩ := hright
        refine Or.inl ⟨s.put g, readsPart_setting hm (Bool.eq_false_of_not_eq_true hgiven), ?_⟩
        exact fun key _ h => (Given.has_put g s key).2 h
      · refine Or.inr fun rest => ?_
        rw [hmember]
        exact readField_mistyped hkey hv (fun s hs => hright ⟨s, hs⟩) g _ _ rest
  · refine Or.inl ⟨g, readsPart_unknown hm hkey hv, fun key hknown h => ?_⟩
    exact h.resolve_right fun heq => hkey (heq ▸ hknown)

/-- Fields with well-formed values set their keys, up to one that fails whatever follows. -/
theorem reads_or_fails {fields : List (String × List Char)} {members : List Member}
    (hm : List.Forall₂ (Member.Writes (· = ·)) fields members) (hv : ∀ f ∈ fields, ValueText f.2)
    (g : Given) :
    (∃ g', Reads '\x7d' (member readField) g (members.map Member.padded) g'
      ∧ ∀ key ∈ knownKeys, g.has key = true ∨ key ∈ fields.map Prod.fst → g'.has key = true)
    ∨ ∃ before m after g', members = before ++ m :: after
      ∧ Reads '\x7d' (member readField) g (before.map Member.padded) g'
      ∧ StartsPart '\x7d' m.padded.text
      ∧ ∀ rest, ∃ e, member readField g' (m.padded.text ++ rest) = .error e := by
  induction hm generalizing g with
  | nil => exact Or.inl ⟨g, .nil, fun key _ h => h.resolve_right (by simp)⟩
  | @cons f m fields members hfm _ ih =>
    rcases readsPart_or_fails g hfm (hv f List.mem_cons_self) with ⟨g', hpart, hkeys⟩ | hfails
    · rcases ih (fun f hf => hv f (List.mem_cons_of_mem _ hf)) g' with
        ⟨g'', hreads, hkeys'⟩ | ⟨before, m', after, g'', rfl, hreads, hfails⟩
      · refine Or.inl ⟨g'', .cons hpart hreads, fun key hknown h => hkeys' key hknown ?_⟩
        rw [List.map_cons, List.mem_cons, ← or_assoc] at h
        exact h.imp_left (hkeys key hknown)
      · exact Or.inr ⟨m :: before, m', after, g'', rfl, .cons hpart hreads, hfails⟩
    · exact Or.inr ⟨[], m, members, g, rfl, .nil, startsPart_of_spells hfm.1 _, hfails⟩

end Objects

/-- The ways an object may start: some fields in order, and then something else. -/
inductive OpensObject (fields : List (String × List Char)) (last : List Char) : List Char → Prop
  | intro (lead before : Blanks) {members : List Member}
    (h : List.Forall₂ (Member.Writes (· = ·)) fields members) :
    OpensObject fields last ('\x7b' :: (lead.1 ++
      [','].intercalate (members.map (·.padded.full) ++ [before.1 ++ last])))

/-- What an object may not go on with after the given fields: a known key that it has, or one with
a value of the wrong kind or range, whatever follows. -/
inductive Fault (prior : List (String × List Char)) : List Char → Prop
  | repeated {key : String} {text : List Char} (hkey : key ∈ knownKeys)
    (hprior : key ∈ prior.map Prod.fst) (h : Spells key text) (rest : List Char) :
    Fault prior (text ++ rest)
  | mistyped {key : String} {v : List Char} {m : Member} (hkey : key ∈ knownKeys)
    (hv : ValueText v) (hwrong : ∀ s : Setting, s.field ≠ (key, v))
    (h : m.Writes (· = ·) (key, v)) (rest : List Char) : Fault prior (m.padded.text ++ rest)

theorem Fault.startsPart {prior : List (String × List Char)} {last : List Char}
    (h : Fault prior last) : StartsPart '\x7d' last := by
  cases h with
  | repeated _ _ h rest => exact startsPart_of_spells h rest
  | mistyped _ _ _ h rest => exact (startsPart_of_spells h.1 _).append rest

theorem Fault.fails {prior : List (String × List Char)} {last : List Char} (h : Fault prior last)
    {g : Given} (hg : ∀ key ∈ knownKeys, key ∈ prior.map Prod.fst → g.has key = true) :
    ∃ e, member readField g last = .error e := by
  cases h with
  | @repeated key text hkey hprior h rest =>
    rw [member_of_spells h]
    exact readField_given (hg key hkey hprior) rest
  | @mistyped key v m hkey hv hwrong h rest =>
    obtain ⟨hspells, rfl⟩ := h
    rw [Member.padded, List.append_assoc, member_of_spells hspells]
    simp only [List.append_assoc, List.cons_append]
    exact readField_mistyped hkey hv hwrong g _ _ rest

theorem object_fails {prior : List (String × List Char)} {last cs : List Char}
    (hv : ∀ f ∈ prior, ValueText f.2) (hlast : Fault prior last) (h : OpensObject prior last cs) :
    ∃ e, object readField {} cs = .error e := by
  obtain ⟨lead, before, hm⟩ := h
  rw [object_eq_gather]
  rcases reads_or_fails hm hv {} with ⟨g, hreads, hkeys⟩ |
    ⟨first, m, more, g, rfl, hreads, hstarts, hfails⟩
  · obtain ⟨e, he⟩ := hlast.fails fun key hknown h => hkeys key hknown (Or.inr h)
    have hgather := gather_fails closes_brace hreads hlast.startsPart he '\x7b' lead before
    rw [List.map_map] at hgather
    exact ⟨e, hgather⟩
  · -- the part that fails stands before the last one: all from it on is the rest
    rw [List.map_append, List.map_cons, List.append_assoc, List.cons_append,
      intercalate_append_cons, Padded.full, List.append_assoc, List.append_assoc]
    obtain ⟨e, he⟩ := hfails (m.padded.after.1 ++ _)
    have hgather := gather_fails closes_brace hreads (hstarts.append _) he '\x7b' lead
      m.padded.before
    rw [List.map_map] at hgather
    exact ⟨e, hgather⟩

theorem reader_brace (ws : Blanks) (cs : List Char) :
    reader (ws.1 ++ '\x7b' :: cs) = (Given.complete <$> object readField {}) ('\x7b' :: cs) := by
  unfold reader
  rw [next_bind_blanks, bind_of_ok (next_cons (by decide) _), if_pos rfl]

/-- An object with the fields of settings, each key once, and any others is read as the defaults
with the settings applied. -/
theorem read_of_writesObject {fields : List (String × List Char)} {settings : List Setting}
    {text : String} (hdistinct : (settings.map Setting.key).Nodup)
    (hs : fields.filter (·.1 ∈ knownKeys) = settings.map Setting.field)
    (hv : ∀ f ∈ fields, ValueText f.2) (h : IsText (WritesObject (· = ·) fields) text) :
    read text = .ok (settings.foldl Setting.apply {}) := by
  obtain ⟨before, after, _, htext, ⟨lead, hm⟩⟩ := h
  have hreads := reads_fields (g := {}) hm hv hs hdistinct fun s _ => by
    cases s <;> rfl
  have hgather := gather_reads closes_brace hreads '\x7b' lead after.1
  refine readAll_of_ok after ?_
  rw [htext, objectText, List.cons_append, reader_brace, List.append_assoc, List.singleton_append,
    object_eq_gather, map_of_ok hgather, Setting.complete_foldl]
  rfl

theorem read_fails {prior : List (String × List Char)} {last cs : List Char} {text : String}
    (hv : ∀ f ∈ prior, ValueText f.2) (hlast : Fault prior last) (h : OpensObject prior last cs)
    (ws : Blanks) (htext : text.toList = ws.1 ++ cs) : ∃ e, read text = .error e := by
  obtain ⟨e, he⟩ := object_fails hv hlast h
  obtain ⟨lead, before, hm⟩ := h
  refine ⟨e, readAll_of_error ?_⟩
  rw [htext, reader_brace, map_of_error he]

/-! ## The order of settings -/

theorem Setting.apply_comm (o : Options) {s s' : Setting} (h : s.key = s'.key → s = s') :
    s'.apply (s.apply o) = s.apply (s'.apply o) := by
  cases s <;> cases s' <;> first
    | rfl
    | rw [h rfl]

theorem foldl_apply_perm {settings settings' : List Setting} (h : settings.Perm settings')
    (hdistinct : (settings.map Setting.key).Nodup) :
    settings.foldl Setting.apply {} = settings'.foldl Setting.apply {} :=
  h.foldl_eq' (fun _ hs _ hs' o =>
    Setting.apply_comm o (List.inj_on_of_nodup_map hdistinct hs hs')) {}

theorem exists_map_eq_of_perm {α β : Type} {f : α → β} {l : List β} {xs : List α}
    (h : l.Perm (xs.map f)) : ∃ xs' : List α, l = xs'.map f ∧ xs'.Perm xs := by
  induction xs generalizing l with
  | nil => exact ⟨[], h.eq_nil, .nil⟩
  | cons x xs ih =>
    obtain ⟨before, after, rfl⟩ := List.append_of_mem (h.mem_iff.2 List.mem_cons_self)
    obtain ⟨xs', heq, hperm⟩ := ih (List.perm_middle.symm.trans h).cons_inv
    obtain ⟨first, last, rfl, rfl, rfl⟩ := List.map_eq_append_iff.1 heq.symm
    refine ⟨first ++ x :: last, by simp, ?_⟩
    exact List.perm_middle.trans (hperm.cons x)

/-! ## Options written and read -/

namespace Setting

def json : Setting → Json
  | escapeDollar on => .bool on
  | escapeLineTerminators on => .bool on
  | maxDepth limit => .number (.natural limit.toUInt64)

theorem toList_compact_json (s : Setting) : s.json.compact.toList = s.value := by
  cases s with
  | escapeDollar on => cases on <;> rfl
  | escapeLineTerminators on => cases on <;> rfl
  | maxDepth limit => exact toList_compact_limit limit

theorem valueText_value (s : Setting) : ValueText s.value := by
  cases s with
  | escapeDollar on => exact .flag on
  | escapeLineTerminators on => exact .flag on
  | maxDepth limit =>
    have hwritten := (Number.wellFormed_numeral (.natural limit.toUInt64)).written
    rw [Number.text_numeral rfl, toList_compact_limit] at hwritten
    exact .number hwritten

end Setting

/-- All fields of options, in the order they are written. -/
def settings (o : Options) : List Setting :=
  [.escapeDollar o.escapeDollar, .escapeLineTerminators o.escapeLineTerminators,
    .maxDepth o.maxDepth]

theorem toJson_eq (o : Options) :
    o.toJson = .object (o.settings.map fun s => (s.key, s.json)) := rfl

theorem read_compact (o : Options) : read o.compact = .ok o := by
  have hwrites : WritesObject (· = ·) (o.settings.map Setting.field) o.compact.toList := by
    rw [compact, toJson_eq]
    exact writesObject_compact fun s _ => ⟨rfl, s.toList_compact_json.symm⟩
  have hdistinct : (o.settings.map Setting.key).Nodup := by simp [settings, Setting.key]
  have hvalues : ∀ f ∈ o.settings.map Setting.field, ValueText f.2 := by
    intro f hf
    obtain ⟨s, -, rfl⟩ := List.mem_map.1 hf
    exact s.valueText_value
  exact read_of_writesObject hdistinct rfl hvalues (isText_of_toList hwrites)

/-- An object with the fields of some settings, each key once, in any order and among any other
fields, is read as the defaults with the settings applied. Options are read back from their own
text. An object fails that has well-formed fields first and then a known key again or with a wrong
value, whatever follows. -/
theorem read_agrees_with_setters :
    (∀ (settings : List Setting) (fields : List (String × List Char)) (text : String),
      (settings.map Setting.key).Nodup →
      (fields.filter (·.1 ∈ knownKeys)).Perm (settings.map Setting.field) →
      (∀ f ∈ fields, ValueText f.2) → IsText (WritesObject (· = ·) fields) text →
      read text = .ok (settings.foldl Setting.apply {}))
    ∧ (∀ o : Options, read o.compact = .ok o)
    ∧ ∀ (prior : List (String × List Char)) (last cs : List Char) (ws : Blanks) (text : String),
      (∀ f ∈ prior, ValueText f.2) → Fault prior last → OpensObject prior last cs →
      text.toList = ws.1 ++ cs → ∃ e, read text = .error e := by
  refine ⟨fun settings fields text hdistinct hperm hv h => ?_, read_compact,
    fun prior last cs ws text hv hlast h htext => read_fails hv hlast h ws htext⟩
  obtain ⟨settings', hs, hperm'⟩ := exists_map_eq_of_perm hperm
  have hdistinct' : (settings'.map Setting.key).Nodup := ((hperm'.map _).nodup_iff).2 hdistinct
  rw [read_of_writesObject hdistinct' hs hv h, foldl_apply_perm hperm' hdistinct']

def space : Blanks := ⟨[' '], List.forall_mem_singleton.2 rfl⟩

/-- A list with half of a pair in it. -/
def strayParts : List Padded :=
  [.bare ['1'], ⟨space, ['"', '\\', 'u', 'd', '8', '0', '0', '"'], noBlanks⟩]

def strayValue : List Char := '[' :: (listText noBlanks strayParts ++ [']'])

theorem valueText_strayValue : ValueText strayValue := by
  refine .array noBlanks fun p hp => ?_
  rcases List.mem_cons.1 hp with rfl | hp
  · exact .number (Literal.wellFormed_numeralOfInt 1).written
  · obtain rfl := List.mem_singleton.1 hp
    have hhex : HexDigits ['d', '8', '0', '0'] 0xD800 := ⟨rfl, by decide⟩
    exact .string (.intro (.cons (.numbered hhex) .nil))

/-- A known key with a letter written by number. -/
def escapedKey : List Char :=
  '"' :: ("escape".toList ++ '\\' :: 'u' :: '0' :: '0' :: '4' :: '4' :: "ollar".toList ++ ['"'])

theorem spells_escapedKey : Spells "escapeDollar" escapedKey := by
  have hhex : HexDigits ['0', '0', '4', '4'] 'D'.toNat := ⟨rfl, by decide⟩
  have hrest := SpellsChars.cons (.numbered hhex) (spellsChars_flatMap "ollar".toList)
  have hchars : SpellsChars "escapeDollar".toList _ :=
    (spellsChars_flatMap "escape".toList).append hrest
  exact .intro hchars

def mixedFields : List (String × List Char) :=
  [("x", strayValue), ("maxDepth", ['7']), ("x", ['n', 'u', 'l', 'l']),
    ("escapeDollar", flagText false)]

def mixedMembers : List Member :=
  [⟨noBlanks, (quoted "x").toList, space, space, strayValue, noBlanks⟩,
    .bare (quoted "maxDepth").toList ['7'], .bare (quoted "x").toList ['n', 'u', 'l', 'l'],
    .bare escapedKey (flagText false)]

theorem writes_mixedMembers : List.Forall₂ (Member.Writes (· = ·)) mixedFields mixedMembers :=
  .cons ⟨spells_quoted "x", rfl⟩ <| .cons ⟨spells_quoted "maxDepth", rfl⟩ <|
    .cons ⟨spells_quoted "x", rfl⟩ <| .cons ⟨spells_escapedKey, rfl⟩ .nil

theorem valueText_mixedFields : ∀ f ∈ mixedFields, ValueText f.2 := by
  have hlimit := (Setting.maxDepth 7).valueText_value
  simp only [mixedFields, List.mem_cons, List.not_mem_nil, or_false]
  rintro f (rfl | rfl | rfl | rfl)
  · exact valueText_strayValue
  · exact hlimit
  · exact .null
  · exact .flag false

def mixedText : String :=
  "\x7b\"x\" : [1, \"\\ud800\"],\"maxDepth\":7,\"x\":null,\"escape\\u0044ollar\":false\x7d"

/-- Unknown keys and the order make no difference. After those fields neither known key may come
again, even if the text ends right there. -/
theorem mixedText_read : read mixedText = .ok { escapeDollar := false, maxDepth := 7 }
    ∧ ∃ e, read (String.ofList ('\x7b' :: (listText noBlanks (mixedMembers.map Member.padded)
      ++ ',' :: (quoted "maxDepth").toList))) = .error e := by
  constructor
  · exact read_agrees_with_setters.1 [.escapeDollar false, .maxDepth 7] mixedFields mixedText
      (by simp [Setting.key]) (by decide +kernel) valueText_mixedFields
      ⟨noBlanks, noBlanks, objectText noBlanks mixedMembers, by decide +kernel,
        .intro noBlanks writes_mixedMembers⟩
  · have hfault : Fault mixedFields ((quoted "maxDepth").toList ++ []) :=
      .repeated (by decide) (by decide) (spells_quoted "maxDepth") []
    refine read_agrees_with_setters.2.2 mixedFields _ _ noBlanks _ valueText_mixedFields hfault
      (.intro noBlanks noBlanks writes_mixedMembers) ?_
    decide +kernel

end ScriptWriter.Options
