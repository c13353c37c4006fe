import Mathlib.Data.List.Dedup
import Mathlib.Data.Finset.Card
import ScriptWriter.FunctionTable.Json
import ScriptWriter.Proofs.JsonReading
import ScriptWriter.Proofs.Loading
import ScriptWriter.Proofs.Scopes

/-!
# Function tables

A table has a function for each name of its pairs, with the descriptor of the last one
(`Dict.size_ofList`, `descriptorOf_last`). So only the order of pairs with one name matters to it:
equality looks names and fields up, and JSON values as they are held are equal to themselves
(`Json.Proper.beq_self`), so tables of reordered pairs are equal (`Reordered.beq`).

An object is read by inserting its fields one after another (`readsAs_readDict`), descriptors and
tables alike. A text that lists pairs is therefore read as the table of those pairs
(`FunctionTable.read_of_writesObject`), if its descriptors list their fields so that each is read
as its value; compact texts do (`isText_pairsText`).
-/

namespace ScriptWriter

open Json Json.Reader

/-! ## Equality of JSON values -/

namespace Json

/-- A JSON value as it is held: its numbers are finite, an integer with a sign is below zero, and
the keys of an object are distinct. -/
inductive Proper : Json → Prop
  | null : Proper .null
  | bool (b : Bool) : Proper (.bool b)
  | number {n : Number} (h : n.isExact = true) : Proper (.number n)
  | string (s : String) : Proper (.string s)
  | array {items : List Json} (h : ∀ j ∈ items, Proper j) : Proper (.array items)
  | object {entries : List (String × Json)} (distinct : (entries.map Prod.fst).Nodup)
    (h : ∀ p ∈ entries, Proper p.2) : Proper (.object entries)

theorem beqItems_self {items : List Json} (h : ∀ j ∈ items, j.beq j = true) :
    beqItems items items = true := by
  induction items with
  | nil => rfl
  | cons j rest ih =>
    rw [beqItems, h j List.mem_cons_self, ih fun k hk => h k (List.mem_cons_of_mem j hk),
      Bool.and_self]

theorem beqEntries_iff (as bs : List (String × Json)) : beqEntries as bs = true
    ↔ ∀ p ∈ as, ∃ w, bs.lookup p.1 = some w ∧ p.2.beq w = true := by
  induction as with
  | nil => simp [beqEntries]
  | cons p rest ih =>
    rw [beqEntries, Bool.and_eq_true, ih, List.forall_mem_cons]
    refine and_congr_left fun _ => ?_
    rcases bs.lookup p.1 with _ | w <;> simp

theorem Number.beq_self {n : Number} (h : n.isExact = true) : n.beq n = true := by
  cases n with
  | natural n => exact beq_self_eq_true n
  | negative n => exact beq_self_eq_true n
  | float x =>
    have hnan : x.isNaN = false :=
      Bool.eq_false_of_not_eq_true (Binary64.not_isNaN_of_isFinite h)
    simp [beq, Binary64.sameNumber, hnan]

namespace Proper

variable {j : Json}

theorem beq_self (h : j.Proper) : j.beq j = true := by
  induction h with
  | null => rfl
  | bool b => exact beq_self_eq_true b
  | number h => exact Number.beq_self h
  | string s => exact beq_self_eq_true s
  | array _ ih => exact beqItems_self ih
  | object distinct _ ih =>
    rw [beq, beq_self_eq_true, Bool.true_and, beqEntries_iff]
    exact fun p hp => ⟨p.2, (lookup_eq_some_iff_mem distinct).2 hp, ih p hp⟩

theorem merged_self (h : j.Proper) : j.merged = j := by
  induction h with
  | null => rfl
  | bool b => rfl
  | number h => rfl
  | string s => rfl
  | array _ ih =>
    rw [merged, mergedItems_eq_map, List.map_congr_left ih, List.map_id']
  | @object entries distinct _ ih =>
    have hentries : mergedEntries entries = entries := by
      rw [mergedEntries_eq_map, List.map_congr_left fun p hp => by rw [ih p hp], List.map_id']
    rw [merged, hentries, Dict.entries_ofList distinct]

end Proper

end Json

/-! ## Equality of tables -/

theorem Descriptor.beq_of_perm {d d' : Descriptor} (h : d.entries.Perm d'.entries)
    (hproper : ∀ f ∈ d.entries, f.2.Proper) : Descriptor.beq d d' = true := by
  rw [Descriptor.beq, Dict.agrees_iff]
  exact ⟨h.length_eq, fun f hf => ⟨f.2, (lookup_eq_some_iff_mem d'.distinct).2 (h.subset hf),
    (hproper f hf).beq_self⟩⟩

section Pairs

variable {α : Type}

/-- The number of names. -/
theorem Dict.size_ofList (pairs : List (String × α)) :
    (Dict.ofList pairs).size = (pairs.map Prod.fst).toFinset.card := by
  have hkeys : ((Dict.ofList pairs).entries.map Prod.fst).toFinset
      = (pairs.map Prod.fst).toFinset := by
    ext k
    rw [List.mem_toFinset, List.mem_toFinset, Dict.keys_ofList, List.mem_eraseDups]
  rw [← hkeys, List.toFinset_card_of_nodup (Dict.ofList pairs).distinct, List.length_map]
  rfl

theorem lookup_eq_head_filter (pairs : List (String × α)) (name : String) :
    pairs.lookup name = ((pairs.filter (·.1 = name)).head?).map Prod.snd := by
  induction pairs with
  | nil => rfl
  | cons p rest ih =>
    obtain ⟨k, v⟩ := p
    rw [lookup_cons_eq_if, ih]
    by_cases hk : k = name
    · simp [hk]
    · simp [hk, Ne.symm hk]

/-- A name has the value of its last pair. -/
theorem Dict.get?_ofList_eq_getLast (pairs : List (String × α)) (name : String) :
    (Dict.ofList pairs).get? name = ((pairs.filter (·.1 = name)).getLast?).map Prod.snd := by
  rw [Dict.get?_ofList, lookup_eq_head_filter, List.filter_reverse, List.head?_reverse]

theorem mem_names_iff {pairs : List (String × α)} {name : String} :
    name ∈ pairs.map Prod.fst ↔ pairs.filter (·.1 = name) ≠ [] := by
  simp [List.filter_eq_nil_iff]

theorem exists_getLast_of_forall₂ {β : Type} {R : α → β → Prop} {xs : List α} {ys : List β}
    (h : List.Forall₂ R xs ys) {x : α} (hx : xs.getLast? = some x) :
    ∃ y, ys.getLast? = some y ∧ R x y := by
  induction h with
  | nil => cases hx
  | cons hab hrest ih =>
    cases hrest with
    | nil =>
      cases hx
      exact ⟨_, rfl, hab⟩
    | cons =>
      rw [List.getLast?_cons_cons] at hx ⊢
      exact ih hx

end Pairs

/-- The second pairs are the first in an order that keeps pairs of one name in theirs, with the
fields of each descriptor in any order. -/
def Reordered (pairs pairs' : List (String × Descriptor)) : Prop :=
  ∀ name, List.Forall₂ (fun p p' => p.2.entries.Perm p'.2.entries)
    (pairs.filter (·.1 = name)) (pairs'.filter (·.1 = name))

namespace Reordered

variable {pairs pairs' : List (String × Descriptor)}

theorem size_eq (h : Reordered pairs pairs') :
    (Dict.ofList pairs).size = (Dict.ofList pairs').size := by
  rw [Dict.size_ofList, Dict.size_ofList]
  refine congrArg Finset.card (Finset.ext fun name => ?_)
  rw [List.mem_toFinset, List.mem_toFinset, mem_names_iff, mem_names_iff, ← List.length_pos_iff,
    ← List.length_pos_iff, (h name).length_eq]

theorem beq (h : Reordered pairs pairs') (hproper : ∀ p ∈ pairs, ∀ f ∈ p.2.entries, f.2.Proper) :
    FunctionTable.beq (Dict.ofList pairs) (Dict.ofList pairs') = true := by
  rw [FunctionTable.beq, Dict.agrees_iff]
  refine ⟨h.size_eq, fun q hq => ?_⟩
  have hget : (Dict.ofList pairs).get? q.1 = some q.2 :=
    (lookup_eq_some_iff_mem (Dict.ofList pairs).distinct).2 hq
  rw [Dict.get?_ofList_eq_getLast] at hget
  obtain ⟨p, hlast, hp⟩ := Option.map_eq_some_iff.1 hget
  obtain ⟨p', hlast', hperm⟩ := exists_getLast_of_forall₂ (h q.1) hlast
  have hmem : p ∈ pairs := List.mem_of_mem_filter (List.mem_of_getLast? hlast)
  have hget' : (Dict.ofList pairs').get? q.1 = some p'.2 := by
    rw [Dict.get?_ofList_eq_getLast, hlast']
    rfl
  rw [← hp]
  exact ⟨p'.2, hget', Descriptor.beq_of_perm hperm (hproper p hmem)⟩

end Reordered

/-! ## Reading dictionaries -/

section ReadDict

variable {α : Type} {part : Reader α}

/-- The text is read as the value, with any blanks before it, wherever a number may end after
it. -/
def ReadsAs (part : Reader α) (a : α) (text : List Char) : Prop :=
  ∀ (ws : Blanks) (r : List Char), EndsBefore continuesNumber r →
    part (ws.1 ++ (text ++ r)) = .ok (a, r)

theorem reads_members {fields : List (String × α)} {members : List Member}
    (h : List.Forall₂ (Member.Writes (ReadsAs part)) fields members) (d : Dict α) :
    Reads '\x7d' (member fun d key => do
      colon
      pure (d.insert key (← part))) d (members.map Member.padded) (d.insertAll fields) := by
  induction h generalizing d with
  | nil => exact .nil
  | @cons f m fields members hm _ ih =>
    refine .cons (readsPart_member hm.1 fun r hr => ?_) (ih (d.insert f.1 f.2))
    rw [List.append_assoc, List.cons_append, List.append_assoc, bind_of_ok (colon_append _ _),
      bind_of_ok (hm.2 m.afterColon r hr)]
    rfl

/-- An object is read as the dictionary of its fields. -/
theorem readsAs_readDict {fields : List (String × α)} {text : List Char}
    (h : WritesObject (ReadsAs part) fields text) :
    ReadsAs (readDict part) (Dict.ofList fields) text := by
  obtain ⟨lead, hm⟩ := h
  intro ws r hr
  have hgather := gather_reads closes_brace (reads_members hm .empty) '\x7b' lead r
  unfold readDict
  rw [objectText, next_bind_blanks, List.cons_append, bind_of_ok (next_cons (by decide) _),
    if_pos rfl, List.append_assoc, List.singleton_append, object_eq_gather, hgather]
  rfl

end ReadDict

/-! ## Reading tables -/

/-- The ways to write a descriptor: each field as a text that is read as its value. -/
def Descriptor.Writes (d : Descriptor) : List Char → Prop :=
  WritesObject (ReadsAs (merged <$> value (maxLevels - 2))) d.entries

theorem Descriptor.Writes.readsAs {d : Descriptor} {text : List Char} (h : d.Writes text) :
    ReadsAs Descriptor.reader d text := by
  have hread := readsAs_readDict h
  rwa [Dict.ofList_entries] at hread

theorem FunctionTable.read_of_writesObject {pairs : List (String × Descriptor)} {text : String}
    (h : IsText (WritesObject Descriptor.Writes pairs) text) :
    FunctionTable.read text = .ok (Dict.ofList pairs) := by
  obtain ⟨before, after, cs, htext, hcs⟩ := h
  have hreads : WritesObject (ReadsAs Descriptor.reader) pairs cs := by
    obtain ⟨lead, hm⟩ := hcs
    exact .intro lead (hm.imp fun _ _ hm => ⟨hm.1, hm.2.readsAs⟩)
  have hends : EndsBefore continuesNumber after.1 := by
    simpa using endsBefore_blanks continuesNumber_of_isBlank after (r := []) trivial
  refine readAll_of_ok after ?_
  rw [htext]
  exact readsAs_readDict hreads before after.1 hends

/-- The compact text of a table. -/
def FunctionTable.pairsText (pairs : List (String × Descriptor)) : String :=
  (Json.object (pairs.map fun p => (p.1, Descriptor.toJson p.2))).compact

theorem value_blanks (levels : Nat) (ws : Blanks) (cs : List Char) :
    value levels (ws.1 ++ cs) = value levels cs := by
  cases levels <;> rw [value, next_bind_blanks]

theorem readsAs_compact {levels : Nat} {j : Json} (hproper : j.Proper)
    (hreadable : Readable levels j) :
    ReadsAs (merged <$> value levels) j j.compact.toList := by
  intro ws r hr
  have hread : value levels (ws.1 ++ (j.compact.toList ++ r)) = .ok (j, r) := by
    rw [value_blanks, value_compact hreadable hr]
  rw [map_of_ok hread, hproper.merged_self]

theorem writes_compact {d : Descriptor} (hproper : ∀ f ∈ d.entries, f.2.Proper)
    (hreadable : ∀ f ∈ d.entries, Readable (maxLevels - 2) f.2) :
    d.Writes (Descriptor.toJson d).compact.toList := by
  have hfields : ∀ f ∈ d.entries, (id f).1 = (id f).1
      ∧ ReadsAs (merged <$> value (maxLevels - 2)) (id f).2 (id f).2.compact.toList :=
    fun f hf => ⟨rfl, readsAs_compact (hproper f hf) (hreadable f hf)⟩
  have hwrites := writesObject_compact hfields
  rwa [List.map_id] at hwrites

theorem isText_pairsText {pairs : List (String × Descriptor)}
    (hproper : ∀ p ∈ pairs, ∀ f ∈ p.2.entries, f.2.Proper)
    (hreadable : ∀ p ∈ pairs, ∀ f ∈ p.2.entries, Readable (maxLevels - 2) f.2) :
    IsText (WritesObject Descriptor.Writes pairs) (FunctionTable.pairsText pairs) := by
  have hpairs : ∀ p ∈ pairs, (id p).1 = (p.1, Descriptor.toJson p.2).1
      ∧ (id p).2.Writes (p.1, Descriptor.toJson p.2).2.compact.toList :=
    fun p hp => ⟨rfl, writes_compact (hproper p hp) (hreadable p hp)⟩
  have hwrites := writesObject_compact hpairs
  rw [List.map_id] at hwrites
  exact isText_of_toList hwrites

/-! ## Looking functions up -/

theorem descriptorOf_last {before after : List (String × Descriptor)} {name : String}
    {d : Descriptor} {e : Emitter} (h : name ∉ after.map Prod.fst)
    (he : e.functions = Dict.ofList (before ++ (name, d) :: after)) :
    Emitter.descriptorOf name e = (.ok d, e) := by
  have hget : e.functions.get? name = some d := by
    rw [he, Dict.get?_ofList, List.reverse_append, List.reverse_cons, List.append_assoc,
      List.singleton_append]
    refine List.lookup_eq_some_iff.2 ⟨after.reverse, before.reverse, rfl, fun p hp => ?_⟩
    rw [bne_iff_ne]
    rintro rfl
    exact h (List.mem_map_of_mem (List.mem_reverse.1 hp))
  rw [Emitter.descriptorOf_apply, hget]

theorem descriptorOf_eq_unknown_iff {pairs : List (String × Descriptor)} {name : String}
    {e : Emitter} (he : e.functions = Dict.ofList pairs) :
    Emitter.descriptorOf name e = (.error (.error (.unknownFunction name)), e)
      ↔ name ∉ pairs.map Prod.fst := by
  have hget : e.functions.get? name = none ↔ pairs.filter (·.1 = name) = [] := by
    rw [he, Dict.get?_ofList_eq_getLast, Option.map_eq_none_iff, List.getLast?_eq_none_iff]
  rw [mem_names_iff, not_not, ← hget, Emitter.descriptorOf_apply]
  rcases e.functions.get? name with _ | d
  · exact iff_of_true rfl rfl
  · exact iff_of_false nofun nofun

/-- Inserting pairs one after another, collecting them and reading a text that lists them give one
table. It has a function for each name, with the descriptor of the last pair of that name. A
reordering that keeps the pairs of one name in their order gives an equal table, and so does one of
the fields of descriptors. The compact text is among those that list the pairs. -/
theorem tables_agree (pairs : List (String × Descriptor)) :
    pairs.foldl (fun t p => t.insert p.1 p.2) Dict.empty = Dict.ofList pairs
    ∧ (∀ text, IsText (WritesObject Descriptor.Writes pairs) text →
      FunctionTable.read text = .ok (Dict.ofList pairs))
    ∧ (Dict.ofList pairs).size = (pairs.map Prod.fst).toFinset.card
    ∧ (∀ (e : Emitter) (name : String), e.functions = Dict.ofList pairs →
      (∀ before d after, pairs = before ++ (name, d) :: after → name ∉ after.map Prod.fst →
        Emitter.descriptorOf name e = (.ok d, e))
      ∧ (Emitter.descriptorOf name e = (.error (.error (.unknownFunction name)), e)
        ↔ name ∉ pairs.map Prod.fst))
    ∧ ((∀ p ∈ pairs, ∀ f ∈ p.2.entries, f.2.Proper) →
      (∀ pairs', Reordered pairs pairs' →
        FunctionTable.beq (Dict.ofList pairs) (Dict.ofList pairs') = true)
      ∧ ((∀ p ∈ pairs, ∀ f ∈ p.2.entries, Readable (maxLevels - 2) f.2) →
        IsText (WritesObject Descriptor.Writes pairs) (FunctionTable.pairsText pairs))) := by
  refine ⟨rfl, fun text h => FunctionTable.read_of_writesObject h, Dict.size_ofList pairs,
    fun e name he => ⟨fun before d after hpairs hlast => ?_, descriptorOf_eq_unknown_iff he⟩,
    fun hproper => ⟨fun pairs' h => h.beq hproper,
      fun hreadable => isText_pairsText hproper hreadable⟩⟩
  subst hpairs
  exact descriptorOf_last hlast he

def firstFields : List (String × Json) := [("a", .number (.natural 1))]

def laterFields : List (String × Json) := [("a", .array [.bool true]), ("b", .null)]

def repeatedPairs : List (String × Descriptor) :=
  [("f", .ofList firstFields), ("g", .empty), ("f", .ofList laterFields)]

def turnedPairs : List (String × Descriptor) :=
  [("g", .empty), ("f", .ofList firstFields), ("f", .ofList laterFields.reverse)]

def repeatedText : String :=
  "\x7b\"f\":\x7b\"a\":1\x7d,\"g\":\x7b\x7d,\"f\":\x7b\"a\":[true],\"b\":null\x7d\x7d"

theorem fields_repeatedPairs {P : Json → Prop} (hnumber : P (.number (.natural 1)))
    (harray : P (.array [.bool true])) (hnull : P .null) :
    ∀ p ∈ repeatedPairs, ∀ f ∈ p.2.entries, P f.2 := by
  have hfirst : (Dict.ofList firstFields).entries = firstFields := Dict.entries_ofList (by decide)
  have hlater : (Dict.ofList laterFields).entries = laterFields := Dict.entries_ofList (by decide)
  simp only [repeatedPairs, List.forall_mem_cons, hfirst, hlater]
  simp only [firstFields, laterFields, List.forall_mem_cons]
  exact ⟨⟨hnumber, nofun⟩, nofun, ⟨harray, hnull, nofun⟩, nofun⟩

theorem reordered_turnedPairs : Reordered repeatedPairs turnedPairs := by
  have hlater :
      (Dict.ofList laterFields).entries.Perm (Dict.ofList laterFields.reverse).entries := by
    rw [Dict.entries_ofList (by decide), Dict.entries_ofList (by decide)]
    exact (List.reverse_perm _).symm
  intro name
  by_cases hf : name = "f"
  · subst hf
    exact .cons (.refl _) (.cons hlater .nil)
  by_cases hg : name = "g"
  · subst hg
    exact .cons (.refl _) .nil
  · simp [repeatedPairs, turnedPairs, Ne.symm hf, Ne.symm hg]

/-- The second descriptor of a name counts, and neither the place of another name nor the order of
fields does. -/
theorem repeatedPairs_table :
    FunctionTable.read repeatedText = .ok (Dict.ofList repeatedPairs)
    ∧ (Emitter.descriptorOf "f" { functions := Dict.ofList repeatedPairs }).1
      = .ok (.ofList laterFields)
    ∧ FunctionTable.beq (Dict.ofList repeatedPairs) (Dict.ofList turnedPairs) = true := by
  obtain ⟨-, hread, -, hget, hequal⟩ := tables_agree repeatedPairs
  have hproper : Proper (.array [.bool true]) := .array (by simp [Proper.bool])
  have hreadable : Readable (maxLevels - 2) (.array [.bool true]) :=
    .array (by simp [Readable.bool])
  obtain ⟨hturned, htext⟩ := hequal (fields_repeatedPairs (.number rfl) hproper .null)
  have hrepeated : FunctionTable.pairsText repeatedPairs = repeatedText := by decide +kernel
  refine ⟨hread _ ?_, ?_, hturned _ reordered_turnedPairs⟩
  · rw [← hrepeated]
    exact htext (fields_repeatedPairs (.number rfl) hreadable .null)
  · rw [(hget _ "f" rfl).1 [("f", .ofList firstFields), ("g", .empty)] (.ofList laterFields) [] rfl
      (by simp)]

end ScriptWriter
