import Mathlib.Data.List.Forall2
import Mathlib.Data.List.Induction
import Mathlib.Data.List.Nodup
import Mathlib.Data.List.Perm.Subperm
import ScriptWriter.Dict

/-!
# Entries and their keys

A dictionary has its keys in the order they came first, each with the value that came last
(`Dict.keys_ofList`, `Dict.get?_ofList`).

Entries agree if there are as many on both sides and each of the first side has a partner under its
key on the second. Only one side is looked at, but with distinct keys that is enough: the keys of
the second side are then no others (`EntriesAgree.flip`), so the order of the entries is nothing
that agreement depends on.
-/

namespace ScriptWriter

variable {α β : Type}

/-! ## Entries inserted one after another -/

theorem keys_insertEntry (key : String) (value : α) (entries : List (String × α)) :
    (insertEntry key value entries).map Prod.fst
      = if key ∈ entries.map Prod.fst then entries.map Prod.fst
        else entries.map Prod.fst ++ [key] := by
  induction entries with
  | nil => simp [insertEntry]
  | cons e rest ih =>
    obtain ⟨k, v⟩ := e
    by_cases hk : k = key
    · simp [insertEntry, hk]
    · simp only [insertEntry, if_neg hk, List.map_cons, ih, List.mem_cons, Ne.symm hk, false_or]
      split <;> rfl

theorem insertEntry_map (f : α → β) (key : String) (value : α) (entries : List (String × α)) :
    insertEntry key (f value) (entries.map fun p => (p.1, f p.2))
      = (insertEntry key value entries).map fun p => (p.1, f p.2) := by
  induction entries with
  | nil => rfl
  | cons e rest ih =>
    obtain ⟨k, v⟩ := e
    simp only [List.map_cons, insertEntry, ih]
    split <;> rfl

theorem lookup_map (f : α → β) (k : String) (entries : List (String × α)) :
    (entries.map fun p => (p.1, f p.2)).lookup k = (entries.lookup k).map f := by
  induction entries with
  | nil => rfl
  | cons e rest ih =>
    obtain ⟨key, v⟩ := e
    rw [List.map_cons, lookup_cons_eq_if, lookup_cons_eq_if, ih]
    split <;> rfl

theorem mem_of_lookup {k : String} {v : α} {entries : List (String × α)}
    (h : entries.lookup k = some v) : (k, v) ∈ entries := by
  obtain ⟨before, after, rfl, -⟩ := List.lookup_eq_some_iff.1 h
  exact List.mem_append_right before List.mem_cons_self

namespace Dict

theorem ofList_append_singleton (entries : List (String × α)) (e : String × α) :
    ofList (entries ++ [e]) = (ofList entries).insert e.1 e.2 :=
  List.foldl_append

/-- The keys are in the order they came first. -/
theorem keys_ofList (entries : List (String × α)) :
    (ofList entries).entries.map Prod.fst = (entries.map Prod.fst).eraseDups := by
  induction entries using List.reverseRecOn with
  | nil => rfl
  | append_singleton entries e ih =>
    have hmem : e.1 ∈ (ofList entries).entries.map Prod.fst ↔ e.1 ∈ entries.map Prod.fst := by
      rw [ih, List.mem_eraseDups]
    rw [ofList_append_singleton, entries_insert, keys_insertEntry, List.map_append,
      List.eraseDups_append, ← ih, if_congr hmem rfl rfl]
    by_cases h : e.1 ∈ entries.map Prod.fst <;>
      simp [h, List.removeAll, List.eraseDups_cons, List.eraseDups_nil]

/-- A key has the value that came last. -/
theorem get?_ofList (entries : List (String × α)) (k : String) :
    (ofList entries).get? k = entries.reverse.lookup k := by
  induction entries using List.reverseRecOn with
  | nil => rfl
  | append_singleton entries e ih =>
    rw [ofList_append_singleton, get?_insert, ih, List.reverse_append, List.reverse_singleton,
      List.singleton_append, lookup_cons_eq_if]

theorem ofList_entries (d : Dict α) : ofList d.entries = d := by
  have h := entries_ofList d.distinct
  generalize ofList d.entries = d' at h ⊢
  obtain ⟨entries, distinct⟩ := d'
  cases h
  rfl

theorem entries_ofList_map (f : α → β) (entries : List (String × α)) :
    (ofList (entries.map fun p => (p.1, f p.2))).entries
      = (ofList entries).entries.map fun p => (p.1, f p.2) := by
  induction entries using List.reverseRecOn with
  | nil => rfl
  | append_singleton entries e ih =>
    rw [List.map_append, List.map_singleton, ofList_append_singleton, ofList_append_singleton,
      entries_insert, entries_insert, ih]
    exact insertEntry_map f e.1 e.2 _

end Dict

/-! ## Distinct keys -/

theorem lookup_eq_some_iff_mem {k : String} {v : α} {entries : List (String × α)}
    (h : (entries.map Prod.fst).Nodup) : entries.lookup k = some v ↔ (k, v) ∈ entries := by
  refine ⟨mem_of_lookup, fun hmem => ?_⟩
  induction entries with
  | nil => cases hmem
  | cons e rest ih =>
    obtain ⟨key, value⟩ := e
    obtain ⟨hnew, hrest⟩ := List.nodup_cons.1 h
    rw [lookup_cons_eq_if]
    rcases List.mem_cons.1 hmem with heq | hmem
    · cases heq
      rw [if_pos rfl]
    · have hne : k ≠ key := fun hk => hnew (List.mem_map.2 ⟨_, hmem, hk⟩)
      rw [if_neg hne, ih hrest hmem]

theorem exists_lookup_of_mem_keys {k : String} {entries : List (String × α)}
    (h : k ∈ entries.map Prod.fst) : ∃ v, entries.lookup k = some v := by
  obtain ⟨⟨key, v⟩, hmem, rfl⟩ := List.mem_map.1 h
  rcases hlookup : entries.lookup key with _ | w
  · exact absurd (List.lookup_eq_none_iff.1 hlookup _ hmem) (by simp)
  · exact ⟨w, rfl⟩

/-! ## Agreement -/

/-- There are as many entries on both sides, and each key of the first is bound to a related value
in the second. -/
def EntriesAgree (R : α → α → Prop) (as bs : List (String × α)) : Prop :=
  as.length = bs.length ∧ ∀ p ∈ as, ∃ w, bs.lookup p.1 = some w ∧ R p.2 w

namespace EntriesAgree

variable {R S T : α → α → Prop} {as bs cs : List (String × α)}

/-- The second side has no other keys: there is no room for them. -/
theorem keys_subset (h : EntriesAgree R as bs) (ha : (as.map Prod.fst).Nodup) :
    bs.map Prod.fst ⊆ as.map Prod.fst := by
  have hsubset : as.map Prod.fst ⊆ bs.map Prod.fst := by
    intro k hk
    obtain ⟨p, hp, rfl⟩ := List.mem_map.1 hk
    obtain ⟨w, hw, -⟩ := h.2 p hp
    exact List.mem_map.2 ⟨_, mem_of_lookup hw, rfl⟩
  have hperm := (ha.subperm hsubset).perm_of_length_le (by simp [h.1])
  exact hperm.symm.subset

theorem flip (h : EntriesAgree R as bs) (ha : (as.map Prod.fst).Nodup)
    (hb : (bs.map Prod.fst).Nodup) (hRS : ∀ p ∈ as, ∀ q ∈ bs, R p.2 q.2 → S q.2 p.2) :
    EntriesAgree S bs as := by
  refine ⟨h.1.symm, fun q hq => ?_⟩
  obtain ⟨v, hv⟩ := exists_lookup_of_mem_keys (h.keys_subset ha (List.mem_map_of_mem hq))
  have hp := mem_of_lookup hv
  obtain ⟨w, hw, hR⟩ := h.2 _ hp
  have hq' := (lookup_eq_some_iff_mem hb).2 (show (q.1, q.2) ∈ bs from hq)
  obtain rfl : w = q.2 := Option.some.inj (hw.symm.trans hq')
  exact ⟨v, hv, hRS _ hp q hq hR⟩

theorem trans (h : EntriesAgree R as bs) (h' : EntriesAgree S bs cs)
    (hRST : ∀ p ∈ as, ∀ v w, R p.2 v → S v w → T p.2 w) : EntriesAgree T as cs := by
  refine ⟨h.1.trans h'.1, fun p hp => ?_⟩
  obtain ⟨v, hv, hR⟩ := h.2 p hp
  obtain ⟨w, hw, hS⟩ := h'.2 _ (mem_of_lookup hv)
  exact ⟨w, hw, hRST p hp v w hR hS⟩

theorem self_iff (h : (as.map Prod.fst).Nodup) :
    EntriesAgree R as as ↔ ∀ p ∈ as, R p.2 p.2 := by
  have hself {p : String × α} (hp : p ∈ as) : as.lookup p.1 = some p.2 :=
    (lookup_eq_some_iff_mem h).2 hp
  refine ⟨fun hR p hp => ?_, fun hR => ⟨rfl, fun p hp => ⟨p.2, hself hp, hR p hp⟩⟩⟩
  obtain ⟨w, hw, hRw⟩ := hR.2 p hp
  rw [hself hp] at hw
  cases hw
  exact hRw

end EntriesAgree

theorem Dict.agrees_iff (same : α → α → Bool) (a b : Dict α) : a.agrees same b = true
    ↔ EntriesAgree (fun v w => same v w = true) a.entries b.entries := by
  simp only [Dict.agrees, Dict.size, Bool.and_eq_true, beq_iff_eq, List.all_eq_true, EntriesAgree]
  refine and_congr_right fun _ => forall₂_congr fun p _ => ?_
  rw [Dict.get?]
  rcases b.entries.lookup p.1 with _ | w <;> simp

end ScriptWriter
