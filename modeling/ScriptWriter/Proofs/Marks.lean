import Mathlib.Data.List.Basic
import ScriptWriter.Proofs.StringReading

/-!
# Texts as marks

A text is a list of marks: string literals taken whole, and the characters between them. Since a
literal says itself where it ends, a text without other quotes has one list of marks
(`inscribe_injective`).

Between the literals brackets nest. `scan` follows the depth of brackets and stops at a closing
bracket that closes nothing and, if it is tight, at a separator outside all brackets. A list that a
tight scan goes through and leaves at the depth it began with is solid: it holds no separator
outside brackets, so two solid lists before separators are the same if their texts are
(`Solid.append_inj`), and no part of a bracketed list but the whole is solid (`Solid.eq_enclosed`).
-/

namespace ScriptWriter

inductive Mark where
  | char (c : Char)
  /-- A whole string literal. -/
  | literal (s : String)
deriving DecidableEq

namespace Mark

def inscription (o : Options) : Mark → List Char
  | .char c => [c]
  | .literal s => (Literal.quoted o s).toList

def inscribe (o : Options) (ms : List Mark) : List Char := ms.flatMap (inscription o)

/-- The marks of a text that holds no literal. -/
def chars (s : String) : List Mark := s.toList.map .char

@[simp] theorem inscribe_nil (o : Options) : inscribe o [] = [] := rfl

@[simp] theorem inscribe_cons (o : Options) (m : Mark) (ms : List Mark) :
    inscribe o (m :: ms) = inscription o m ++ inscribe o ms := rfl

@[simp] theorem inscribe_append (o : Options) (ms ms' : List Mark) :
    inscribe o (ms ++ ms') = inscribe o ms ++ inscribe o ms' := List.flatMap_append

@[simp] theorem inscribe_chars (o : Options) (s : String) : inscribe o (chars s) = s.toList := by
  unfold inscribe chars
  rw [List.flatMap_map]
  exact List.flatMap_singleton' s.toList

theorem char_mem_chars {c : Char} {s : String} : .char c ∈ chars s ↔ c ∈ s.toList := by
  simp [chars]

theorem chars_injective {s t : String} (h : chars s = chars t) : s = t :=
  String.toList_inj.1 (List.map_injective_iff.2 (fun _ _ hc => Mark.char.inj hc) h)

/-- The literals of two strings differ where they begin to, so neither begins the other. -/
theorem quoted_append_inj (o : Options) {s t : String} {r r' : List Char}
    (h : (Literal.quoted o s).toList ++ r = (Literal.quoted o t).toList ++ r') :
    s = t ∧ r = r' := by
  have hs := Literal.stringLiteral_quoted false o s (String.ofList r)
  have ht := Literal.stringLiteral_quoted false o t (String.ofList r')
  rw [String.toList_append, String.toList_ofList, Bool.false_and, Bool.false_and,
    if_neg Bool.false_ne_true] at hs ht
  rw [h, ht, Option.some.injEq, Prod.mk.injEq] at hs
  exact ⟨String.toList_inj.1 (Lexer.utf16_injective hs.1).symm, hs.2.symm⟩

/-- A mark that is not a quote begins with its own character, a literal with a quote. -/
theorem inscription_append_inj (o : Options) {m m' : Mark} {r r' : List Char}
    (hm : m ≠ .char '"') (hm' : m' ≠ .char '"')
    (h : inscription o m ++ r = inscription o m' ++ r') : m = m' ∧ r = r' := by
  rcases m with c | s <;> rcases m' with d | t
  · obtain ⟨rfl, hr⟩ := List.cons.inj h
    exact ⟨rfl, hr⟩
  · rw [inscription, inscription, Literal.toList_quoted] at h
    exact absurd (congrArg Mark.char (List.cons.inj h).1) hm
  · rw [inscription, inscription, Literal.toList_quoted] at h
    exact absurd (congrArg Mark.char (List.cons.inj h).1.symm) hm'
  · obtain ⟨rfl, hr⟩ := quoted_append_inj o h
    exact ⟨rfl, hr⟩

theorem inscription_ne_nil (o : Options) (m : Mark) : inscription o m ≠ [] := by
  cases m with
  | char c => exact List.cons_ne_nil c []
  | literal s =>
    rw [inscription, Literal.toList_quoted]
    exact List.cons_ne_nil _ _

theorem inscribe_injective (o : Options) {ms ms' : List Mark} (hm : .char '"' ∉ ms)
    (hm' : .char '"' ∉ ms') (h : inscribe o ms = inscribe o ms') : ms = ms' := by
  induction ms generalizing ms' with
  | nil =>
    cases ms' with
    | nil => rfl
    | cons m' ms' =>
      rw [inscribe_cons] at h
      exact absurd (List.append_eq_nil_iff.1 h.symm).1 (inscription_ne_nil o m')
  | cons m ms ih =>
    rw [List.mem_cons, not_or] at hm
    cases ms' with
    | nil =>
      rw [inscribe_cons] at h
      exact absurd (List.append_eq_nil_iff.1 h).1 (inscription_ne_nil o m)
    | cons m' ms' =>
      rw [List.mem_cons, not_or] at hm'
      rw [inscribe_cons, inscribe_cons] at h
      obtain ⟨rfl, hrest⟩ := inscription_append_inj o (Ne.symm hm.1) (Ne.symm hm'.1) h
      rw [ih hm.2 hm'.2 hrest]

/-- The first mark of a kind ends a list without it. -/
theorem append_cons_inj_of_first {a : Mark} {x x' z z' : List Mark} (hx : a ∉ x) (hx' : a ∉ x')
    (h : x ++ a :: z = x' ++ a :: z') : x = x' ∧ z = z' := by
  rcases List.append_eq_append_iff.1 h with ⟨u, rfl, hu⟩ | ⟨u, rfl, hu⟩
  · rcases u with _ | ⟨b, u⟩
    · simpa using hu
    · rw [(List.cons.inj hu).1] at hx'
      exact absurd (by simp) hx'
  · rcases u with _ | ⟨b, u⟩
    · simpa [eq_comm] using hu
    · rw [(List.cons.inj hu).1] at hx
      exact absurd (by simp) hx

/-- The last mark of a kind starts a list without it. -/
theorem append_cons_inj_of_last {a : Mark} {x x' z z' : List Mark} (hz : a ∉ z) (hz' : a ∉ z')
    (h : x ++ a :: z = x' ++ a :: z') : x = x' ∧ z = z' := by
  have hrev : z.reverse ++ a :: x.reverse = z'.reverse ++ a :: x'.reverse := by
    simpa using congrArg List.reverse h
  obtain ⟨hz, hx⟩ := append_cons_inj_of_first (by simpa using hz) (by simpa using hz') hrev
  exact ⟨List.reverse_injective hx, List.reverse_injective hz⟩

/-! ## Scanning -/

def opens : Mark → Bool
  | .char c => c = '(' || c = '[' || c = '\x7b'
  | .literal _ => false

def closes : Mark → Bool
  | .char c => c = ')' || c = ']' || c = '\x7d'
  | .literal _ => false

def separates : Mark → Bool
  | .char c => c = ' ' || c = ','
  | .literal _ => false

/-- The depth of brackets after the marks, from the given depth on. There is none if a bracket
closes nothing or, for a tight scan, if a separator stands outside all brackets. -/
def scan (tight : Bool) : Nat → List Mark → Option Nat
  | d, [] => some d
  | d, m :: ms =>
    if opens m then scan tight (d + 1) ms
    else if closes m then if d = 0 then none else scan tight (d - 1) ms
    else if tight && d = 0 && separates m then none
    else scan tight d ms

theorem scan_append (tight : Bool) : ∀ (d : Nat) (x y : List Mark),
    scan tight d (x ++ y) = (scan tight d x).bind fun d' => scan tight d' y
  | d, [], y => rfl
  | d, m :: x, y => by
    simp only [List.cons_append, scan]
    split
    · exact scan_append tight _ x y
    · split
      · split
        · rfl
        · exact scan_append tight _ x y
      · split
        · rfl
        · exact scan_append tight _ x y

/-- Inside a bracket a scan goes on as it does outside, and separators do not stop it. -/
theorem scan_succ (tight tight' : Bool) : ∀ {d d' : Nat} {x : List Mark},
    scan tight d x = some d' → scan tight' (d + 1) x = some (d' + 1)
  | d, d', [], h => by
    simp only [scan, Option.some.injEq] at h ⊢
    omega
  | d, d', m :: x, h => by
    rw [scan] at h ⊢
    by_cases ho : opens m = true
    · rw [if_pos ho] at h ⊢
      exact scan_succ tight tight' h
    rw [if_neg ho] at h ⊢
    by_cases hc : closes m = true
    · rw [if_pos hc] at h ⊢
      rcases d with _ | d
      · exact absurd h (by simp)
      · exact scan_succ tight tight' h
    rw [if_neg hc] at h ⊢
    rw [if_neg (by simp)]
    split at h
    · exact absurd h (by simp)
    · exact scan_succ tight tight' h

theorem scan_loose : ∀ {d d' : Nat} {x : List Mark},
    scan true d x = some d' → scan false d x = some d'
  | d, d', [], h => h
  | d, d', m :: x, h => by
    rw [scan] at h ⊢
    by_cases ho : opens m = true
    · rw [if_pos ho] at h ⊢
      exact scan_loose h
    rw [if_neg ho] at h ⊢
    by_cases hc : closes m = true
    · rw [if_pos hc] at h ⊢
      rcases d with _ | d
      · exact absurd h (by simp)
      · exact scan_loose h
    rw [if_neg hc] at h ⊢
    rw [if_neg (by simp)]
    split at h
    · exact absurd h (by simp)
    · exact scan_loose h

def plain (m : Mark) : Bool := !opens m && !closes m && !separates m

theorem scan_plain (tight : Bool) (d : Nat) : ∀ {x : List Mark}, (∀ m ∈ x, plain m = true) →
    scan tight d x = some d
  | [], _ => rfl
  | m :: x, h => by
    have hm := h m List.mem_cons_self
    simp only [plain, Bool.and_eq_true, Bool.not_eq_true'] at hm
    rw [scan, hm.1.1, hm.1.2, hm.2, Bool.and_false]
    exact scan_plain tight d fun m' hm' => h m' (List.mem_cons_of_mem m hm')

/-! ## Solid lists -/

/-- The brackets match and no separator stands outside them. -/
def Solid (x : List Mark) : Prop := scan true 0 x = some 0

def Loose (x : List Mark) : Prop := scan false 0 x = some 0

instance (x : List Mark) : Decidable (Solid x) :=
  inferInstanceAs (Decidable (scan true 0 x = some 0))

instance (x : List Mark) : Decidable (Loose x) :=
  inferInstanceAs (Decidable (scan false 0 x = some 0))

theorem Solid.loose {x : List Mark} (h : Solid x) : Loose x := scan_loose h

theorem Solid.of_plain {x : List Mark} (h : ∀ m ∈ x, plain m = true) : Solid x :=
  scan_plain true 0 h

theorem Solid.append {x y : List Mark} (hx : Solid x) (hy : Solid y) : Solid (x ++ y) := by
  unfold Solid
  rw [scan_append, hx]
  exact hy

theorem Loose.append {x y : List Mark} (hx : Loose x) (hy : Loose y) : Loose (x ++ y) := by
  unfold Loose
  rw [scan_append, hx]
  exact hy

theorem Solid.of_append {x y : List Mark} (hx : Solid x) (h : Solid (x ++ y)) : Solid y := by
  unfold Solid at h
  rw [scan_append, hx] at h
  exact h

/-- The list is empty or starts with a separator. -/
def Stops (x : List Mark) : Prop := ∀ m ms, x = m :: ms → separates m = true

theorem stops_nil : Stops [] := fun _ _ h => absurd h (by simp)

theorem stops_cons {m : Mark} (ms : List Mark) (h : separates m = true) : Stops (m :: ms) := by
  rintro m' ms' h'
  rw [← (List.cons.inj h').1]
  exact h

theorem not_solid_of_separates {m : Mark} {ms : List Mark} (h : separates m = true) :
    ¬ Solid (m :: ms) := by
  intro hs
  rcases m with c | s
  · have hc : c = ' ' ∨ c = ',' := by simpa [separates] using h
    rcases hc with rfl | rfl <;> exact absurd hs (by simp [Solid, scan, opens, closes, separates])
  · exact absurd h (by simp [separates])

/-- A solid list ends where a separator follows, so it can be read off its text. -/
theorem Solid.append_inj {x y r r' : List Mark} (hx : Solid x) (hy : Solid y) (hr : Stops r)
    (hr' : Stops r') (h : x ++ r = y ++ r') : x = y ∧ r = r' := by
  -- the longer one would hold the separator that follows the shorter one
  rcases List.append_eq_append_iff.1 h with ⟨u, rfl, rfl⟩ | ⟨u, rfl, rfl⟩
  · rcases u with _ | ⟨m, u⟩
    · simp
    · exact absurd (hx.of_append hy) (not_solid_of_separates (hr m _ rfl))
  · rcases u with _ | ⟨m, u⟩
    · simp
    · exact absurd (hy.of_append hx) (not_solid_of_separates (hr' m _ rfl))

theorem Solid.ne_append_cons {x y r : List Mark} {m : Mark} (hx : Solid x) (hy : Solid y)
    (hm : separates m = true) : x ≠ y ++ m :: r := by
  intro h
  obtain ⟨-, hr⟩ := hx.append_inj hy stops_nil (stops_cons r hm) (by rwa [List.append_nil])
  exact absurd hr (by simp)

/-! ## Brackets -/

def enclosed (l r : Char) (x : List Mark) : List Mark := .char l :: (x ++ [.char r])

theorem enclosed_inj {l r : Char} {x y : List Mark} (h : enclosed l r x = enclosed l r y) :
    x = y :=
  List.append_cancel_right (List.cons.inj h).2

theorem Solid.enclosed {l r : Char} {x : List Mark} (hl : opens (.char l) = true)
    (hr : closes (.char r) = true) (hr' : opens (.char r) = false) (hx : Loose x) :
    Solid (enclosed l r x) := by
  unfold Solid Mark.enclosed
  rw [scan, if_pos hl, scan_append, scan_succ false true hx]
  simp [scan, hr, hr']

/-- A bracket closes at its end and nowhere before. -/
theorem Solid.eq_enclosed {l r : Char} {x u v : List Mark} (hl : opens (.char l) = true)
    (hx : Loose x) (hu : Solid u) (hne : u ≠ []) (h : u ++ v = Mark.enclosed l r x) : v = [] := by
  rcases u with _ | ⟨m, u⟩
  · exact absurd rfl hne
  obtain ⟨rfl, hrest⟩ := List.cons.inj h
  have hopen : scan true 1 u = some 0 := by
    have := hu
    unfold Solid at this
    rwa [scan, if_pos hl] at this
  rcases List.append_eq_append_iff.1 hrest with ⟨w, rfl, -⟩ | ⟨w, rfl, hw⟩
  · -- the beginning of what is enclosed leaves its bracket open
    unfold Loose at hx
    rw [scan_append, Option.bind_eq_some_iff] at hx
    obtain ⟨d, hd, -⟩ := hx
    rw [scan_succ false true hd] at hopen
    exact absurd hopen (by simp)
  · rcases w with _ | ⟨m, w⟩
    · rw [List.append_nil, scan_succ false true hx] at hopen
      exact absurd hopen (by simp)
    · rw [List.cons_append] at hw
      exact (List.append_eq_nil_iff.1 (List.cons.inj hw).2.symm).2

theorem Solid.append_enclosed_inj {l r : Char} {u v x y : List Mark}
    (hl : opens (.char l) = true) (hu : Solid u) (hv : Solid v) (hx : Loose x) (hy : Loose y)
    (h : u ++ Mark.enclosed l r x = v ++ Mark.enclosed l r y) : u = v ∧ x = y := by
  rcases List.append_eq_append_iff.1 h with ⟨w, rfl, hw⟩ | ⟨w, rfl, hw⟩
  · rcases w with _ | ⟨m, w⟩
    · exact ⟨(List.append_nil u).symm, enclosed_inj hw⟩
    · have := Solid.eq_enclosed hl hx (hu.of_append hv) (by simp) hw.symm
      exact absurd this (by simp [Mark.enclosed])
  · rcases w with _ | ⟨m, w⟩
    · exact ⟨List.append_nil v, (enclosed_inj hw).symm⟩
    · have := Solid.eq_enclosed hl hy (hv.of_append hu) (by simp) hw.symm
      exact absurd this (by simp [Mark.enclosed])

end Mark

end ScriptWriter
