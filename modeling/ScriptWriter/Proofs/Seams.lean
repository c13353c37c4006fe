import ScriptWriter.Proofs.Tokens

/-!
# Breaks between pieces

A bracket, a separator or a blank ends what stands before it and does not go on itself
(`apart_isBreak`, `apart_of_isBreak`), so a list of pieces falls into parts there
(`Seams.isChain_break`). This holds of every relation between neighbours that a break satisfies on
both sides; `Seams` is such a relation that also holds inside a number and inside a callee.

`Spells` says that pieces are tokens and make up a text. It composes as the pieces do.
-/

namespace ScriptWriter

open Lexer

namespace Piece

/-! ## Breaks -/

def minus : Piece := .punctuator ['-']

def point : Piece := .punctuator ['.']

def breakChars : List Char := ['(', ')', '[', ']', '\x7b', '\x7d', ',', ':']

/-- Blanks, brackets and separators. -/
def isBreak : Piece → Bool
  | .blank => true
  | .punctuator t => breakChars.any fun c => t = [c]
  | _ => false

theorem isBreak_of_mem {c : Char} (hc : c ∈ breakChars) : (Piece.punctuator [c]).isBreak = true :=
  List.any_eq_true.2 ⟨c, hc, decide_eq_true rfl⟩

theorem isBreak_cases {p : Piece} (h : p.isBreak = true) :
    p = .blank ∨ ∃ c ∈ breakChars, p = .punctuator [c] := by
  cases p with
  | blank => exact Or.inl rfl
  | punctuator t =>
    obtain ⟨c, hc, ht⟩ := List.any_eq_true.1 h
    exact Or.inr ⟨c, hc, congrArg Piece.punctuator (of_decide_eq_true ht)⟩
  | _ => cases h

theorem apart_of_isBreak {p : Piece} (h : p.isBreak = true) (q : Piece) : p.apart q := by
  intro c _
  rcases isBreak_cases h with rfl | ⟨d, hd, rfl⟩
  · rfl
  · simp only [breakChars, List.mem_cons, List.not_mem_nil, or_false] at hd
    rcases hd with rfl | rfl | rfl | rfl | rfl | rfl | rfl | rfl <;> rfl

/-- A character that no punctuator has after its first continues none. -/
theorem continuesPunctuator_eq_false {t : List Char} {c : Char}
    (htail : ∀ q ∈ punctuators, c ∉ q.tail) (hslash : c ≠ '/')
    (hdigit : c.isDigit = true → t ≠ ['.'] ∧ t ≠ ['?', '.']) : continuesPunctuator t c = false := by
  have hnone : (!t.isEmpty && punctuators.any fun q => (t ++ [c]).isPrefixOf q) = false := by
    rw [Bool.and_eq_false_iff]
    rcases t with _ | ⟨d, t⟩
    · exact Or.inl rfl
    · refine Or.inr (List.any_eq_false.2 fun q hq hlonger => htail q hq ?_)
      obtain ⟨rest, rfl⟩ := List.isPrefixOf_iff_prefix.1 hlonger
      simp
  have hstar : c ≠ '*' := by
    rintro rfl
    exact htail ['*', '*'] (by decide) (by decide)
  rw [continuesPunctuator, hnone]
  cases hd : c.isDigit with
  | false => simp [hslash, hstar]
  | true => simp [hslash, hstar, hdigit hd]

theorem notMem_tail_of_break {c : Char} (hc : c ∈ ' ' :: breakChars) :
    ∀ q ∈ punctuators, c ∉ q.tail := by
  have hall : (punctuators.all fun q => (' ' :: breakChars).all fun c => c ∉ q.tail) = true := by
    decide
  intro q hq
  exact of_decide_eq_true (List.all_eq_true.1 (List.all_eq_true.1 hall q hq) c hc)

theorem notMem_tail_of_word {c : Char} (hc : continuesWord c = true) :
    ∀ q ∈ punctuators, c ∉ q.tail := by
  have hall : (punctuators.all fun q => q.tail.all fun c => !continuesWord c) = true := by decide
  intro q hq hmem
  have := List.all_eq_true.1 (List.all_eq_true.1 hall q hq) c hmem
  rw [hc] at this
  cases this

theorem apart_isBreak (p : Piece) {q : Piece} (h : q.isBreak = true) : p.apart q := by
  have hfirst : ∀ c ∈ q.first, c ∈ ' ' :: breakChars := by
    intro c hc
    rcases isBreak_cases h with rfl | ⟨d, hd, rfl⟩
    · obtain rfl := Option.some.inj hc
      exact List.mem_cons_self
    · obtain rfl := Option.some.inj hc
      exact List.mem_cons_of_mem _ hd
  have hplain : ((' ' :: breakChars).all fun c =>
      !continuesWord c && c ≠ '.' && c ≠ '/') = true := by
    decide
  intro c hc
  have hchar := List.all_eq_true.1 hplain c (hfirst c hc)
  simp only [Bool.and_eq_true, Bool.not_eq_true', decide_eq_true_eq] at hchar
  obtain ⟨⟨hword, hpoint⟩, hslash⟩ := hchar
  cases p with
  | punctuator t =>
    refine continuesPunctuator_eq_false (notMem_tail_of_break (hfirst c hc)) hslash fun hd => ?_
    rw [continuesWord, hd, Bool.or_true] at hword
    cases hword
  | _ => simp [goesOn, hword, hpoint]

theorem joins_of_isBreak {p : Piece} (h : p.isBreak = true) (q : Piece) : p.joins q = false := by
  rcases isBreak_cases h with rfl | ⟨c, hc, rfl⟩
  · rfl
  · have hne : c ≠ '-' := by
      rintro rfl
      exact absurd hc (by decide)
    cases q <;> simp [joins, hne]

theorem joins_isBreak (p : Piece) {q : Piece} (h : q.isBreak = true) : p.joins q = false := by
  rcases isBreak_cases h with rfl | ⟨c, hc, rfl⟩
  · cases p <;> rfl
  · have hminus : c ≠ '-' := by
      rintro rfl
      exact absurd hc (by decide)
    have hpoint : c ≠ '.' := by
      rintro rfl
      exact absurd hc (by decide)
    cases p <;> simp [joins, hminus, hpoint]

/-! ## Seams -/

/-- A relation that neighbours satisfy next to a break, inside a number and inside a callee. -/
structure Seams (R : Piece → Piece → Prop) : Prop where
  afterBreak : ∀ {p : Piece}, p.isBreak = true → ∀ q, R p q
  beforeBreak : ∀ (p : Piece) {q : Piece}, q.isBreak = true → R p q
  wordPoint : ∀ w, R (.word w) point
  pointWord : ∀ {w}, isWord w = true → R point (.word w)
  minusWord : ∀ {w}, isWord w = true → R minus (.word w)
  minusNumber : ∀ {w}, DecimalText w → R minus (.number w)

theorem apart_word {t w : List Char} (hw : isWord w = true) :
    (Piece.punctuator t).apart (.word w) := by
  obtain ⟨d, rest, rfl, hd, -⟩ := isWord_cons hw
  intro c hc
  obtain rfl : d = c := Option.some.inj hc
  have hword : continuesWord d = true := by simp [continuesWord, hd]
  refine continuesPunctuator_eq_false (notMem_tail_of_word hword) ?_ fun hdigit => ?_
  · rintro rfl
    cases hd
  · rw [startsWord_of_isDigit hdigit] at hd
    cases hd

theorem apart_number {t w : List Char} (hw : DecimalText w) (ht : t ≠ ['.'] ∧ t ≠ ['?', '.']) :
    (Piece.punctuator t).apart (.number w) := by
  obtain ⟨d, rest, rfl, hd⟩ := hw.cons
  intro c hc
  obtain rfl : d = c := Option.some.inj hc
  have hword : continuesWord d = true := by simp [continuesWord, hd]
  refine continuesPunctuator_eq_false (notMem_tail_of_word hword) ?_ fun _ => ht
  rintro rfl
  cases hd

theorem apart_string (t : List Char) (s : String) : (Piece.punctuator t).apart (.string s) := by
  intro c hc
  obtain rfl : '"' = c := Option.some.inj hc
  have hall : (punctuators.all fun q => '"' ∉ q.tail) = true := by decide
  exact continuesPunctuator_eq_false (fun q hq => of_decide_eq_true (List.all_eq_true.1 hall q hq))
    (by decide) fun hd => absurd hd (by decide)

theorem seams_apart : Seams fun p q => p.joins q = true ∨ p.apart q where
  afterBreak hp q := Or.inr (apart_of_isBreak hp q)
  beforeBreak p _ hq := Or.inr (apart_isBreak p hq)
  wordPoint w := Or.inr fun c hc => by
    obtain rfl : '.' = c := Option.some.inj hc
    rfl
  pointWord hw := Or.inr (apart_word hw)
  minusWord hw := Or.inr (apart_word hw)
  minusNumber hw := Or.inr (apart_number hw (by decide))

theorem seams_not_joins : Seams fun p q => p.joins q = false where
  afterBreak hp q := joins_of_isBreak hp q
  beforeBreak p _ hq := joins_isBreak p hq
  wordPoint _ := rfl
  pointWord _ := rfl
  minusWord _ := rfl
  minusNumber _ := rfl

namespace Seams

variable {R : Piece → Piece → Prop} (hR : Seams R)

include hR

/-- A list falls into parts at a break. -/
theorem isChain_break {p : Piece} (hp : p.isBreak = true) {before after : List Piece} :
    (before ++ p :: after).IsChain R ↔ before.IsChain R ∧ after.IsChain R := by
  rw [List.isChain_append, List.isChain_cons]
  constructor
  · rintro ⟨hbefore, ⟨-, hafter⟩, -⟩
    exact ⟨hbefore, hafter⟩
  · rintro ⟨hbefore, hafter⟩
    refine ⟨hbefore, ⟨fun q _ => hR.afterBreak hp q, hafter⟩, fun q _ q' hq' => ?_⟩
    obtain rfl := Option.some.inj hq'
    exact hR.beforeBreak q hp

theorem isChain_cons_break {p : Piece} (hp : p.isBreak = true) {after : List Piece} :
    (p :: after).IsChain R ↔ after.IsChain R := by
  rw [List.isChain_cons]
  exact ⟨And.right, fun h => ⟨fun q _ => hR.afterBreak hp q, h⟩⟩

theorem isChain_cons_cons_break (p : Piece) {q : Piece} (hq : q.isBreak = true)
    {after : List Piece} : (p :: q :: after).IsChain R ↔ after.IsChain R := by
  rw [List.isChain_cons_cons, hR.isChain_cons_break hq]
  exact ⟨And.right, fun h => ⟨hR.beforeBreak p hq, h⟩⟩

end Seams

/-! ## Brackets and lists -/

def enclosed (l r : Char) (ps : List Piece) : List Piece :=
  .punctuator [l] :: (ps ++ [.punctuator [r]])

/-- Parts with a comma and a blank between them. -/
def listed (parts : List (List Piece)) : List Piece :=
  [.punctuator [','], .blank].intercalate parts

/-- Words with points between them. -/
def pointed : List (List Char) → List Piece
  | [] => []
  | w :: ws => .word w :: ws.flatMap fun v => [point, .word v]

theorem listed_cons_cons (part part' : List Piece) (parts : List (List Piece)) :
    listed (part :: part' :: parts)
      = part ++ .punctuator [','] :: .blank :: listed (part' :: parts) := by
  rw [listed, List.intercalate_cons_cons, List.append_assoc]
  rfl

namespace Seams

variable {R : Piece → Piece → Prop} (hR : Seams R)

include hR

theorem isChain_enclosed {l r : Char} (hl : l ∈ breakChars) (hr : r ∈ breakChars)
    {ps : List Piece} : (enclosed l r ps).IsChain R ↔ ps.IsChain R := by
  rw [enclosed, hR.isChain_cons_break (isBreak_of_mem hl), hR.isChain_break (isBreak_of_mem hr)]
  exact ⟨And.left, fun h => ⟨h, .nil⟩⟩

theorem isChain_append_enclosed {l r : Char} (hl : l ∈ breakChars) (hr : r ∈ breakChars)
    {ps qs : List Piece} :
    (ps ++ enclosed l r qs).IsChain R ↔ ps.IsChain R ∧ qs.IsChain R := by
  rw [enclosed, hR.isChain_break (isBreak_of_mem hl), hR.isChain_break (isBreak_of_mem hr)]
  exact ⟨fun h => ⟨h.1, h.2.1⟩, fun h => ⟨h.1, h.2, .nil⟩⟩

theorem isChain_listed {parts : List (List Piece)} :
    (listed parts).IsChain R ↔ ∀ part ∈ parts, part.IsChain R := by
  induction parts with
  | nil => simp [listed]
  | cons part parts ih =>
    cases parts with
    | nil => simp [listed]
    | cons part' parts =>
      rw [listed_cons_cons, hR.isChain_break (by decide), hR.isChain_cons_break rfl, ih,
        List.forall_mem_cons (a := part)]

theorem isChain_pointed {ws : List (List Char)} (h : ∀ w ∈ ws, isWord w = true) :
    (pointed ws).IsChain R := by
  cases ws with
  | nil => exact .nil
  | cons w ws =>
    rw [pointed]
    induction ws generalizing w with
    | nil => exact .singleton _
    | cons v ws ih =>
      have hv := h v (List.mem_cons_of_mem w List.mem_cons_self)
      rw [List.flatMap_cons, List.cons_append, List.cons_append, List.nil_append,
        List.isChain_cons_cons, List.isChain_cons_cons]
      exact ⟨hR.wordPoint w, hR.pointWord hv, ih v fun u hu => h u (List.mem_cons_of_mem w hu)⟩

end Seams

/-- The pieces are tokens and blanks, and they make up the text. -/
structure Spells (o : Options) (ps : List Piece) (cs : List Char) : Prop where
  valid : ∀ p ∈ ps, p.Valid
  flatMap_text : ps.flatMap (text o) = cs

namespace Spells

variable {o : Options} {ps qs : List Piece} {cs ds : List Char}

theorem nil : Spells o [] [] := ⟨by simp, rfl⟩

theorem append (h : Spells o ps cs) (h' : Spells o qs ds) : Spells o (ps ++ qs) (cs ++ ds) :=
  ⟨List.forall_mem_append.2 ⟨h.valid, h'.valid⟩, by
    rw [List.flatMap_append, h.flatMap_text, h'.flatMap_text]⟩

theorem cons {p : Piece} (hp : p.Valid) (h : Spells o ps cs) :
    Spells o (p :: ps) (p.text o ++ cs) :=
  ⟨List.forall_mem_cons.2 ⟨hp, h.valid⟩, by rw [List.flatMap_cons, h.flatMap_text]⟩

theorem blank (h : Spells o ps cs) : Spells o (.blank :: ps) (' ' :: cs) :=
  h.cons (p := .blank) trivial

theorem word {w : List Char} (hw : isWord w = true) (h : Spells o ps cs) :
    Spells o (.word w :: ps) (w ++ cs) :=
  h.cons (p := .word w) hw

theorem ofWord {w : List Char} (hw : isWord w = true) : Spells o [.word w] w := by
  simpa using nil.word (o := o) hw

theorem punctuator {t : List Char} (ht : t ∈ punctuators) (h : Spells o ps cs) :
    Spells o (.punctuator t :: ps) (t ++ cs) :=
  h.cons (p := .punctuator t) ht

theorem enclosed {l r : Char} (hl : [l] ∈ punctuators) (hr : [r] ∈ punctuators)
    (h : Spells o ps cs) : Spells o (enclosed l r ps) (l :: (cs ++ [r])) :=
  (h.append (nil.punctuator hr)).punctuator hl

theorem listed {ι : Type} {pieces : ι → List Piece} {text : ι → List Char} {items : List ι}
    (h : ∀ i ∈ items, Spells o (pieces i) (text i)) :
    Spells o (listed (items.map pieces)) (", ".toList.intercalate (items.map text)) := by
  induction items with
  | nil => exact nil
  | cons i items ih =>
    have hi := h i List.mem_cons_self
    cases items with
    | nil => simpa [Piece.listed] using hi
    | cons j items =>
      have hrest := ih fun k hk => h k (List.mem_cons_of_mem i hk)
      rw [List.map_cons, List.map_cons, listed_cons_cons]
      rw [List.map_cons, List.map_cons, List.intercalate_cons_cons, List.append_assoc]
      exact hi.append (hrest.blank.punctuator (by decide))

/-- A list between brackets. -/
theorem listing {ι : Type} {pieces : ι → List Piece} {text : ι → String} {items : List ι}
    {l r : Char} (hl : [l] ∈ punctuators) (hr : [r] ∈ punctuators)
    (h : ∀ i ∈ items, Spells o (pieces i) (text i).toList) :
    Spells o (Piece.enclosed l r (Piece.listed (items.map pieces)))
      (l :: ((", ".intercalate (items.map text)).toList ++ [r])) := by
  rw [String.toList_intercalate, List.map_map]
  exact (listed h).enclosed hl hr

theorem pointed {ws : List (List Char)} (h : ∀ w ∈ ws, isWord w = true) :
    Spells o (pointed ws) (['.'].intercalate ws) := by
  cases ws with
  | nil => exact nil
  | cons w ws =>
    rw [Piece.pointed]
    induction ws generalizing w with
    | nil => simpa using ofWord (h w List.mem_cons_self)
    | cons v ws ih =>
      have hrest := ih v fun u hu => h u (List.mem_cons_of_mem w hu)
      rw [List.intercalate_cons_cons, List.append_assoc]
      exact (hrest.punctuator (t := ['.']) (by decide)).word (h w List.mem_cons_self)

end Spells

end Piece

end ScriptWriter
