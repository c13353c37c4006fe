import ScriptWriter.Proofs.Form
import ScriptWriter.Proofs.Words

/-!
# The marks of a form determine it

In a well-formed form names and callees are identifiers, unary operators are signs or a negation,
and binary operators have no bracket, separator or quote in them. Two well-formed forms with the
same marks are the same (`marks_injective`).

The marks of a form are solid, so the parts of a list, the sides of an operator and the test of a
choice end where a separator follows. The last mark tells brackets, braces, groups, calls, strings
and words apart. In a group the first part goes on to the end, to a space and an operator, or to a
space and a question mark, which no operator starts with. In a word the last point belongs to a
property, unless a digit follows it.
-/

namespace ScriptWriter

open Mark

/-! ## Well-formed forms -/

/-- The constants that are written as words. -/
def reserved : List String := ["null", "true", "false", "NaN", "Infinity"]

/-- An operator that can stand between spaces: not empty, no bracket, separator or quote in it, and
no question mark or colon. -/
def PlainOperator (operator : String) : Prop :=
  operator ≠ "" ∧ ∀ c ∈ operator.toList, c ∉ '?' :: ':' :: special

instance (operator : String) : Decidable (PlainOperator operator) :=
  @instDecidableAnd _ _ _ (List.decidableBAll _ operator.toList)

/-- The unary operators as they are written. -/
def signs : List String := ["!", "-", "+"]

/-- Identifiers with points between them. -/
def Dotted (callee : String) : Prop :=
  ∃ names : List String, names ≠ [] ∧ (∀ n ∈ names, isIdentifier n = true)
    ∧ callee = ".".intercalate names

theorem PlainOperator.unmarked {operator : String} (h : PlainOperator operator) :
    Unmarked operator.toList :=
  fun c hc hs => h.2 c hc (List.mem_cons_of_mem _ (List.mem_cons_of_mem _ hs))

/-- No operator starts like the choice. -/
theorem PlainOperator.ne_question {operator : String} (ho : PlainOperator operator)
    {r r' : List Mark} : chars operator ++ r ≠ .char '?' :: r' := by
  intro h
  rcases hop : operator.toList with _ | ⟨c, cs⟩
  · exact ho.1 (String.toList_inj.1 hop)
  · rw [chars, hop] at h
    have hc : c = '?' := Mark.char.inj (List.cons.inj h).1
    exact ho.2 c (by simp [hop]) (by simp [hc])

theorem Dotted.unmarked {callee : String} (h : Dotted callee) : Unmarked callee.toList := by
  obtain ⟨names, -, hn, rfl⟩ := h
  rw [String.toList_intercalate]
  induction names with
  | nil => decide
  | cons n names ih =>
    have hhead := unmarked_identifier (hn n List.mem_cons_self)
    have htail := ih fun n' hn' => hn n' (List.mem_cons_of_mem _ hn')
    rcases names with _ | ⟨n', names⟩
    · simpa using hhead
    · rw [List.map_cons, List.map_cons, List.intercalate_cons_cons]
      exact (hhead.append (by decide)).append htail

theorem Dotted.starts {callee : String} (h : Dotted callee) :
    ∃ c rest, callee.toList = c :: rest ∧ startsIdentifier c = true := by
  obtain ⟨names, hne, hn, rfl⟩ := h
  rcases names with _ | ⟨n, names⟩
  · exact absurd rfl hne
  · obtain ⟨c, rest, hc, hs⟩ := isIdentifier_cons (hn n List.mem_cons_self)
    rw [String.toList_intercalate]
    rcases names with _ | ⟨n', names⟩
    · exact ⟨c, rest, by simpa using hc, hs⟩
    · rw [List.map_cons, List.map_cons, List.intercalate_cons_cons, hc]
      exact ⟨c, _, rfl, hs⟩

namespace Form

/-- The names, numbers, operators and callees in a form are such that its parts can be told
apart. -/
inductive WellFormed : Form → Prop
  | null : WellFormed .null
  | bool (b : Bool) : WellFormed (.bool b)
  | number {text : String} (h : NumberText text.toList) : WellFormed (.number text)
  | string (s : String) : WellFormed (.string s)
  | name {text : String} (h : isIdentifier text = true) (hr : text ∉ reserved) :
    WellFormed (.name text)
  | array {items : List Form} (h : ∀ f ∈ items, WellFormed f) : WellFormed (.array items)
  | object {entries : List (String × Form)} (h : ∀ p ∈ entries, WellFormed p.2) :
    WellFormed (.object entries)
  | unary {operator : String} {operand : Form} (ho : operator ∈ signs)
    (h : WellFormed operand) : WellFormed (.unary operator operand)
  | binary {left right : Form} {operator : String} (hl : WellFormed left)
    (ho : PlainOperator operator) (hr : WellFormed right) :
    WellFormed (.binary left operator right)
  | conditional {test yes no : Form} (ht : WellFormed test) (hy : WellFormed yes)
    (hn : WellFormed no) : WellFormed (.conditional test yes no)
  | member {target : Form} {property : String} (ht : WellFormed target)
    (hp : isIdentifier property = true) : WellFormed (.member target property)
  | index {target key : Form} (ht : WellFormed target) (hk : WellFormed key) :
    WellFormed (.index target key)
  | call {callee : String} {arguments : List Form} (hc : Dotted callee)
    (h : ∀ f ∈ arguments, WellFormed f) : WellFormed (.call callee arguments)

/-! ## Marks of well-formed forms -/

/-- Parts after a first one, each behind its separator. -/
def following (ps : List (List Mark)) : List Mark :=
  ps.flatMap fun p => .char ',' :: .char ' ' :: p

theorem following_cons (p : List Mark) (ps : List (List Mark)) :
    following (p :: ps) = .char ',' :: .char ' ' :: (p ++ following ps) := by
  rw [following, List.flatMap_cons]
  rfl

theorem joined_cons (p : List Mark) : ∀ ps : List (List Mark),
    joined (p :: ps) = p ++ following ps
  | [] => by simp [joined, following]
  | q :: ps => by
    have ih := joined_cons q ps
    unfold joined at ih ⊢
    rw [List.intercalate_cons_cons, ih, following_cons, List.append_assoc]
    rfl

theorem loose_following {ps : List (List Mark)} (h : ∀ p ∈ ps, Loose p) :
    Loose (following ps) := by
  induction ps with
  | nil => rfl
  | cons p ps ih =>
    rw [following_cons]
    exact Loose.append (x := [.char ',', .char ' ']) (by decide)
      ((h p List.mem_cons_self).append (ih fun q hq => h q (List.mem_cons_of_mem p hq)))

theorem loose_joined {ps : List (List Mark)} (h : ∀ p ∈ ps, Loose p) : Loose (joined ps) := by
  rcases ps with _ | ⟨p, ps⟩
  · rfl
  · rw [joined_cons]
    exact (h p List.mem_cons_self).append
      (loose_following fun q hq => h q (List.mem_cons_of_mem p hq))

theorem quote_not_mem_joined (ps : List (List Mark)) (h : ∀ p ∈ ps, .char '"' ∉ p) :
    .char '"' ∉ joined ps := by
  rcases ps with _ | ⟨p, ps⟩
  · simp [joined]
  · rw [joined_cons, List.mem_append, not_or]
    refine ⟨h p List.mem_cons_self, fun hm => ?_⟩
    obtain ⟨q, hq, hm⟩ := List.mem_flatMap.1 hm
    have := h q (List.mem_cons_of_mem p hq)
    simp [this] at hm

theorem unmarked_of_mem_signs : ∀ {operator}, operator ∈ signs → Unmarked operator.toList := by
  decide

namespace WellFormed

theorem solid {f : Form} (hf : WellFormed f) : Solid f.marks := by
  have hspace : Loose [.char ' '] := by decide
  induction hf with
  | null => decide
  | bool b => cases b <;> decide
  | number h => exact h.unmarked.solid
  | string s => rfl
  | name h hr => exact (unmarked_identifier h).solid
  | array h ih =>
    rw [marks, marksItems_eq_map]
    refine Solid.enclosed rfl rfl rfl (loose_joined ?_)
    intro p hp
    obtain ⟨f, hf, rfl⟩ := List.mem_map.1 hp
    exact (ih f hf).loose
  | object h ih =>
    rw [marks, marksEntries_eq_map]
    refine Solid.enclosed rfl rfl rfl (loose_joined ?_)
    intro p hp
    obtain ⟨⟨key, f⟩, hf, rfl⟩ := List.mem_map.1 hp
    exact Loose.append (x := [.literal key, .char ':', .char ' ']) rfl (ih _ hf).loose
  | unary ho h ih =>
    rw [marks]
    exact Solid.enclosed rfl rfl rfl ((unmarked_of_mem_signs ho).solid.append ih).loose
  | binary hl ho hr ihl ihr =>
    rw [marks]
    exact Solid.enclosed rfl rfl rfl (ihl.loose.append
      (hspace.append (ho.unmarked.solid.loose.append (hspace.append ihr.loose))))
  | conditional ht hy hn iht ihy ihn =>
    have hgroup {x : List Mark} (h : Solid x) : Loose (enclosed '(' ')' x) :=
      (Solid.enclosed rfl rfl rfl h.loose).loose
    rw [marks]
    exact Solid.enclosed rfl rfl rfl ((hgroup iht).append
      (Loose.append (x := [.char ' ', .char '?', .char ' ']) (by decide) ((hgroup ihy).append
        (Loose.append (x := [.char ' ', .char ':', .char ' ']) (by decide) (hgroup ihn)))))
  | member ht hp ih =>
    rw [marks]
    exact ih.append (Solid.append (x := [.char '.']) (by decide) (unmarked_identifier hp).solid)
  | index ht hk iht ihk =>
    rw [marks]
    exact iht.append (Solid.enclosed rfl rfl rfl ihk.loose)
  | call hc h ih =>
    rw [marks, marksItems_eq_map]
    refine hc.unmarked.solid.append (Solid.enclosed rfl rfl rfl (loose_joined ?_))
    intro p hp
    obtain ⟨f, hf, rfl⟩ := List.mem_map.1 hp
    exact (ih f hf).loose

theorem quote_not_mem {f : Form} (hf : WellFormed f) : .char '"' ∉ f.marks := by
  induction hf with
  | null => decide
  | bool b => cases b <;> decide
  | number h => exact h.unmarked.quote_not_mem
  | string s => simp [marks]
  | name h hr => exact (unmarked_identifier h).quote_not_mem
  | @array items h ih =>
    have := quote_not_mem_joined (marksItems items) (by simpa [marksItems_eq_map] using ih)
    simpa [marks, enclosed] using this
  | @object entries h ih =>
    have := quote_not_mem_joined (marksEntries entries) (by
      rw [marksEntries_eq_map, List.forall_mem_map]
      exact fun p hp => by simpa [entryMarks] using ih p hp)
    simpa [marks, enclosed] using this
  | unary ho h ih => simp [marks, enclosed, (unmarked_of_mem_signs ho).quote_not_mem, ih]
  | binary hl ho hr ihl ihr => simp [marks, enclosed, ho.unmarked.quote_not_mem, ihl, ihr]
  | conditional ht hy hn iht ihy ihn => simp [marks, enclosed, iht, ihy, ihn]
  | member ht hp ih => simp [marks, (unmarked_identifier hp).quote_not_mem, ih]
  | index ht hk iht ihk => simp [marks, enclosed, iht, ihk]
  | @call callee arguments hc h ih =>
    have := quote_not_mem_joined (marksItems arguments) (by simpa [marksItems_eq_map] using ih)
    simpa [marks, enclosed, hc.unmarked.quote_not_mem] using this

end WellFormed

/-! ## Kinds -/

/-- What the first and the last mark tell of a form. -/
inductive Kind where
  | word | literal | bracket | brace | group | call
deriving DecidableEq

def kind : Form → Kind
  | .null | .bool _ | .number _ | .name _ | .member _ _ => .word
  | .string _ => .literal
  | .array _ | .index _ _ => .bracket
  | .object _ => .brace
  | .unary _ _ | .binary _ _ _ | .conditional _ _ _ => .group
  | .call _ _ => .call

/-- The kind by the marks. -/
def kindOf (ms : List Mark) : Kind :=
  match ms.getLast? with
  | some (.literal _) => .literal
  | some (.char ']') => .bracket
  | some (.char '\x7d') => .brace
  | some (.char ')') => if ms.head? = some (.char '(') then .group else .call
  | _ => .word

theorem kindOf_append_chars {w : String} {c : Char} {cs : List Char} (hw : w.toList = c :: cs)
    (h : Unmarked w.toList) (x : List Mark) : kindOf (x ++ chars w) = .word := by
  obtain ⟨init, last, hl⟩ := List.eq_nil_or_concat' w.toList |>.resolve_left (by simp [hw])
  have hlast : last ∉ special := h last (by simp [hl])
  simp only [special, List.mem_cons, List.not_mem_nil, or_false, not_or] at hlast
  unfold kindOf chars
  rw [hl, List.map_append, ← List.append_assoc, List.map_singleton, List.getLast?_concat]
  split <;> simp_all

theorem getLast?_append_enclosed (u : List Mark) (l r : Char) (x : List Mark) :
    (u ++ enclosed l r x).getLast? = some (.char r) := by
  rw [enclosed, ← List.cons_append, ← List.append_assoc, List.getLast?_concat]

theorem getLast?_enclosed (l r : Char) (x : List Mark) :
    (enclosed l r x).getLast? = some (.char r) := getLast?_append_enclosed [] l r x

theorem kindOf_parenthesised (x : List Mark) : kindOf (enclosed '(' ')' x) = .group := by
  rw [kindOf, getLast?_enclosed]
  exact if_pos rfl

theorem WellFormed.kindOf_marks {f : Form} (hf : WellFormed f) : kindOf f.marks = f.kind := by
  cases hf with
  | null => decide
  | bool b => cases b <;> decide
  | number h =>
    rcases h.starts with hw | hw | ⟨c, cs, hw, -⟩ <;>
      exact kindOf_append_chars hw h.unmarked []
  | string s => rfl
  | name h hr =>
    obtain ⟨c, cs, hw, -⟩ := isIdentifier_cons h
    exact kindOf_append_chars hw (unmarked_identifier h) []
  | array h => simp [marks, kindOf, getLast?_enclosed, kind]
  | object h => simp [marks, kindOf, getLast?_enclosed, kind]
  | unary ho h => exact kindOf_parenthesised _
  | binary hl ho hr => exact kindOf_parenthesised _
  | conditional ht hy hn => exact kindOf_parenthesised _
  | @member target property ht hp =>
    obtain ⟨c, cs, hw, -⟩ := isIdentifier_cons hp
    have := kindOf_append_chars hw (unmarked_identifier hp) (target.marks ++ [.char '.'])
    rwa [List.append_assoc] at this
  | index ht hk =>
    rw [marks, kindOf, getLast?_append_enclosed]
    rfl
  | @call callee arguments hc h =>
    obtain ⟨c, cs, hw, hs⟩ := hc.starts
    have hne : c ≠ '(' := by
      rintro rfl
      exact absurd (continuesIdentifier_of_starts hs) (by decide +kernel)
    rw [marks, kindOf, getLast?_append_enclosed, kind]
    exact if_neg (by simp [chars, hw, hne])

/-! ## Words and properties -/

/-- The word a form is written as, if it is one word. -/
def word? : Form → Option String
  | .null => some "null"
  | .bool b => some (if b then "true" else "false")
  | .number text => some text
  | .name text => some text
  | _ => none

/-- The form of a word. -/
def ofWord (w : String) : Form :=
  if w = "null" then .null
  else if w = "true" then .bool true
  else if w = "false" then .bool false
  else if isIdentifier w = true ∧ w ∉ reserved then .name w
  else .number w

theorem marks_of_word {f : Form} {w : String} (h : f.word? = some w) : f.marks = chars w := by
  cases f <;> simp only [word?, Option.some.injEq, reduceCtorEq] at h <;> rw [marks, h]

theorem kind_of_word {f : Form} {w : String} (h : f.word? = some w) : f.kind = .word := by
  cases f <;> simp_all [word?, kind]

/-- What looks like a word and is none ends with a property. -/
theorem eq_member {f : Form} (hk : f.kind = .word) (h : f.word? = none) :
    ∃ target property, f = .member target property := by
  cases f <;> simp_all [word?, kind]

theorem eq_of_numberText_identifier {w : String} (h : NumberText w.toList)
    (hw : isIdentifier w = true) : w = "NaN" ∨ w = "Infinity" := by
  rcases h.starts with hn | hn | ⟨c, rest, hc, hs⟩
  · exact Or.inl (String.toList_inj.1 hn)
  · exact Or.inr (String.toList_inj.1 hn)
  · obtain ⟨d, rest', hd, hs'⟩ := isIdentifier_cons hw
    rw [hc] at hd
    rw [(List.cons.inj hd).1, hs'] at hs
    exact absurd hs (by simp)

theorem WellFormed.ofWord_eq {f : Form} {w : String} (hf : WellFormed f)
    (h : f.word? = some w) : ofWord w = f := by
  cases hf with
  | null =>
    cases h
    rfl
  | bool b =>
    cases h
    cases b <;> rfl
  | @number w hn =>
    cases h
    have hword := eq_of_numberText_identifier hn
    have hne : ∀ v, isIdentifier v = true → v ≠ "NaN" → v ≠ "Infinity" → w ≠ v := by
      rintro v hv h1 h2 rfl
      rcases hword hv with rfl | rfl
      · exact h1 rfl
      · exact h2 rfl
    rw [ofWord, if_neg (hne _ (by decide +kernel) (by decide) (by decide)),
      if_neg (hne _ (by decide +kernel) (by decide) (by decide)),
      if_neg (hne _ (by decide +kernel) (by decide) (by decide)), if_neg]
    rintro ⟨hi, hr⟩
    rcases hword hi with rfl | rfl <;> exact hr (by decide)
  | @name w hi hr =>
    cases h
    have hne : ∀ v ∈ reserved, w ≠ v := fun v hv hw => hr (hw ▸ hv)
    rw [ofWord, if_neg (hne _ (by decide)), if_neg (hne _ (by decide)),
      if_neg (hne _ (by decide)), if_pos ⟨hi, hr⟩]
  | _ => exact absurd h (by simp [word?])

/-- A point in a word has a digit after it, so no word ends with a property. -/
theorem WellFormed.word_ne_member {f : Form} {w p : String} {t : List Mark} (hf : WellFormed f)
    (h : f.word? = some w) (hp : isIdentifier p = true) :
    chars w ≠ t ++ .char '.' :: chars p := by
  intro heq
  obtain ⟨u, v, hw, -, hv⟩ := List.map_eq_append_iff.1 heq
  obtain ⟨c, p', rfl, hc, hp'⟩ := List.map_eq_cons_iff.1 hv
  obtain rfl := Mark.char.inj hc
  obtain rfl := List.map_injective_iff.2 (fun _ _ hm => Mark.char.inj hm) hp'
  have hmem : '.' ∈ w.toList := by simp [hw]
  cases hf with
  | number hn =>
    cases h
    obtain ⟨c, rest, hc, hdigit⟩ := hn.digit_after_point hw
    obtain ⟨d, rest', hd, hs⟩ := isIdentifier_cons hp
    rw [hc] at hd
    rw [← (List.cons.inj hd).1, startsIdentifier_of_isDigit hdigit] at hs
    exact absurd hs (by simp)
  | name hi hr =>
    cases h
    exact point_not_mem_identifier hi hmem
  | null =>
    cases h
    exact absurd hmem (by decide)
  | bool b =>
    cases h
    cases b <;> exact absurd hmem (by decide)
  | _ => exact absurd h (by simp [word?])

/-- A form written as one word is known by its marks. -/
theorem WellFormed.eq_of_word {a b : Form} {w : String} (ha : WellFormed a) (hb : WellFormed b)
    (hw : a.word? = some w) (h : a.marks = b.marks) : a = b := by
  rcases hw' : b.word? with _ | w'
  · have hk : b.kind = .word := by
      rw [← hb.kindOf_marks, ← h, ha.kindOf_marks, kind_of_word hw]
    obtain ⟨target, property, rfl⟩ := eq_member hk hw'
    cases hb with
    | member ht hp =>
      rw [marks_of_word hw, marks] at h
      exact absurd h (ha.word_ne_member hw hp)
  · rw [marks_of_word hw, marks_of_word hw'] at h
    rw [← ha.ofWord_eq hw, ← hb.ofWord_eq hw', chars_injective h]

/-! ## Lists -/

section Lists

variable {α : Type} {f : α → List Mark}

/-- Before separators the parts of the two are told apart, and told from what follows them. -/
def Delimited (f : α → List Mark) (x y : α) : Prop :=
  ∀ r r', Stops r → Stops r' → f x ++ r = f y ++ r' → x = y ∧ r = r'

theorem stops_following (ps : List (List Mark)) : Stops (following ps) := by
  cases ps with
  | nil => exact stops_nil
  | cons p ps =>
    rw [following_cons]
    exact stops_cons _ rfl

theorem following_map_injective {xs ys : List α} (hf : ∀ x ∈ xs, ∀ y ∈ ys, Delimited f x y)
    (h : following (xs.map f) = following (ys.map f)) : xs = ys := by
  induction xs generalizing ys with
  | nil =>
    cases ys with
    | nil => rfl
    | cons y ys => exact absurd h (by simp [following])
  | cons x xs ih =>
    cases ys with
    | nil => exact absurd h (by simp [following])
    | cons y ys =>
      simp only [List.map_cons, following_cons, List.cons.injEq, true_and] at h
      obtain ⟨rfl, hrest⟩ := hf x List.mem_cons_self y List.mem_cons_self _ _
        (stops_following _) (stops_following _) h
      rw [ih (fun x' hx y' hy => hf x' (List.mem_cons_of_mem _ hx) y' (List.mem_cons_of_mem _ hy))
        hrest]

theorem joined_map_injective {xs ys : List α} (hxs : ∀ x ∈ xs, f x ≠ [])
    (hys : ∀ y ∈ ys, f y ≠ []) (hf : ∀ x ∈ xs, ∀ y ∈ ys, Delimited f x y)
    (h : joined (xs.map f) = joined (ys.map f)) : xs = ys := by
  rcases xs with _ | ⟨x, xs⟩ <;> rcases ys with _ | ⟨y, ys⟩
  · rfl
  · rw [List.map_cons, joined_cons] at h
    exact absurd (List.append_eq_nil_iff.1 h.symm).1 (hys y List.mem_cons_self)
  · rw [List.map_cons, joined_cons] at h
    exact absurd (List.append_eq_nil_iff.1 h).1 (hxs x List.mem_cons_self)
  · -- both lists are what follows an empty part
    refine following_map_injective hf ?_
    rw [List.map_cons, List.map_cons, joined_cons, joined_cons] at h
    rw [List.map_cons, List.map_cons, following_cons, following_cons, h]

end Lists

/-! ## Forms by their marks -/

theorem WellFormed.marks_ne_nil {f : Form} (hf : WellFormed f) : f.marks ≠ [] := by
  cases hf with
  | number h =>
    rcases h.starts with hw | hw | ⟨c, cs, hw, -⟩ <;> simp [marks, chars, hw]
  | name h hr =>
    obtain ⟨c, cs, hw, -⟩ := isIdentifier_cons h
    simp [marks, chars, hw]
  | bool b => cases b <;> decide
  | null => decide
  | _ => simp [marks, enclosed]

theorem WellFormed.kind_eq {a b : Form} (ha : WellFormed a) (hb : WellFormed b)
    (h : a.marks = b.marks) : a.kind = b.kind := by
  rw [← ha.kindOf_marks, h, hb.kindOf_marks]

theorem items_injective {fs gs : List Form} (hf : ∀ f ∈ fs, WellFormed f)
    (hg : ∀ g ∈ gs, WellFormed g)
    (ih : ∀ f ∈ fs, ∀ {g : Form}, WellFormed g → f.marks = g.marks → f = g)
    (h : joined (marksItems fs) = joined (marksItems gs)) : fs = gs := by
  rw [marksItems_eq_map, marksItems_eq_map] at h
  refine joined_map_injective (fun f hm => (hf f hm).marks_ne_nil)
    (fun g hm => (hg g hm).marks_ne_nil) ?_ h
  intro f hmf g hmg r r' hr hr' heq
  obtain ⟨hm, hrest⟩ := (hf f hmf).solid.append_inj (hg g hmg).solid hr hr' heq
  exact ⟨ih f hmf (hg g hmg) hm, hrest⟩

theorem entries_injective {ps qs : List (String × Form)} (hp : ∀ p ∈ ps, WellFormed p.2)
    (hq : ∀ q ∈ qs, WellFormed q.2)
    (ih : ∀ p ∈ ps, ∀ {g : Form}, WellFormed g → p.2.marks = g.marks → p.2 = g)
    (h : joined (marksEntries ps) = joined (marksEntries qs)) : ps = qs := by
  rw [marksEntries_eq_map, marksEntries_eq_map] at h
  refine joined_map_injective (fun p _ => by simp [entryMarks])
    (fun q _ => by simp [entryMarks]) ?_ h
  rintro ⟨key, f⟩ hmf ⟨key', g⟩ hmg r r' hr hr' heq
  simp only [entryMarks, List.cons_append, List.cons.injEq, Mark.literal.injEq, true_and] at heq
  obtain ⟨rfl, heq⟩ := heq
  obtain ⟨hm, hrest⟩ := (hp _ hmf).solid.append_inj (hq _ hmg).solid hr hr' heq
  have hvalue : f = g := ih _ hmf (hq _ hmg) hm
  exact ⟨by rw [hvalue], hrest⟩

theorem WellFormed.loose_items {fs : List Form} (h : ∀ f ∈ fs, WellFormed f) :
    Loose (joined (marksItems fs)) := by
  rw [marksItems_eq_map]
  refine loose_joined fun p hp => ?_
  obtain ⟨f, hf, rfl⟩ := List.mem_map.1 hp
  exact (h f hf).solid.loose

/-- The bracket of an array would close before its end. -/
theorem array_ne_index {items : List Form} {target key : Form} (hi : ∀ f ∈ items, WellFormed f)
    (ht : WellFormed target) (hk : WellFormed key) :
    (Form.array items).marks ≠ (Form.index target key).marks := by
  intro h
  rw [marks, marks] at h
  obtain ⟨hnil, -⟩ := Solid.append_enclosed_inj (u := []) rfl rfl ht.solid
    (WellFormed.loose_items hi) hk.solid.loose h
  exact ht.marks_ne_nil hnil.symm

theorem index_marks_inj {target target' key key' : Form} (ht : WellFormed target)
    (ht' : WellFormed target') (hk : WellFormed key) (hk' : WellFormed key')
    (h : (Form.index target key).marks = (Form.index target' key').marks) :
    target.marks = target'.marks ∧ key.marks = key'.marks := by
  rw [marks, marks] at h
  exact Solid.append_enclosed_inj rfl ht.solid ht'.solid hk.solid.loose hk'.solid.loose h

theorem member_marks_inj {target target' : Form} {property property' : String}
    (hp : isIdentifier property = true) (hp' : isIdentifier property' = true)
    (h : (Form.member target property).marks = (Form.member target' property').marks) :
    target.marks = target'.marks ∧ property = property' := by
  have hpoint {s : String} (hs : isIdentifier s = true) : .char '.' ∉ chars s :=
    fun hm => point_not_mem_identifier hs (char_mem_chars.1 hm)
  rw [marks, marks] at h
  obtain ⟨htarget, hproperty⟩ := append_cons_inj_of_last (hpoint hp) (hpoint hp') h
  exact ⟨htarget, chars_injective hproperty⟩

theorem call_marks_inj {callee callee' : String} {arguments arguments' : List Form}
    (hc : Dotted callee) (hc' : Dotted callee')
    (h : (Form.call callee arguments).marks = (Form.call callee' arguments').marks) :
    callee = callee' ∧ joined (marksItems arguments) = joined (marksItems arguments') := by
  rw [marks, marks] at h
  obtain ⟨hcallee, hrest⟩ := append_cons_inj_of_first (hc.unmarked.char_not_mem (by decide))
    (hc'.unmarked.char_not_mem (by decide)) h
  exact ⟨chars_injective hcallee, List.append_cancel_right hrest⟩

/-! ### Groups -/

theorem WellFormed.solid_group {f : Form} (hf : WellFormed f) : Solid (enclosed '(' ')' f.marks) :=
  Solid.enclosed rfl rfl rfl hf.solid.loose

theorem unary_marks_inj {op op' : String} {x y : Form} (ho : op ∈ signs) (ho' : op' ∈ signs)
    (h : (Form.unary op x).marks = (Form.unary op' y).marks) : op = op' ∧ x.marks = y.marks := by
  rw [marks, marks] at h
  have hcontent := enclosed_inj h
  simp only [signs, List.mem_cons, List.not_mem_nil, or_false] at ho ho'
  rcases ho with rfl | rfl | rfl <;> rcases ho' with rfl | rfl | rfl <;>
    simp_all [chars]

theorem unary_ne_binary {op op' : String} {x left right : Form} (ho : op ∈ signs)
    (hx : WellFormed x) (hl : WellFormed left) :
    (Form.unary op x).marks ≠ (Form.binary left op' right).marks := by
  intro h
  rw [marks, marks] at h
  exact ((unmarked_of_mem_signs ho).solid.append hx.solid).ne_append_cons hl.solid rfl
    (enclosed_inj h)

theorem unary_ne_conditional {op : String} {x test yes no : Form} (ho : op ∈ signs)
    (hx : WellFormed x) (ht : WellFormed test) :
    (Form.unary op x).marks ≠ (Form.conditional test yes no).marks := by
  intro h
  rw [marks, marks] at h
  exact ((unmarked_of_mem_signs ho).solid.append hx.solid).ne_append_cons ht.solid_group rfl
    (enclosed_inj h)

theorem binary_ne_conditional {op : String} {left right test yes no : Form}
    (hl : WellFormed left) (ho : PlainOperator op) (ht : WellFormed test) :
    (Form.binary left op right).marks ≠ (Form.conditional test yes no).marks := by
  intro h
  rw [marks, marks] at h
  -- the test could be the left side, but then the question mark would be the operator
  obtain ⟨-, hrest⟩ := hl.solid.append_inj ht.solid_group (stops_cons _ rfl) (stops_cons _ rfl)
    (enclosed_inj h)
  exact ho.ne_question (List.cons.inj hrest).2

theorem binary_marks_inj {op op' : String} {left left' right right' : Form}
    (hl : WellFormed left) (hl' : WellFormed left') (ho : PlainOperator op)
    (ho' : PlainOperator op')
    (h : (Form.binary left op right).marks = (Form.binary left' op' right').marks) :
    left.marks = left'.marks ∧ op = op' ∧ right.marks = right'.marks := by
  rw [marks, marks] at h
  obtain ⟨hleft, hrest⟩ := hl.solid.append_inj hl'.solid (stops_cons _ rfl) (stops_cons _ rfl)
    (enclosed_inj h)
  obtain ⟨hop, hright⟩ := ho.unmarked.solid.append_inj ho'.unmarked.solid (stops_cons _ rfl)
    (stops_cons _ rfl) (List.cons.inj hrest).2
  exact ⟨hleft, chars_injective hop, (List.cons.inj hright).2⟩

theorem conditional_marks_inj {test test' yes yes' no no' : Form} (ht : WellFormed test)
    (ht' : WellFormed test') (hy : WellFormed yes) (hy' : WellFormed yes')
    (h : (Form.conditional test yes no).marks = (Form.conditional test' yes' no').marks) :
    test.marks = test'.marks ∧ yes.marks = yes'.marks ∧ no.marks = no'.marks := by
  rw [marks, marks] at h
  obtain ⟨htest, hrest⟩ := ht.solid_group.append_inj ht'.solid_group (stops_cons _ rfl)
    (stops_cons _ rfl) (enclosed_inj h)
  simp only [List.cons.injEq, true_and] at hrest
  obtain ⟨hyes, hrest⟩ := hy.solid_group.append_inj hy'.solid_group (stops_cons _ rfl)
    (stops_cons _ rfl) hrest
  simp only [List.cons.injEq, true_and] at hrest
  exact ⟨enclosed_inj htest, enclosed_inj hyes, enclosed_inj hrest⟩

/-- Well-formed forms with the same marks are the same. -/
theorem WellFormed.marks_injective {a b : Form} (ha : WellFormed a) (hb : WellFormed b)
    (h : a.marks = b.marks) : a = b := by
  induction ha generalizing b with
  | null => exact WellFormed.null.eq_of_word hb rfl h
  | bool x => exact (WellFormed.bool x).eq_of_word hb rfl h
  | number hn => exact (WellFormed.number hn).eq_of_word hb rfl h
  | name hi hr => exact (WellFormed.name hi hr).eq_of_word hb rfl h
  | string s =>
    have hkind := (WellFormed.string s).kind_eq hb h
    cases hb with
    | string s' => simpa [marks] using h
    | _ => exact absurd hkind (by simp [kind])
  | array hf ih =>
    have hkind := (WellFormed.array hf).kind_eq hb h
    cases hb with
    | array hg =>
      rw [marks, marks] at h
      rw [items_injective hf hg ih (enclosed_inj h)]
    | index ht hk => exact absurd h (array_ne_index hf ht hk)
    | _ => exact absurd hkind (by simp [kind])
  | object hf ih =>
    have hkind := (WellFormed.object hf).kind_eq hb h
    cases hb with
    | object hg =>
      rw [marks, marks] at h
      rw [entries_injective hf hg ih (enclosed_inj h)]
    | _ => exact absurd hkind (by simp [kind])
  | unary ho hx ih =>
    have hkind := (WellFormed.unary ho hx).kind_eq hb h
    cases hb with
    | unary ho' hy =>
      obtain ⟨rfl, hm⟩ := unary_marks_inj ho ho' h
      rw [ih hy hm]
    | binary hl ho' hr => exact absurd h (unary_ne_binary ho hx hl)
    | conditional ht hy hn => exact absurd h (unary_ne_conditional ho hx ht)
    | _ => exact absurd hkind (by simp [kind])
  | binary hl ho hr ihl ihr =>
    have hkind := (WellFormed.binary hl ho hr).kind_eq hb h
    cases hb with
    | unary ho' hx => exact absurd h.symm (unary_ne_binary ho' hx hl)
    | binary hl' ho' hr' =>
      obtain ⟨hleft, rfl, hright⟩ := binary_marks_inj hl hl' ho ho' h
      rw [ihl hl' hleft, ihr hr' hright]
    | conditional ht hy hn => exact absurd h (binary_ne_conditional hl ho ht)
    | _ => exact absurd hkind (by simp [kind])
  | conditional ht hy hn iht ihy ihn =>
    have hkind := (WellFormed.conditional ht hy hn).kind_eq hb h
    cases hb with
    | unary ho hx => exact absurd h.symm (unary_ne_conditional ho hx ht)
    | binary hl ho hr => exact absurd h.symm (binary_ne_conditional hl ho ht)
    | conditional ht' hy' hn' =>
      obtain ⟨htest, hyes, hno⟩ := conditional_marks_inj ht ht' hy hy' h
      rw [iht ht' htest, ihy hy' hyes, ihn hn' hno]
    | _ => exact absurd hkind (by simp [kind])
  | member ht hp ih =>
    rcases hw : b.word? with _ | w
    · obtain ⟨target, property, rfl⟩ := eq_member ((WellFormed.member ht hp).kind_eq hb h).symm hw
      cases hb with
      | member ht' hp' =>
        obtain ⟨htarget, rfl⟩ := member_marks_inj hp hp' h
        rw [ih ht' htarget]
    · exact (hb.eq_of_word (.member ht hp) hw h.symm).symm
  | index ht hk iht ihk =>
    have hkind := (WellFormed.index ht hk).kind_eq hb h
    cases hb with
    | array hg => exact absurd h.symm (array_ne_index hg ht hk)
    | index ht' hk' =>
      obtain ⟨htarget, hkey⟩ := index_marks_inj ht ht' hk hk' h
      rw [iht ht' htarget, ihk hk' hkey]
    | _ => exact absurd hkind (by simp [kind])
  | call hc hf ih =>
    have hkind := (WellFormed.call hc hf).kind_eq hb h
    cases hb with
    | call hc' hg =>
      obtain ⟨rfl, hitems⟩ := call_marks_inj hc hc' h
      rw [items_injective hf hg ih hitems]
    | _ => exact absurd hkind (by simp [kind])

end Form

end ScriptWriter
