import Mathlib.Data.Sum.Basic
import ScriptWriter.Proofs.Entries
import ScriptWriter.Proofs.ExprText
import ScriptWriter.Proofs.RoundsTo

/-!
# Equality of values and expressions

Equality goes part by part: what it says of two values follows from their kinds and from what it
says of their parts (`Value.beq_iff_step`), and for expressions likewise (`Expr.beq_iff_step`). A
map is compared from one side only, but its keys are distinct, so the entries of the other side are
all met. From this step its laws follow by induction over the parts (`equality_laws`): it is
symmetric and transitive, it is reflexive where no NaN is among the numbers, and it does not see the
order of the entries of a map.
-/

namespace ScriptWriter

/-! ## Numbers -/

namespace Binary64

/-- The two are equal as numbers: finite with the same value, whatever the sign of a zero, or the
same infinity. A NaN is neither. -/
def Equals (x y : Binary64) : Prop :=
  x.isFinite = true ∧ y.isFinite = true ∧ x.toRat = y.toRat
    ∨ x.isInfinite = true ∧ y.isInfinite = true ∧ x.isNegative = y.isNegative

theorem eq_of_magnitude {x y : Binary64} (hs : x.isNegative = y.isNegative)
    (hm : x.magnitudeBits = y.magnitudeBits) : x = y := by
  rw [← ofMagnitude_self x, hs, hm, ofMagnitude_self]

theorem magnitudeBits_eq_of_toRat {x y : Binary64} (h : x.toRat = y.toRat) :
    x.magnitudeBits = y.magnitudeBits := by
  have habs := congrArg abs h
  rw [toRat_eq, toRat_eq, abs_signed _ (magnitudeAt_nonneg _),
    abs_signed _ (magnitudeAt_nonneg _)] at habs
  exact magnitudeAt_injective habs

/-- Only a zero is the same number with the other sign. -/
theorem magnitudeBits_eq_zero {x y : Binary64} (h : x.toRat = y.toRat)
    (hs : x.isNegative ≠ y.isNegative) : x.magnitudeBits = 0 := by
  have hnonneg := magnitudeAt_nonneg x.magnitudeBits
  have hsum := abs_signed_sub_opposite hnonneg hnonneg hs
  rw [toRat_eq, toRat_eq, ← magnitudeBits_eq_of_toRat h] at h
  rw [h, sub_self, abs_zero] at hsum
  refine magnitudeAt_injective ?_
  rw [magnitudeAt, magnitudeAt, unitsAt_zero, Nat.cast_zero, zero_div, ← magnitudeAt]
  linarith

theorem sameNumber_iff (x y : Binary64) : x.sameNumber y = true ↔ x.Equals y := by
  have hkind (z : Binary64) (h : z.isNaN = false) : z.isFinite = true ∨ z.isInfinite = true := by
    simp only [isNaN, isFinite, isInfinite, decide_eq_false_iff_not, decide_eq_true_eq] at h ⊢
    omega
  simp only [sameNumber, Bool.and_eq_true, Bool.or_eq_true, Bool.not_eq_true', beq_iff_eq]
  constructor
  · rintro ⟨⟨hx, -⟩, hbits | ⟨hx0, hy0⟩⟩
    · obtain rfl : x = y := congrArg Binary64.mk hbits
      rcases hkind x hx with h | h
      · exact Or.inl ⟨h, h, rfl⟩
      · exact Or.inr ⟨h, h, rfl⟩
    · have hzero (z : Binary64) (h : z.isZero = true) : z.isFinite = true ∧ z.toRat = 0 := by
        have hbits : z.magnitudeBits = 0 := by simpa [isZero] using h
        refine ⟨by simp [isFinite, hbits, infinityBits], ?_⟩
        rw [toRat_eq, hbits, magnitudeAt, unitsAt_zero]
        simp [signed]
      obtain ⟨hxf, hxr⟩ := hzero x hx0
      obtain ⟨hyf, hyr⟩ := hzero y hy0
      exact Or.inl ⟨hxf, hyf, hxr.trans hyr.symm⟩
  · rintro (⟨hx, hy, heq⟩ | ⟨hx, hy, hs⟩)
    · refine ⟨⟨Bool.eq_false_of_not_eq_true (not_isNaN_of_isFinite hx),
        Bool.eq_false_of_not_eq_true (not_isNaN_of_isFinite hy)⟩, ?_⟩
      have hm := magnitudeBits_eq_of_toRat heq
      by_cases hs : x.isNegative = y.isNegative
      · exact Or.inl (congrArg bits (eq_of_magnitude hs hm))
      · have h0 := magnitudeBits_eq_zero heq hs
        exact Or.inr ⟨by simp [isZero, h0], by simp [isZero, ← hm, h0]⟩
    · simp only [isInfinite, decide_eq_true_eq] at hx hy
      refine ⟨⟨by simp [isNaN, hx], by simp [isNaN, hy]⟩, Or.inl ?_⟩
      exact congrArg bits (eq_of_magnitude hs (hx.trans hy.symm))

namespace Equals

variable {x y z : Binary64}

theorem symm (h : x.Equals y) : y.Equals x := by
  rcases h with ⟨hx, hy, heq⟩ | ⟨hx, hy, hs⟩
  · exact Or.inl ⟨hy, hx, heq.symm⟩
  · exact Or.inr ⟨hy, hx, hs.symm⟩

theorem trans (h : x.Equals y) (h' : y.Equals z) : x.Equals z := by
  rcases h with ⟨hx, hy, heq⟩ | ⟨hx, hy, hs⟩ <;> rcases h' with ⟨hy', hz, heq'⟩ | ⟨hy', hz, hs'⟩
  · exact Or.inl ⟨hx, hz, heq.trans heq'⟩
  · exact absurd hy' (not_isInfinite_of_isFinite hy)
  · exact absurd hy (not_isInfinite_of_isFinite hy')
  · exact Or.inr ⟨hx, hz, hs.trans hs'⟩

theorem self_iff : x.Equals x ↔ x.isNaN = false := by
  rw [← sameNumber_iff]
  simp [sameNumber]

end Equals

end Binary64

/-! ## Lists of parts -/

section Parts

variable {α : Type} {R S T : α → α → Prop} {as bs cs : List α}

theorem forall₂_flip (h : List.Forall₂ R as bs) (hRS : ∀ a ∈ as, ∀ b ∈ bs, R a b → S b a) :
    List.Forall₂ S bs as := by
  induction h with
  | nil => exact .nil
  | cons hab _ ih =>
    refine .cons (hRS _ List.mem_cons_self _ List.mem_cons_self hab) (ih fun a ha b hb => ?_)
    exact hRS a (List.mem_cons_of_mem _ ha) b (List.mem_cons_of_mem _ hb)

theorem forall₂_trans (h : List.Forall₂ R as bs) (h' : List.Forall₂ S bs cs)
    (hRST : ∀ a ∈ as, ∀ b c, R a b → S b c → T a c) : List.Forall₂ T as cs := by
  induction h generalizing cs with
  | nil => cases h'; exact .nil
  | cons hab _ ih =>
    cases h' with
    | cons hbc h' =>
      refine .cons (hRST _ List.mem_cons_self _ _ hab hbc) (ih h' fun a ha => ?_)
      exact hRST a (List.mem_cons_of_mem _ ha)

/-- What is alike for partners is alike for lists of partners. -/
theorem forall_mem_congr {P Q : α → Prop} (h : List.Forall₂ R as bs)
    (hPQ : ∀ a b, R a b → (P a ↔ Q b)) : (∀ a ∈ as, P a) ↔ ∀ b ∈ bs, Q b := by
  induction h with
  | nil => simp
  | cons hab _ ih => rw [List.forall_mem_cons, List.forall_mem_cons, hPQ _ _ hab, ih]

theorem forall_mem_of_forall₂ {P Q : α → Prop} (h : List.Forall₂ (fun a b => P a → Q b) as bs)
    (hP : ∀ a ∈ as, P a) : ∀ b ∈ bs, Q b := by
  induction h with
  | nil => exact nofun
  | cons hab _ ih =>
    obtain ⟨ha, has⟩ := List.forall_mem_cons.1 hP
    exact List.forall_mem_cons.2 ⟨hab ha, ih has⟩

theorem forall₂_congr_left (h : List.Forall₂ R as bs) (hRS : ∀ a b c, R a b → (S a c ↔ S b c)) :
    List.Forall₂ S as cs ↔ List.Forall₂ S bs cs := by
  induction h generalizing cs with
  | nil => rfl
  | cons hab _ ih =>
    cases cs with
    | nil => exact iff_of_false nofun nofun
    | cons c cs => rw [List.forall₂_cons, List.forall₂_cons, hRS _ _ c hab, ih]

end Parts

/-! ## Values -/

namespace Value

/-- What makes two values equal, given which of their parts are. Values of two kinds never are. -/
def Step (R : Value → Value → Prop) : Value → Value → Prop
  | .null, .null => True
  | .bool a, .bool b => a = b
  | .int a, .int b => a = b
  | .float x, .float y => x.Equals y
  | .string a, .string b => a = b
  | .list as, .list bs => List.Forall₂ R as bs
  | .map as, .map bs => EntriesAgree R as bs
  | _, _ => False

theorem beqItems_iff (as bs : List Value) :
    beqItems as bs = true ↔ List.Forall₂ (fun a b => (a == b) = true) as bs := by
  induction as generalizing bs with
  | nil => cases bs <;> simp [beqItems]
  | cons a as ih =>
    cases bs with
    | nil => simp [beqItems]
    | cons b bs =>
      rw [beqItems, Bool.and_eq_true, ih, List.forall₂_cons]
      rfl

theorem beqEntries_iff (as bs : List (String × Value)) : beqEntries as bs = true
    ↔ ∀ p ∈ as, ∃ w, bs.lookup p.1 = some w ∧ (p.2 == w) = true := by
  induction as with
  | nil => simp [beqEntries]
  | cons p as ih =>
    obtain ⟨key, a⟩ := p
    rw [beqEntries, Bool.and_eq_true, ih, List.forall_mem_cons]
    refine and_congr_left fun _ => ?_
    rcases bs.lookup key with _ | b
    · simp
    · simp only [Option.some.injEq, exists_eq_left']
      rfl

theorem beq_iff_step (a b : Value) :
    (a == b) = true ↔ a.Step (fun v w => (v == w) = true) b := by
  change beq a b = true ↔ _
  cases a <;> cases b <;>
    simp only [beq, Step, beq_iff_eq, Binary64.sameNumber_iff, beqItems_iff, beqEntries_iff,
      Bool.and_eq_true, EntriesAgree, Bool.false_eq_true]

/-- The keys of a map are distinct, and so are those of the maps among its parts. -/
inductive Proper : Value → Prop
  | intro {v : Value} (keys : ∀ entries, v = .map entries → (entries.map Prod.fst).Nodup)
    (parts : ∀ w ∈ v.parts, Proper w) : Proper v

/-- The number is the value or one of its parts at any depth. -/
inductive Has (x : Binary64) : Value → Prop
  | float : Has x (.float x)
  | part {v w : Value} (mem : w ∈ v.parts) (has : Has x w) : Has x v

/-- The values differ in the order of the entries of maps only, at any depth. -/
inductive Rearranged : Value → Value → Prop
  | refl (v : Value) : Rearranged v v
  | list {as bs : List Value} (length : as.length = bs.length)
    (each : ∀ p ∈ as.zip bs, Rearranged p.1 p.2) : Rearranged (.list as) (.list bs)
  /-- The values of the entries are rearranged in place, and then the entries. -/
  | map {as bs cs : List (String × Value)} (length : as.length = bs.length)
    (keys : ∀ p ∈ as.zip bs, p.1.1 = p.2.1) (each : ∀ p ∈ as.zip bs, Rearranged p.1.2 p.2.2)
    (order : bs.Perm cs) : Rearranged (.map as) (.map cs)

theorem beq_symm {a : Value} : ∀ {b : Value}, a.Proper → b.Proper → (a == b) = true →
    (b == a) = true := by
  induction a using parts_induction with
  | h a ih =>
    intro b ⟨hkeys, hparts⟩ ⟨hkeys', hparts'⟩ h
    rw [beq_iff_step] at h ⊢
    cases a <;> cases b <;> try exact h.elim
    case null.null => trivial
    case bool.bool => exact h.symm
    case int.int => exact h.symm
    case float.float => exact h.symm
    case string.string => exact h.symm
    case list.list as bs =>
      exact forall₂_flip h fun v hv w hw => ih v hv (hparts v hv) (hparts' w hw)
    case map.map as bs =>
      rw [Step] at h ⊢
      refine h.flip (hkeys as rfl) (hkeys' bs rfl) fun p hp q hq => ?_
      have hp' := List.mem_map_of_mem (f := Prod.snd) hp
      have hq' := List.mem_map_of_mem (f := Prod.snd) hq
      exact ih p.2 hp' (hparts p.2 hp') (hparts' q.2 hq')

theorem beq_trans {a : Value} : ∀ {b c : Value}, (a == b) = true → (b == c) = true →
    (a == c) = true := by
  induction a using parts_induction with
  | h a ih =>
    intro b c h h'
    rw [beq_iff_step] at h h' ⊢
    cases a <;> cases b <;> (try exact h.elim) <;> cases c <;> try exact h'.elim
    case null.null.null => trivial
    case bool.bool.bool => exact h.trans h'
    case int.int.int => exact h.trans h'
    case float.float.float => exact h.trans h'
    case string.string.string => exact h.trans h'
    case list.list.list => exact forall₂_trans h h' fun v hv _ _ => ih v hv
    case map.map.map as bs cs =>
      rw [Step] at h h' ⊢
      exact h.trans h' fun p hp _ _ => ih p.2 (List.mem_map_of_mem hp)

theorem has_iff {x : Binary64} {v : Value} :
    v.Has x ↔ v = .float x ∨ ∃ w ∈ v.parts, w.Has x := by
  constructor
  · rintro (_ | ⟨mem, has⟩)
    · exact Or.inl rfl
    · exact Or.inr ⟨_, mem, has⟩
  · rintro (rfl | ⟨w, mem, has⟩)
    · exact .float
    · exact .part mem has

/-- A value is equal to itself if its parts are, NaN apart. -/
theorem step_self_iff {R : Value → Value → Prop} {v : Value} (h : v.Proper) :
    v.Step R v ↔ (∀ x, v = .float x → x.isNaN = false) ∧ ∀ w ∈ v.parts, R w w := by
  obtain ⟨hkeys, -⟩ := h
  cases v with
  | list items => simp [Step, parts, List.forall₂_same]
  | map entries =>
    rw [Step, EntriesAgree.self_iff (hkeys entries rfl), parts, values, List.forall_mem_map]
    simp
  | float x => simp [Step, parts, Binary64.Equals.self_iff]
  | _ => simp [Step, parts]

theorem beq_self_iff {v : Value} (h : v.Proper) :
    (v == v) = true ↔ ∀ x, v.Has x → x.isNaN = false := by
  induction v using parts_induction with
  | h v ih =>
    have hparts : (∀ w ∈ v.parts, (w == w) = true)
        ↔ ∀ w ∈ v.parts, ∀ x, w.Has x → x.isNaN = false := by
      obtain ⟨-, hparts⟩ := h
      exact forall₂_congr fun w hw => ih w hw (hparts w hw)
    rw [beq_iff_step, step_self_iff h, hparts]
    constructor
    · rintro ⟨hself, hparts⟩ x hx
      rcases has_iff.1 hx with hv | ⟨w, hw, hwx⟩
      · exact hself x hv
      · exact hparts w hw x hwx
    · intro hall
      exact ⟨fun x hx => hall x (has_iff.2 (Or.inl hx)),
        fun w hw x hx => hall x (has_iff.2 (Or.inr ⟨w, hw, hx⟩))⟩

theorem Rearranged.beq_congr {a a' : Value} (h : Rearranged a a') :
    ∀ b, (a == b) = true ↔ (a' == b) = true := by
  induction h with
  | refl v => exact fun _ => Iff.rfl
  | @list as bs length each ih =>
    intro b
    have hpairs : List.Forall₂ (fun v w => ∀ c, (v == c) = true ↔ (w == c) = true) as bs :=
      List.forall₂_iff_zip.2 ⟨length, fun {v w} hp => ih (v, w) hp⟩
    rw [beq_iff_step, beq_iff_step]
    cases b with
    | list cs => exact forall₂_congr_left hpairs fun _ _ c hc => hc c
    | _ => rfl
  | @map as bs cs length keys each order ih =>
    intro b
    have hpairs : List.Forall₂
        (fun p q => p.1 = q.1 ∧ ∀ c, (p.2 == c) = true ↔ (q.2 == c) = true) as bs :=
      List.forall₂_iff_zip.2 ⟨length, fun {p q} hp => ⟨keys (p, q) hp, ih (p, q) hp⟩⟩
    rw [beq_iff_step, beq_iff_step]
    cases b with
    | map ds =>
      refine and_congr (by rw [length, order.length_eq]) ?_
      rw [forall_mem_congr hpairs (Q := fun q => ∃ w, ds.lookup q.1 = some w ∧ (q.2 == w) = true)
        fun p q hpq => by simp only [hpq.1, hpq.2]]
      exact forall_congr' fun p => imp_congr_left order.mem_iff
    | _ => rfl

theorem Rearranged.proper {a a' : Value} (h : Rearranged a a') : a.Proper → a'.Proper := by
  induction h with
  | refl v => exact id
  | @list as bs length each ih =>
    rintro ⟨-, hparts⟩
    refine ⟨nofun, forall_mem_of_forall₂ (P := Proper) ?_ hparts⟩
    exact List.forall₂_iff_zip.2 ⟨length, fun {v w} hp => ih (v, w) hp⟩
  | @map as bs cs length keys each order ih =>
    rintro ⟨hkeys, hparts⟩
    have hsame : as.map Prod.fst = bs.map Prod.fst := by
      rw [← List.forall₂_eq_eq_eq, List.forall₂_map_left_iff, List.forall₂_map_right_iff]
      exact List.forall₂_iff_zip.2 ⟨length, fun {p q} hp => keys (p, q) hp⟩
    rw [parts, values, List.forall_mem_map] at hparts
    have hvalues : ∀ q ∈ bs, q.2.Proper := by
      refine forall_mem_of_forall₂ (P := fun p => p.2.Proper) ?_ hparts
      exact List.forall₂_iff_zip.2 ⟨length, fun {p q} hp => ih (p, q) hp⟩
    refine ⟨fun entries heq => ?_, List.forall_mem_map.2 fun q hq => hvalues q (order.mem_iff.2 hq)⟩
    cases heq
    exact (order.map Prod.fst).nodup_iff.1 (hsame ▸ hkeys as rfl)

end Value

/-! ## Expressions -/

namespace Expr

/-- What an expression is apart from its parts, constants left out. -/
inductive Shape where
  | name (text : String)
  | array
  | object (keys : List String)
  | unary (operator : String)
  | binary (operator : String)
  | conditional
  | member (property : String)
  | index
  | call (function : String)

/-- What an expression is apart from its parts: a constant with its value, or the shape of another
kind. -/
def head : Expr → Value ⊕ Shape
  | .constant v => .inl v
  | .name text => .inr (.name text)
  | .array _ => .inr .array
  | .object entries => .inr (.object (entries.map Prod.fst))
  | .unary operator _ => .inr (.unary operator)
  | .binary _ operator _ => .inr (.binary operator)
  | .conditional _ _ _ => .inr .conditional
  | .member _ property => .inr (.member property)
  | .index _ _ => .inr .index
  | .call function _ => .inr (.call function)

/-- The expressions are of one shape, their constants are related by `V` and their parts by `R`. -/
def Step (V : Value → Value → Prop) (R : Expr → Expr → Prop) (a b : Expr) : Prop :=
  Sum.LiftRel V Eq a.head b.head ∧ List.Forall₂ R a.children b.children

theorem beqItems_iff (as bs : List Expr) :
    beqItems as bs = true ↔ List.Forall₂ (fun a b => (a == b) = true) as bs := by
  induction as generalizing bs with
  | nil => cases bs <;> simp [beqItems]
  | cons a as ih =>
    cases bs with
    | nil => simp [beqItems]
    | cons b bs =>
      rw [beqItems, Bool.and_eq_true, ih, List.forall₂_cons]
      rfl

theorem beqEntries_iff (as bs : List (String × Expr)) : beqEntries as bs = true
    ↔ as.map Prod.fst = bs.map Prod.fst
      ∧ List.Forall₂ (fun a b => (a == b) = true) (as.map Prod.snd) (bs.map Prod.snd) := by
  induction as generalizing bs with
  | nil => cases bs <;> simp [beqEntries]
  | cons a as ih =>
    obtain ⟨key, a⟩ := a
    cases bs with
    | nil => simp [beqEntries]
    | cons b bs =>
      obtain ⟨key', b⟩ := b
      simp only [beqEntries, Bool.and_eq_true, beq_iff_eq, ih, List.map_cons, List.cons.injEq,
        List.forall₂_cons]
      exact and_and_and_comm

theorem beq_iff_step (a b : Expr) : (a == b) = true
    ↔ a.Step (fun v w => (v == w) = true) (fun c d => (c == d) = true) b := by
  change beq a b = true ↔ _
  unfold Step
  cases a <;> cases b <;> simp [beq, head, children, beqItems_iff, beqEntries_iff, and_assoc]
  case unary.unary => exact fun _ => rfl
  case binary.binary => exact fun _ => Iff.rfl
  case conditional.conditional => exact Iff.rfl
  case member.member => exact and_comm
  case index.index => exact Iff.rfl

/-- The maps among the constants have distinct keys at every depth. -/
inductive Proper : Expr → Prop
  | intro {e : Expr} (constants : ∀ v, e.head = .inl v → v.Proper)
    (children : ∀ c ∈ e.children, Proper c) : Proper e

/-- The number is in a constant of the expression. -/
inductive Has (x : Binary64) : Expr → Prop
  | constant {v : Value} (has : v.Has x) : Has x (.constant v)
  | child {e c : Expr} (mem : c ∈ e.children) (has : Has x c) : Has x e

/-- The expressions differ in the order of the entries of maps among their constants only. -/
inductive Rearranged : Expr → Expr → Prop
  | intro {a b : Expr} (head : Sum.LiftRel Value.Rearranged Eq a.head b.head)
    (length : a.children.length = b.children.length)
    (each : ∀ p ∈ a.children.zip b.children, Rearranged p.1 p.2) : Rearranged a b

theorem beq_symm {a : Expr} : ∀ {b : Expr}, a.Proper → b.Proper → (a == b) = true →
    (b == a) = true := by
  induction a using children_induction with
  | h a ih =>
    intro b ⟨hconstants, hchildren⟩ ⟨hconstants', hchildren'⟩ h
    rw [beq_iff_step] at h ⊢
    obtain ⟨hhead, heach⟩ := h
    refine ⟨?_, forall₂_flip heach fun c hc d hd => ih c hc (hchildren c hc) (hchildren' d hd)⟩
    generalize a.head = x at hhead hconstants
    generalize b.head = y at hhead hconstants'
    cases hhead with
    | inl h => exact .inl (Value.beq_symm (hconstants _ rfl) (hconstants' _ rfl) h)
    | inr h => exact .inr h.symm

theorem beq_trans {a : Expr} : ∀ {b c : Expr}, (a == b) = true → (b == c) = true →
    (a == c) = true := by
  induction a using children_induction with
  | h a ih =>
    intro b c h h'
    rw [beq_iff_step] at h h' ⊢
    obtain ⟨hhead, heach⟩ := h
    obtain ⟨hhead', heach'⟩ := h'
    refine ⟨?_, forall₂_trans heach heach' fun d hd _ _ => ih d hd⟩
    generalize a.head = x at hhead
    generalize b.head = y at hhead hhead'
    generalize c.head = z at hhead'
    cases hhead with
    | inl h =>
      cases hhead' with
      | inl h' => exact .inl (Value.beq_trans h h')
    | inr h =>
      cases hhead' with
      | inr h' => exact .inr (h.trans h')

theorem has_iff {x : Binary64} {e : Expr} :
    e.Has x ↔ (∃ v, e.head = .inl v ∧ v.Has x) ∨ ∃ c ∈ e.children, c.Has x := by
  constructor
  · rintro (has | ⟨mem, has⟩)
    · exact Or.inl ⟨_, rfl, has⟩
    · exact Or.inr ⟨_, mem, has⟩
  · rintro (⟨v, hv, has⟩ | ⟨c, mem, has⟩)
    · cases e <;> cases hv
      exact .constant has
    · exact .child mem has

theorem beq_self_iff {e : Expr} (h : e.Proper) :
    (e == e) = true ↔ ∀ x, e.Has x → x.isNaN = false := by
  induction e using children_induction with
  | h e ih =>
    obtain ⟨hconstants, hchildren⟩ := h
    have hhead : Sum.LiftRel (fun v w => (v == w) = true) Eq e.head e.head
        ↔ ∀ v, e.head = .inl v → ∀ x, v.Has x → x.isNaN = false := by
      rcases hv : e.head with v | shape
      · simp [Value.beq_self_iff (hconstants v hv)]
      · simp
    have heach : List.Forall₂ (fun c d => (c == d) = true) e.children e.children
        ↔ ∀ c ∈ e.children, ∀ x, c.Has x → x.isNaN = false := by
      rw [List.forall₂_same]
      exact forall₂_congr fun c hc => ih c hc (hchildren c hc)
    rw [beq_iff_step, Step, hhead, heach]
    constructor
    · rintro ⟨hv, hc⟩ x hx
      rcases has_iff.1 hx with ⟨v, hhead, has⟩ | ⟨c, mem, has⟩
      · exact hv v hhead x has
      · exact hc c mem x has
    · intro hall
      exact ⟨fun v hv x hx => hall x (has_iff.2 (Or.inl ⟨v, hv, hx⟩)),
        fun c hc x hx => hall x (has_iff.2 (Or.inr ⟨c, hc, hx⟩))⟩

theorem Rearranged.beq_congr {a a' : Expr} (h : Rearranged a a') :
    ∀ b, (a == b) = true ↔ (a' == b) = true := by
  induction h with
  | @intro a a' head length each ih =>
    intro b
    have hpairs : List.Forall₂ (fun c d => ∀ f, (c == f) = true ↔ (d == f) = true)
        a.children a'.children :=
      List.forall₂_iff_zip.2 ⟨length, fun {c d} hp => ih (c, d) hp⟩
    rw [beq_iff_step, beq_iff_step]
    refine and_congr ?_ (forall₂_congr_left hpairs fun _ _ f hf => hf f)
    generalize a.head = x at head
    generalize a'.head = y at head
    cases head with
    | inl h =>
      cases b.head with
      | inl w => simp [h.beq_congr w]
      | inr shape => simp
    | inr h => rw [h]

theorem Rearranged.proper {a a' : Expr} (h : Rearranged a a') : a.Proper → a'.Proper := by
  induction h with
  | @intro a a' head length each ih =>
    rintro ⟨hconstants, hchildren⟩
    refine ⟨fun w hw => ?_, forall_mem_of_forall₂ (P := Proper) ?_ hchildren⟩
    · rw [hw] at head
      generalize hv : a.head = x at head
      cases head with
      | inl h => exact h.proper (hconstants _ hv)
    · exact List.forall₂_iff_zip.2 ⟨length, fun {c d} hp => ih (c, d) hp⟩

end Expr

/-! ## The laws -/

/-- The laws of an equality that compares numbers as numbers and does not look at the order of the
entries of maps. `Proper` says that keys are distinct, `Has` which numbers are inside and
`Rearranged` what differs in the order of the entries only. -/
structure EqualityLaws {α : Type} [BEq α] (Proper : α → Prop) (Has : Binary64 → α → Prop)
    (Rearranged : α → α → Prop) : Prop where
  symm : ∀ {a b : α}, Proper a → Proper b → (a == b) = (b == a)
  trans : ∀ {a b c : α}, (a == b) = true → (b == c) = true → (a == c) = true
  self_iff : ∀ {a : α}, Proper a → ((a == a) = true ↔ ∀ x, Has x a → x.isNaN = false)
  rearranged : ∀ {a a' b b' : α}, Proper a → Proper b → Rearranged a a' → Rearranged b b' →
    (a == b) = (a' == b')

/-- An equality that is symmetric, and blind to the order on its left, is so on both sides. -/
theorem equalityLaws_of {α : Type} [BEq α] {Proper : α → Prop} {Has : Binary64 → α → Prop}
    {Rearranged : α → α → Prop}
    (symm : ∀ {a b : α}, Proper a → Proper b → (a == b) = true → (b == a) = true)
    (trans : ∀ {a b c : α}, (a == b) = true → (b == c) = true → (a == c) = true)
    (self_iff : ∀ {a : α}, Proper a → ((a == a) = true ↔ ∀ x, Has x a → x.isNaN = false))
    (congr : ∀ {a a' : α}, Rearranged a a' → ∀ b, (a == b) = true ↔ (a' == b) = true)
    (proper : ∀ {a a' : α}, Rearranged a a' → Proper a → Proper a') :
    EqualityLaws Proper Has Rearranged := by
  have hsymm {a b : α} (ha : Proper a) (hb : Proper b) : (a == b) = (b == a) :=
    Bool.eq_iff_iff.2 ⟨symm ha hb, symm hb ha⟩
  refine ⟨hsymm, trans, self_iff, fun {a a' b b'} ha hb h h' => ?_⟩
  calc (a == b) = (a' == b) := Bool.eq_iff_iff.2 (congr h b)
    _ = (b == a') := hsymm (proper h ha) hb
    _ = (b' == a') := Bool.eq_iff_iff.2 (congr h' a')
    _ = (a' == b') := hsymm (proper h' hb) (proper h ha)

/-- Equality of values and of expressions has the laws above. It is determined by one step down: two
values are equal if they are of one kind and their parts are equal, a map by its keys, and two
expressions if they are of one shape, with equal constants, and their parts are equal in order. So
equal object expressions list the same keys in the same order. -/
theorem equality_laws :
    EqualityLaws Value.Proper Value.Has Value.Rearranged
      ∧ EqualityLaws Expr.Proper Expr.Has Expr.Rearranged
      ∧ (∀ a b : Value, (a == b) = true ↔ a.Step (fun v w => (v == w) = true) b)
      ∧ (∀ a b : Expr, (a == b) = true
        ↔ a.Step (fun v w => (v == w) = true) (fun c d => (c == d) = true) b)
      ∧ ∀ as bs : List (String × Expr), (Expr.object as == Expr.object bs) = true
        ↔ as.map Prod.fst = bs.map Prod.fst
          ∧ List.Forall₂ (fun a b => (a == b) = true) (as.map Prod.snd) (bs.map Prod.snd) :=
  ⟨equalityLaws_of Value.beq_symm Value.beq_trans Value.beq_self_iff Value.Rearranged.beq_congr
      Value.Rearranged.proper,
    equalityLaws_of Expr.beq_symm Expr.beq_trans Expr.beq_self_iff Expr.Rearranged.beq_congr
      Expr.Rearranged.proper,
    Value.beq_iff_step, Expr.beq_iff_step, Expr.beqEntries_iff⟩

/-- A map in a map, with a zero beside it. -/
def nestedMap : Value :=
  .map [("z", .float ⟨0⟩), ("m", .map [("b", .int 1), ("a", .null)])]

/-- The same with the entries of both maps turned around. -/
def turnedMap : Value :=
  .map [("m", .map [("a", .null), ("b", .int 1)]), ("z", .float ⟨0⟩)]

theorem nestedMap_proper : nestedMap.Proper := by
  have hleaf {v : Value} (hparts : v.parts = []) (hmap : ∀ entries, v ≠ .map entries) : v.Proper :=
    ⟨fun entries h => absurd h (hmap entries), by simp [hparts]⟩
  have hinner : (Value.map [("b", .int 1), ("a", .null)]).Proper :=
    ⟨fun entries h => by cases h; decide,
      List.forall_mem_cons.2 ⟨hleaf rfl nofun, List.forall_mem_singleton.2 (hleaf rfl nofun)⟩⟩
  exact ⟨fun entries h => by cases h; decide,
    List.forall_mem_cons.2 ⟨hleaf rfl nofun, List.forall_mem_singleton.2 hinner⟩⟩

theorem nestedMap_rearranged : Value.Rearranged nestedMap turnedMap := by
  have hinner : Value.Rearranged (.map [("b", .int 1), ("a", .null)])
      (.map [("a", .null), ("b", .int 1)]) := by
    refine @Value.Rearranged.map _ [("b", .int 1), ("a", .null)] _ rfl ?_ ?_ (.swap _ _ _)
    · simp
    · simp [Value.Rearranged.refl]
  refine @Value.Rearranged.map _ [("z", .float ⟨0⟩), ("m", .map [("a", .null), ("b", .int 1)])] _
    rfl ?_ ?_ (.swap _ _ _)
  · simp
  · simp [Value.Rearranged.refl, hinner]

theorem turnedMap_equal : nestedMap.Proper ∧ Value.Rearranged nestedMap turnedMap
    ∧ (nestedMap == turnedMap) = true := by
  have hlaw := equality_laws.1.rearranged nestedMap_proper nestedMap_proper
    (Value.Rearranged.refl _) nestedMap_rearranged
  exact ⟨nestedMap_proper, nestedMap_rearranged, hlaw.symm.trans (by decide)⟩

end ScriptWriter
