import ScriptWriter.Proofs.Pieces

/-!
# Where the tokens of an expression end

The emitted text of an expression in ASCII words and punctuators is read as the tokens of the
expression exactly if no part of it touches: a minus stands before an operand whose text starts with
a minus, or a property follows an integer by a point (`tokens_emitted_iff`).

The pieces fall into parts at the breaks, so what is left are the places where pieces meet without
one (`isChain_pieces_iff`): after the operator of a unary expression and before the point of a
property. There the first piece of the operand and the last piece of the target decide
(`pieces_cons`, `pieces_concat`).
-/

namespace ScriptWriter

open Lexer Piece

/-! ## Where pieces meet without a break -/

namespace Value

/-- Nothing joins inside a constant. -/
theorem isChain_pieces {R : Piece → Piece → Prop} (hR : Seams R) (v : Value) :
    v.pieces.IsChain R := by
  induction v using parts_induction with
  | h v ih =>
    have hsigned {n : Bool} {p : Piece} (hp : R minus p) : (signedPieces n p).IsChain R := by
      cases n with
      | false => exact .singleton p
      | true => exact List.isChain_pair.2 hp
    have hitems {items : List Value} (h : ∀ w ∈ items, w.pieces.IsChain R) :
        (enclosed '[' ']' (listed (items.map pieces))).IsChain R := by
      rw [hR.isChain_enclosed (by decide) (by decide), hR.isChain_listed]
      exact List.forall_mem_map.2 h
    cases v with
    | null => exact .singleton _
    | bool b => exact .singleton _
    | int n => exact hsigned (hR.minusNumber (digits_toDigits _).decimalText)
    | float x =>
      rw [pieces]
      split
      · exact .singleton _
      · refine hsigned ?_
        unfold magnitudePiece
        cases h : x.isInfinite with
        | true => exact hR.minusWord (by decide)
        | false => exact hR.minusNumber (Literal.decimalText_magnitude h)
    | string s => exact .singleton _
    | list items =>
      rw [pieces, piecesItems_eq_map]
      exact hitems ih
    | map entries =>
      rw [pieces, piecesEntries_eq_map]
      exact hitems ih

end Value

namespace Expr

/-- The neighbours that meet in the expression itself without a break are related. -/
def SeamAt (R : Piece → Piece → Prop) (functions : FunctionTable) : Expr → Prop
  | .unary operator operand => ∀ q ∈ (operand.pieces functions).head?,
    R (.punctuator (unaryText operator).toList) q
  | .member target property => isIdentifier property = true →
    ∀ p ∈ (target.pieces functions).getLast?, R p point
  | _ => True

theorem isChain_pieces_iff {R : Piece → Piece → Prop} (hR : Seams R) {functions : FunctionTable}
    (e : Expr) (h : Lexical functions e) :
    (e.pieces functions).IsChain R ↔ ∀ p ∈ e.positions 0, p.2.SeamAt R functions := by
  induction e using children_induction with
  | h e ih =>
    obtain ⟨hat, hparts⟩ := forall_positions_iff.1 h
    have hpart : ∀ c ∈ e.children, ((c.pieces functions).IsChain R
        ↔ ∀ p ∈ c.positions 0, p.2.SeamAt R functions) := fun c hc => ih c hc (hparts c hc)
    have hchildren : (∀ c ∈ e.children, (c.pieces functions).IsChain R)
        ↔ ∀ c ∈ e.children, ∀ p ∈ c.positions 0, p.2.SeamAt R functions :=
      forall₂_congr hpart
    rw [forall_positions_iff, ← hchildren]
    cases e with
    | constant value =>
      exact iff_of_true (value.isChain_pieces hR) ⟨trivial, by simp [children]⟩
    | name s => exact iff_of_true (.singleton _) ⟨trivial, by simp [children]⟩
    | array items =>
      rw [pieces, piecesItems_eq_map, hR.isChain_enclosed (by decide) (by decide),
        hR.isChain_listed, List.forall_mem_map]
      simp only [SeamAt, children, true_and]
    | object entries =>
      have hentry (p : String × Expr) : (entryPieces functions p).IsChain R
          ↔ (p.2.pieces functions).IsChain R := by
        rw [entryPieces, hR.isChain_cons_cons_break _ (by decide), hR.isChain_cons_break rfl]
      rw [pieces, piecesEntries_eq_map, hR.isChain_enclosed (by decide) (by decide),
        hR.isChain_listed, List.forall_mem_map]
      simp only [hentry, children, List.forall_mem_map, SeamAt, true_and]
    | unary operator operand =>
      rw [pieces, hR.isChain_enclosed (by decide) (by decide), List.isChain_cons]
      simp only [SeamAt, children, List.mem_singleton, forall_eq]
    | binary left operator right =>
      rw [pieces, hR.isChain_enclosed (by decide) (by decide), hR.isChain_break rfl,
        hR.isChain_cons_cons_break _ rfl]
      simp [SeamAt, children]
    | conditional test yes no =>
      have hgroup (ps : List Piece) : (enclosed '(' ')' ps).IsChain R ↔ ps.IsChain R :=
        hR.isChain_enclosed (by decide) (by decide)
      rw [pieces, hgroup, hR.isChain_break rfl, hR.isChain_cons_cons_break _ rfl,
        hR.isChain_break rfl, hR.isChain_cons_cons_break _ rfl, hgroup, hgroup, hgroup]
      simp [SeamAt, children]
    | member target property =>
      rw [pieces, propertyPieces]
      split
      · rename_i hid
        have hword := hR.pointWord (isWord_of_ascii hid (hat hid))
        rw [List.isChain_append]
        simp [SeamAt, children, hid, hword, and_comm]
      · rename_i hid
        rw [hR.isChain_append_enclosed (by decide) (by decide)]
        simp [SeamAt, children, hid]
    | index target key =>
      rw [pieces, hR.isChain_append_enclosed (by decide) (by decide)]
      simp [SeamAt, children]
    | call function arguments =>
      have hcallee := hR.isChain_pointed (isWord_of_dotted hat.1 hat.2)
      rw [pieces, piecesItems_eq_map, hR.isChain_append_enclosed (by decide) (by decide),
        hR.isChain_listed, List.forall_mem_map]
      simp only [hcallee, SeamAt, children, true_and]

end Expr

/-! ## First and last pieces -/

namespace Piece

/-- The piece can start an expression. -/
def opens : Piece → Bool
  | .punctuator t => ['(', '[', '\x7b', '-'].any fun c => t = [c]
  | _ => true

/-- The piece can end an expression. -/
def ends : Piece → Bool
  | .punctuator t => [')', ']', '\x7d'].any fun c => t = [c]
  | _ => true

/-- A number of digits alone. -/
def isWhole : Piece → Bool
  | .number w => w.all Char.isDigit
  | _ => false

theorem joins_minus_iff {t : List Char} {q : Piece} :
    (Piece.punctuator t).joins q = true ↔ t = ['-'] ∧ q = minus := by
  cases q <;> simp [joins, minus]

theorem joins_point (p : Piece) : p.joins point = p.isWhole := by
  cases p <;> simp [joins, point, isWhole]

theorem sign_meets {t : List Char} (ht : t ∈ [['!'], ['-'], ['+']]) {q : Piece} (hq : q.Valid)
    (hopens : q.opens = true) :
    (Piece.punctuator t).joins q = true ∨ (Piece.punctuator t).apart q := by
  cases q with
  | blank => exact Or.inr (apart_isBreak _ rfl)
  | word w => exact Or.inr (apart_word hq)
  | number w =>
    refine Or.inr (apart_number hq ?_)
    simp only [List.mem_cons, List.not_mem_nil, or_false] at ht
    rcases ht with rfl | rfl | rfl <;> decide
  | string s => exact Or.inr (apart_string t s)
  | punctuator u =>
    obtain ⟨c, hc, hu⟩ := List.any_eq_true.1 hopens
    obtain rfl := of_decide_eq_true hu
    simp only [List.mem_cons, List.not_mem_nil, or_false] at hc
    rcases hc with rfl | rfl | rfl | rfl
    · exact Or.inr (apart_isBreak _ (by decide))
    · exact Or.inr (apart_isBreak _ (by decide))
    · exact Or.inr (apart_isBreak _ (by decide))
    · simp only [List.mem_cons, List.not_mem_nil, or_false] at ht
      have hminus (hne : continuesPunctuator t '-' = false) : (Piece.punctuator t).apart minus := by
        intro c hc
        obtain rfl : '-' = c := Option.some.inj hc
        exact hne
      rcases ht with rfl | rfl | rfl
      · exact Or.inr (hminus (by decide))
      · exact Or.inl rfl
      · exact Or.inr (hminus (by decide))

theorem point_meets {p : Piece} (h : p.ends = true) : p.joins point = true ∨ p.apart point := by
  have happly (hne : p.goesOn '.' = false) : p.apart point := by
    intro c hc
    obtain rfl : '.' = c := Option.some.inj hc
    exact hne
  cases p with
  | blank => exact Or.inr (happly rfl)
  | word w => exact Or.inr (happly rfl)
  | number w =>
    cases hw : w.all Char.isDigit with
    | true => exact Or.inl (by simp [joins, point, hw])
    | false => exact Or.inr (happly (by simp [goesOn, hw]; decide))
  | string s => exact Or.inr (happly rfl)
  | punctuator t =>
    obtain ⟨c, hc, ht⟩ := List.any_eq_true.1 h
    obtain rfl := of_decide_eq_true ht
    simp only [List.mem_cons, List.not_mem_nil, or_false] at hc
    rcases hc with rfl | rfl | rfl <;> exact Or.inr (apart_of_isBreak (by decide) point)

end Piece

namespace Value

/-- The constant is a number that is written with a minus. -/
def startsWithMinus : Value → Bool
  | .int n => n.toInt < 0
  | .float x => !x.isNaN && x.isNegative
  | _ => false

/-- The constant is a number that is written without a point or an exponent. -/
def isWhole : Value → Bool
  | .int _ => true
  | .float x => x.isFinite && (Literal.magnitude x).toList.all Char.isDigit
  | _ => false

theorem pieces_signed {n : Bool} {q : Piece} (hopens : q.opens = true) (hq : q ≠ minus) :
    ∃ p rest, signedPieces n q = p :: rest ∧ p.opens = true ∧ (p = minus ↔ n = true) := by
  cases n with
  | false => exact ⟨q, [], rfl, hopens, by simp [hq]⟩
  | true => exact ⟨minus, [q], rfl, by decide, by simp⟩

theorem pieces_cons (v : Value) : ∃ q rest, v.pieces = q :: rest ∧ q.opens = true
    ∧ (q = minus ↔ v.startsWithMinus = true) := by
  cases v with
  | int n =>
    obtain ⟨p, rest, hcons, hopens, hminus⟩ := pieces_signed (n := n.toInt < 0)
      (q := .number (Nat.toDigits 10 n.toInt.natAbs)) rfl (by simp [minus])
    exact ⟨p, rest, hcons, hopens, hminus⟩
  | float x =>
    rw [pieces]
    split
    · rename_i hnan
      exact ⟨_, [], rfl, rfl, by simp [minus, startsWithMinus, hnan]⟩
    · rename_i hnan
      have hq : (magnitudePiece x).opens = true ∧ magnitudePiece x ≠ minus := by
        unfold magnitudePiece
        split <;> exact ⟨rfl, by simp [minus]⟩
      obtain ⟨p, rest, hcons, hopens, hminus⟩ := pieces_signed (n := x.isNegative) hq.1 hq.2
      refine ⟨p, rest, hcons, hopens, hminus.trans ?_⟩
      simp [startsWithMinus, hnan]
  | list items => exact ⟨_, _, rfl, by decide, by simp [minus, startsWithMinus]⟩
  | map entries => exact ⟨_, _, rfl, by decide, by simp [minus, startsWithMinus]⟩
  | _ => exact ⟨_, [], rfl, rfl, by simp [minus, startsWithMinus]⟩

theorem pieces_concat (v : Value) : ∃ rest q, v.pieces = rest ++ [q] ∧ q.ends = true
    ∧ q.isWhole = v.isWhole := by
  have hsigned (n : Bool) (q : Piece) : ∃ rest, signedPieces n q = rest ++ [q] := by
    cases n with
    | false => exact ⟨[], rfl⟩
    | true => exact ⟨[minus], rfl⟩
  cases v with
  | int n =>
    obtain ⟨rest, hrest⟩ := hsigned (n.toInt < 0) (.number (Nat.toDigits 10 n.toInt.natAbs))
    refine ⟨rest, _, hrest, rfl, ?_⟩
    exact List.all_eq_true.2 (digits_toDigits _).2
  | float x =>
    rw [pieces]
    split
    · rename_i hnan
      have hfinite : x.isFinite = false := by
        simp only [Binary64.isNaN, Binary64.isFinite, decide_eq_true_eq,
          decide_eq_false_iff_not] at hnan ⊢
        omega
      exact ⟨[], _, rfl, rfl, by rw [isWhole, hfinite]; rfl⟩
    · rename_i hnan
      obtain ⟨rest, hrest⟩ := hsigned x.isNegative (magnitudePiece x)
      refine ⟨rest, _, hrest, ?_⟩
      have hfinite : x.isFinite = !x.isInfinite := by
        simp only [Binary64.isNaN, Binary64.isFinite, Binary64.isInfinite,
          decide_eq_true_eq] at hnan ⊢
        by_cases h : x.magnitudeBits = Binary64.infinityBits
        · simp [h]
        · simp only [h, decide_false, Bool.not_false, decide_eq_true_eq]
          omega
      rw [isWhole, hfinite, magnitudePiece]
      cases x.isInfinite with
      | true => exact ⟨rfl, rfl⟩
      | false => exact ⟨rfl, rfl⟩
  | list items =>
    exact ⟨.punctuator ['['] :: listed (piecesItems items), .punctuator [']'], rfl, by decide, rfl⟩
  | map entries =>
    exact ⟨.punctuator ['['] :: listed (piecesEntries entries), .punctuator [']'], rfl, by decide,
      rfl⟩
  | _ => exact ⟨[], _, rfl, rfl, rfl⟩

end Value

namespace Expr

open Emitter

/-- The text of the expression starts with a minus: it is a negative number, or an access to a
property or an item of such an expression. -/
def startsWithMinus : Expr → Bool
  | .constant value => value.startsWithMinus
  | .member target _ => target.startsWithMinus
  | .index target _ => target.startsWithMinus
  | _ => false

def isWhole : Expr → Bool
  | .constant value => value.isWhole
  | _ => false

theorem pieces_cons (functions : FunctionTable) (e : Expr) : ∃ q rest,
    e.pieces functions = q :: rest ∧ q.opens = true ∧ (q = minus ↔ e.startsWithMinus = true) := by
  induction e using children_induction with
  | h e ih =>
    have hgroup {c : Char} (hc : c ∈ ['(', '[', '\x7b']) : (Piece.punctuator [c]).opens = true
        ∧ Piece.punctuator [c] ≠ minus := by
      simp only [List.mem_cons, List.not_mem_nil, or_false] at hc
      rcases hc with rfl | rfl | rfl <;> decide
    have hother {q : Piece} (h : q.opens = true ∧ q ≠ minus) (he : e.startsWithMinus = false) :
        q.opens = true ∧ (q = minus ↔ e.startsWithMinus = true) :=
      ⟨h.1, by simp [h.2, he]⟩
    cases e with
    | constant value => exact value.pieces_cons
    | name s => exact ⟨_, [], rfl, hother ⟨rfl, by simp [minus]⟩ rfl⟩
    | array items => exact ⟨_, _, rfl, hother (hgroup (by decide)) rfl⟩
    | object entries => exact ⟨_, _, rfl, hother (hgroup (by decide)) rfl⟩
    | unary operator operand => exact ⟨_, _, rfl, hother (hgroup (by decide)) rfl⟩
    | binary left operator right => exact ⟨_, _, rfl, hother (hgroup (by decide)) rfl⟩
    | conditional test yes no => exact ⟨_, _, rfl, hother (hgroup (by decide)) rfl⟩
    | member target property =>
      obtain ⟨q, rest, hcons, hq⟩ := ih target (by simp [children])
      exact ⟨q, rest ++ propertyPieces property, by rw [pieces, hcons, List.cons_append], hq⟩
    | index target key =>
      obtain ⟨q, rest, hcons, hq⟩ := ih target (by simp [children])
      exact ⟨q, rest ++ enclosed '[' ']' (key.pieces functions),
        by rw [pieces, hcons, List.cons_append], hq⟩
    | call function arguments =>
      obtain ⟨w, ws, hsplit⟩ := List.exists_cons_of_ne_nil
        (List.splitOn_ne_nil '.' (calleeText functions function).toList)
      refine ⟨.word w, _, by rw [pieces, hsplit, pointed, List.cons_append], hother ?_ rfl⟩
      exact ⟨rfl, by simp [minus]⟩

theorem pieces_concat (functions : FunctionTable) (e : Expr) : ∃ rest q,
    e.pieces functions = rest ++ [q] ∧ q.ends = true ∧ q.isWhole = e.isWhole := by
  have hgroup {c : Char} (hc : c ∈ [')', ']', '\x7d']) : (Piece.punctuator [c]).ends = true := by
    simp only [List.mem_cons, List.not_mem_nil, or_false] at hc
    rcases hc with rfl | rfl | rfl <;> decide
  cases e with
  | constant value => exact value.pieces_concat
  | name s => exact ⟨[], _, rfl, rfl, rfl⟩
  | member target property =>
    rw [pieces, propertyPieces]
    split
    · exact ⟨target.pieces functions ++ [point], .word property.toList, by simp, rfl, rfl⟩
    · exact ⟨target.pieces functions ++ [.punctuator ['['], .string property], .punctuator [']'],
        by simp [enclosed], hgroup (by decide), rfl⟩
  | index target key =>
    exact ⟨target.pieces functions ++ .punctuator ['['] :: key.pieces functions, .punctuator [']'],
      by simp [pieces, enclosed], hgroup (by decide), rfl⟩
  | call function arguments =>
    exact ⟨pointed ((calleeText functions function).toList.splitOn '.')
        ++ .punctuator ['('] :: listed (piecesItems functions arguments), .punctuator [')'],
      by simp [pieces, enclosed], hgroup (by decide), rfl⟩
  | array items =>
    exact ⟨.punctuator ['['] :: _, .punctuator [']'], rfl, hgroup (by decide), rfl⟩
  | object entries =>
    exact ⟨.punctuator ['\x7b'] :: _, .punctuator ['\x7d'], rfl, hgroup (by decide), rfl⟩
  | _ => exact ⟨.punctuator ['('] :: _, .punctuator [')'], rfl, hgroup (by decide), rfl⟩

/-- Two pieces of the expression itself join: a minus before a minus, or a point after an
integer. -/
def Touches : Expr → Prop
  | .unary operator operand => operator = "-" ∧ operand.startsWithMinus = true
  | .member target property => isIdentifier property = true ∧ target.isWhole = true
  | _ => False

theorem toList_unaryText_eq_minus {operator : String} :
    (unaryText operator).toList = ['-'] ↔ operator = "-" := by
  rw [← unaryOperator_eq_unaryText, unaryOperator]
  split
  · rename_i h
    simp [h]
  · exact ⟨fun h => String.toList_inj.1 h, fun h => by rw [h]; rfl⟩

theorem seamAt_meets {functions : FunctionTable} {e : Expr} (h : Lexical functions e) :
    e.SeamAt (fun p q => p.joins q = true ∨ p.apart q) functions := by
  obtain ⟨hat, hparts⟩ := forall_positions_iff.1 h
  cases e with
  | unary operator operand =>
    intro q hq
    obtain ⟨q', rest, hcons, hopens, -⟩ := operand.pieces_cons functions
    rw [hcons] at hq
    obtain rfl : q' = q := Option.some.inj hq
    have hspells := spells_pieces {} operand (hparts operand (by simp [children]))
    have hvalid : q'.Valid := hspells.valid q' (by simp [hcons])
    refine sign_meets ?_ hvalid hopens
    have hsign : operator ∈ ["!", "-", "+", "not"] := hat
    simp only [List.mem_cons, List.not_mem_nil, or_false] at hsign
    rcases hsign with rfl | rfl | rfl | rfl <;> decide
  | member target property =>
    intro _ p hp
    obtain ⟨rest, q, hconcat, hends, -⟩ := target.pieces_concat functions
    rw [hconcat, List.getLast?_concat] at hp
    obtain rfl : q = p := Option.some.inj hp
    exact point_meets hends
  | _ => trivial

theorem seamAt_not_joins_iff (functions : FunctionTable) (e : Expr) :
    e.SeamAt (fun p q => p.joins q = false) functions ↔ ¬ e.Touches := by
  cases e with
  | unary operator operand =>
    obtain ⟨q, rest, hcons, -, hminus⟩ := operand.pieces_cons functions
    simp only [SeamAt, Touches, hcons, List.head?_cons, Option.mem_def, Option.some.injEq,
      forall_eq', ← Bool.not_eq_true, joins_minus_iff, toList_unaryText_eq_minus, hminus]
  | member target property =>
    obtain ⟨rest, q, hconcat, -, hwhole⟩ := target.pieces_concat functions
    simp only [SeamAt, Touches, hconcat, List.getLast?_concat, Option.mem_def, Option.some.injEq,
      forall_eq', joins_point, hwhole, not_and, Bool.not_eq_true]
  | _ => exact iff_of_true trivial id

theorem forall_seamAt_meets {functions : FunctionTable} (e : Expr) (h : Lexical functions e) :
    ∀ p ∈ e.positions 0, p.2.SeamAt (fun p q => p.joins q = true ∨ p.apart q) functions := by
  induction e using children_induction with
  | h e ih =>
    exact forall_positions_iff.2
      ⟨seamAt_meets h, fun c hc => ih c hc ((forall_positions_iff.1 h).2 c hc)⟩

/-- The emitted text is read as the tokens of the expression, every operator and every point by
itself, exactly if no part of the expression touches. -/
theorem tokens_emitted_iff {e : Expr} {m : Emitter} {s : String} {strict : Bool}
    (hstrict : strict = true → m.options.escapeLineTerminators = true)
    (h : Lexical m.functions e) (hok : (nested e.emit m).1 = .ok ())
    (hs : (nested e.emit m).2.source = m.source ++ s) :
    Lexer.tokens strict s.toList = some (e.tokens m.functions)
      ↔ ∀ p ∈ e.positions 0, ¬ p.2.Touches := by
  have hspells := spells_pieces m.options e h
  have hmeets := (isChain_pieces_iff seams_apart e h).2 (forall_seamAt_meets e h)
  rw [eq_text_of_nested_ok hok hs, ← hspells.flatMap_text, tokens,
    tokens_flatMap_text hstrict hspells.valid hmeets, isChain_pieces_iff seams_not_joins e h]
  simp only [seamAt_not_joins_iff]

/-- Two minus signs are read as a decrement, and a point after an integer is taken into the number,
which no word may follow. -/
theorem joined_minus_and_point :
    (nested (unary "-" (.constant (.int (-1)))).emit {}).2.source = "(--1)"
      ∧ (unary "-" (.constant (.int (-1)))).tokens .empty
        = [.punctuator ['('], .punctuator ['-'], .punctuator ['-'], .number ['1'],
          .punctuator [')']]
      ∧ Lexer.tokens true "(--1)".toList
        = some [.punctuator ['('], .punctuator ['-', '-'], .number ['1'], .punctuator [')']]
      ∧ (nested (member (.constant (.int 1)) "p").emit {}).2.source = "1.p"
      ∧ (member (.constant (.int 1)) "p").tokens .empty
        = [.number ['1'], .punctuator ['.'], .word ['p']]
      ∧ Lexer.tokens true "1.p".toList = none := by
  refine ⟨?_, ?_, ?_, ?_, ?_, ?_⟩ <;> decide +kernel

/-- Three minus signs that stand apart. -/
def minusSigns : Expr :=
  .binary (.unary "-" (.member (.name "x") "p")) "-"
    (.index (.constant (.int (-1))) (.constant (.string "k")))

theorem minusSigns_tokens :
    (nested minusSigns.emit { options := { escapeLineTerminators := true } }).2.source
        = "((-x.p) - -1[\"k\"])"
      ∧ Lexer.tokens true "((-x.p) - -1[\"k\"])".toList = some (minusSigns.tokens .empty) := by
  have hx : isIdentifier "x" = true ∧ Ascii "x" := ⟨by decide +kernel, by decide⟩
  have hp : Ascii "p" := by decide
  have hoperator : (binaryText "-").toList ∈ punctuators := by decide
  have hsource : (nested minusSigns.emit { options := { escapeLineTerminators := true } }).2.source
      = "((-x.p) - -1[\"k\"])" := by decide +kernel
  refine ⟨hsource, (tokens_emitted_iff (fun _ => rfl) ?_ (eq_ok_of_isOk (by decide +kernel))
    (hsource.trans String.empty_append.symm)).2 ?_⟩
  · simp [Lexical, minusSigns, positions_eq, children, LexicalAt, hx, hp, hoperator]
  · simp [minusSigns, positions_eq, children, Touches, startsWithMinus, isWhole]

end Expr

end ScriptWriter
