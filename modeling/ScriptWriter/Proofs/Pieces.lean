import ScriptWriter.Proofs.FormReading
import ScriptWriter.Proofs.Seams

/-!
# The pieces of an expression

`Expr.pieces` lists what is written for an expression: its words, numbers, strings and punctuators
in order, with the blanks between them. If names, callees and the properties after a point are ASCII
and the operators are punctuators, each piece is a token, and together they are the text
(`Expr.spells_pieces`).
-/

namespace ScriptWriter

open Lexer Piece

theorem toList_bracketed (s : String) : ("[" ++ s ++ "]").toList = '[' :: (s.toList ++ [']']) := by
  simp

/-! ## Values -/

namespace Value

/-- A minus if there is one, then a number or a word for it. -/
def signedPieces (negative : Bool) (magnitude : Piece) : List Piece :=
  if negative then [minus, magnitude] else [magnitude]

def magnitudePiece (x : Binary64) : Piece :=
  if x.isInfinite then .word "Infinity".toList else .number (Literal.magnitude x).toList

mutual

/-- What is written for a constant. -/
def pieces : Value → List Piece
  | .null => [.word "null".toList]
  | .bool b => [.word (if b then "true" else "false").toList]
  | .int n => signedPieces (n.toInt < 0) (.number (Nat.toDigits 10 n.toInt.natAbs))
  | .float x =>
    if x.isNaN then [.word "NaN".toList] else signedPieces x.isNegative (magnitudePiece x)
  | .string s => [.string s]
  | .list items => enclosed '[' ']' (listed (piecesItems items))
  | .map entries => enclosed '[' ']' (listed (piecesEntries entries))

def piecesItems : List Value → List (List Piece)
  | [] => []
  | v :: rest => pieces v :: piecesItems rest

def piecesEntries : List (String × Value) → List (List Piece)
  | [] => []
  | (_, v) :: rest => pieces v :: piecesEntries rest

end

theorem piecesItems_eq_map (items : List Value) : piecesItems items = items.map pieces := by
  induction items with
  | nil => rfl
  | cons v rest ih => rw [piecesItems, ih, List.map_cons]

theorem piecesEntries_eq_map (entries : List (String × Value)) :
    piecesEntries entries = (values entries).map pieces := by
  induction entries with
  | nil => rfl
  | cons p rest ih =>
    rw [piecesEntries, ih]
    rfl

theorem spells_signed {o : Options} {n : Bool} {p : Piece} (hp : p.Valid) :
    Spells o (signedPieces n p) ((if n then ['-'] else []) ++ p.text o) := by
  have h := Spells.nil.cons (o := o) hp
  rw [List.append_nil] at h
  cases n with
  | false => exact h
  | true => exact h.punctuator (by decide)

theorem valid_magnitudePiece (x : Binary64) : (magnitudePiece x).Valid := by
  unfold magnitudePiece
  cases h : x.isInfinite with
  | true => exact (by decide : isWord "Infinity".toList = true)
  | false => exact Literal.decimalText_magnitude h

theorem text_magnitudePiece (o : Options) (x : Binary64) :
    (magnitudePiece x).text o = (Literal.magnitude x).toList := by
  unfold magnitudePiece Literal.magnitude
  split <;> rfl

theorem spells_float (o : Options) (x : Binary64) :
    Spells o (pieces (.float x)) (Literal.float x).toList := by
  rw [pieces, Literal.float]
  split
  · exact Spells.ofWord (by decide)
  · have h := spells_signed (o := o) (n := x.isNegative) (valid_magnitudePiece x)
    rw [text_magnitudePiece] at h
    cases hn : x.isNegative with
    | true =>
      rw [hn] at h
      rw [if_pos rfl, String.toList_append]
      exact h
    | false =>
      rw [hn] at h
      exact h

theorem spells_pieces (o : Options) (v : Value) :
    Spells o v.pieces (Literal.render o v).toList := by
  induction v using parts_induction with
  | h v ih =>
    cases v with
    | null => exact Spells.ofWord (w := "null".toList) (by decide)
    | bool b =>
      cases b with
      | true => exact Spells.ofWord (w := "true".toList) (by decide)
      | false => exact Spells.ofWord (w := "false".toList) (by decide)
    | int n =>
      have h := spells_signed (o := o) (n := n.toInt < 0)
        (p := .number (Nat.toDigits 10 n.toInt.natAbs)) (digits_toDigits _).decimalText
      rw [Literal.render, Literal.int, intText, String.toList_ofList, pieces]
      by_cases hn : n.toInt < 0
      · rw [decide_eq_true hn] at h ⊢
        rw [if_pos hn]
        exact h
      · rw [decide_eq_false hn] at h ⊢
        rw [if_neg hn]
        exact h
    | float x => exact spells_float o x
    | string s => exact ⟨by simp [pieces, Valid], by simp [pieces, text, Literal.render]⟩
    | list items =>
      rw [Literal.render, Literal.renderItems_eq_map, pieces, piecesItems_eq_map, toList_bracketed]
      exact Spells.listing (by decide) (by decide) ih
    | map entries =>
      rw [Literal.render, Literal.renderEntries_eq_map, pieces, piecesEntries_eq_map,
        toList_bracketed]
      exact Spells.listing (by decide) (by decide) ih

end Value

namespace Expr

open Emitter

/-! ## Expressions -/

def propertyPieces (property : String) : List Piece :=
  if isIdentifier property then [point, .word property.toList]
  else enclosed '[' ']' [.string property]

mutual

/-- What is written for an expression. -/
def pieces (functions : FunctionTable) : Expr → List Piece
  | .constant value => value.pieces
  | .name s => [.word s.toList]
  | .array items => enclosed '[' ']' (listed (piecesItems functions items))
  | .object entries => enclosed '\x7b' '\x7d' (listed (piecesEntries functions entries))
  | .unary operator operand =>
    enclosed '(' ')' (.punctuator (unaryText operator).toList :: pieces functions operand)
  | .binary left operator right =>
    enclosed '(' ')' (pieces functions left ++ .blank :: .punctuator (binaryText operator).toList
      :: .blank :: pieces functions right)
  | .conditional test yes no =>
    enclosed '(' ')' (enclosed '(' ')' (pieces functions test) ++ .blank :: .punctuator ['?']
      :: .blank :: (enclosed '(' ')' (pieces functions yes) ++ .blank :: .punctuator [':']
      :: .blank :: enclosed '(' ')' (pieces functions no)))
  | .member target property => pieces functions target ++ propertyPieces property
  | .index target key => pieces functions target ++ enclosed '[' ']' (pieces functions key)
  | .call function arguments =>
    pointed ((calleeText functions function).toList.splitOn '.')
      ++ enclosed '(' ')' (listed (piecesItems functions arguments))

def piecesItems (functions : FunctionTable) : List Expr → List (List Piece)
  | [] => []
  | e :: rest => pieces functions e :: piecesItems functions rest

def piecesEntries (functions : FunctionTable) : List (String × Expr) → List (List Piece)
  | [] => []
  | (key, e) :: rest =>
    (.string key :: .punctuator [':'] :: .blank :: pieces functions e)
      :: piecesEntries functions rest

end

/-- The tokens of an expression, each operator and each point by itself. -/
def tokens (functions : FunctionTable) (e : Expr) : List Token :=
  (e.pieces functions).filterMap token?

theorem piecesItems_eq_map (functions : FunctionTable) (items : List Expr) :
    piecesItems functions items = items.map (pieces functions) := by
  induction items with
  | nil => rfl
  | cons e rest ih => rw [piecesItems, ih, List.map_cons]

def entryPieces (functions : FunctionTable) (p : String × Expr) : List Piece :=
  .string p.1 :: .punctuator [':'] :: .blank :: p.2.pieces functions

theorem piecesEntries_eq_map (functions : FunctionTable) (entries : List (String × Expr)) :
    piecesEntries functions entries = entries.map (entryPieces functions) := by
  induction entries with
  | nil => rfl
  | cons p rest ih => rw [piecesEntries, ih, List.map_cons, entryPieces]

def Ascii (s : String) : Prop := ∀ c ∈ s.toList, c.toNat < 128

instance (s : String) : Decidable (Ascii s) := List.decidableBAll _ s.toList

/-- The expression itself, apart from its parts, is written in ASCII words and punctuators: a name
is an identifier, a unary operator is a sign or a negation, a binary one a punctuator, and a callee
has identifiers with points between them. -/
def LexicalAt (functions : FunctionTable) : Expr → Prop
  | .name s => isIdentifier s = true ∧ Ascii s
  | .unary operator _ => operator ∈ ["!", "-", "+", "not"]
  | .binary _ operator _ => (binaryText operator).toList ∈ punctuators
  | .member _ property => isIdentifier property = true → Ascii property
  | .call function _ => Dotted (calleeText functions function)
    ∧ Ascii (calleeText functions function)
  | _ => True

/-- The expression and all its parts are written in ASCII words and punctuators. -/
def Lexical (functions : FunctionTable) (e : Expr) : Prop :=
  ∀ p ∈ e.positions 0, LexicalAt functions p.2

/-- The range of a character below a limit starts below it. -/
theorem exists_range {ranges : List (Nat × Nat)} {c : Char} (h : Text.inRanges ranges c = true)
    {limit : Nat} (hc : c.toNat < limit) :
    ∃ r ∈ ranges.filter (fun r => r.1 < limit), r.1 ≤ c.toNat ∧ c.toNat ≤ r.2 := by
  obtain ⟨r, hr, hbounds⟩ := List.any_eq_true.1 h
  have hbounds := of_decide_eq_true hbounds
  exact ⟨r, List.mem_filter.2 ⟨hr, decide_eq_true (by omega)⟩, hbounds⟩

theorem isAlpha_of_isAlphabetic {c : Char} (h : Text.isAlphabetic c = true) (hc : c.toNat < 128) :
    c.isAlpha = true := by
  have htable : (Text.alphabeticRanges.filter fun r => r.1 < 128)
      = [(0x41, 0x5A), (0x61, 0x7A)] := by
    decide +kernel
  obtain ⟨r, hr, hlow, hhigh⟩ := exists_range h hc
  rw [htable] at hr
  simp only [List.mem_cons, List.not_mem_nil, or_false] at hr
  rcases hr with rfl | rfl
  · have hupper : c.isUpper = true := decide_eq_true ⟨hlow, hhigh⟩
    exact Bool.or_eq_true_iff.2 (Or.inl hupper)
  · have hlower : c.isLower = true :=
      Bool.and_eq_true_iff.2 ⟨decide_eq_true hlow, decide_eq_true hhigh⟩
    exact Bool.or_eq_true_iff.2 (Or.inr hlower)

theorem isDigit_of_isNumeric {c : Char} (h : Text.isNumeric c = true) (hc : c.toNat < 128) :
    c.isDigit = true := by
  have htable : (Text.numericRanges.filter fun r => r.1 < 128) = [(0x30, 0x39)] := by
    decide +kernel
  obtain ⟨r, hr, hlow, hhigh⟩ := exists_range h hc
  rw [htable] at hr
  obtain rfl := List.mem_singleton.1 hr
  exact Bool.and_eq_true_iff.2 ⟨decide_eq_true hlow, decide_eq_true hhigh⟩

theorem startsWord_of_ascii {c : Char} (h : startsIdentifier c = true) (hc : c.toNat < 128) :
    startsWord c = true := by
  simp only [startsIdentifier, startsWord, Bool.or_eq_true, beq_iff_eq, decide_eq_true_eq] at h ⊢
  rcases h with (h | h) | h
  · exact Or.inl (Or.inl (isAlpha_of_isAlphabetic h hc))
  · exact Or.inl (Or.inr h)
  · exact Or.inr h

theorem continuesWord_of_ascii {c : Char} (h : continuesIdentifier c = true)
    (hc : c.toNat < 128) : continuesWord c = true := by
  simp only [continuesIdentifier, continuesWord, startsWord, Bool.or_eq_true, beq_iff_eq,
    decide_eq_true_eq] at h ⊢
  rcases h with ((h | h) | h) | h
  · exact Or.inl (Or.inl (Or.inl (isAlpha_of_isAlphabetic h hc)))
  · exact Or.inr (isDigit_of_isNumeric h hc)
  · exact Or.inl (Or.inl (Or.inr h))
  · exact Or.inl (Or.inr h)

theorem isWord_of_ascii {s : String} (h : isIdentifier s = true) (hs : Ascii s) :
    isWord s.toList = true := by
  have hmem (c : Char) (hc : c ∈ s.toList) : continuesWord c = true :=
    continuesWord_of_ascii (continuesIdentifier_of_mem h hc) (hs c hc)
  obtain ⟨c, rest, hcons, hc⟩ := isIdentifier_cons h
  have hstart := startsWord_of_ascii hc (hs c (by simp [hcons]))
  rw [hcons] at hmem ⊢
  rw [isWord, hstart, Bool.true_and, List.all_eq_true]
  exact fun d hd => hmem d (List.mem_cons_of_mem c hd)

theorem mem_intercalate {c : Char} {sep w : List Char} {ws : List (List Char)} (hw : w ∈ ws)
    (hc : c ∈ w) : c ∈ sep.intercalate ws := by
  induction ws with
  | nil => cases hw
  | cons v ws ih =>
    rcases ws with _ | ⟨u, ws⟩
    · rw [List.mem_singleton.1 hw] at hc
      simpa using hc
    · rw [List.intercalate_cons_cons, List.mem_append, List.mem_append]
      rcases List.mem_cons.1 hw with rfl | hw
      · exact Or.inl (Or.inl hc)
      · exact Or.inr (ih hw)

/-- A callee falls into words at its points. -/
theorem isWord_of_dotted {callee : String} (h : Dotted callee) (hs : Ascii callee) :
    ∀ w ∈ callee.toList.splitOn '.', isWord w = true := by
  obtain ⟨names, hne, hnames, rfl⟩ := h
  have hsplit : (".".intercalate names).toList.splitOn '.' = names.map String.toList := by
    rw [String.toList_intercalate]
    refine List.splitOn_intercalate '.' ?_ (by simpa using hne)
    exact List.forall_mem_map.2 fun n hn => point_not_mem_identifier (hnames n hn)
  rw [hsplit]
  refine List.forall_mem_map.2 fun n hn => isWord_of_ascii (hnames n hn) fun c hc => hs c ?_
  rw [String.toList_intercalate]
  exact mem_intercalate (List.mem_map_of_mem hn) hc

theorem unaryText_mem_punctuators {operator : String} (h : operator ∈ ["!", "-", "+", "not"]) :
    (unaryText operator).toList ∈ punctuators := by
  simp only [List.mem_cons, List.not_mem_nil, or_false] at h
  rcases h with rfl | rfl | rfl | rfl <;> decide

theorem spells_pieces {functions : FunctionTable} (o : Options) (e : Expr)
    (h : Lexical functions e) : Spells o (e.pieces functions) (e.text functions o).toList := by
  induction e using children_induction with
  | h e ih =>
    obtain ⟨hat, hparts⟩ := forall_positions_iff.1 h
    have hpart : ∀ c ∈ e.children, Spells o (c.pieces functions) (c.text functions o).toList :=
      fun c hc => ih c hc (hparts c hc)
    cases e with
    | constant value => exact value.spells_pieces o
    | name s => exact Spells.ofWord (isWord_of_ascii hat.1 hat.2)
    | array items =>
      rw [pieces, piecesItems_eq_map, text, texts_eq_map, toList_bracketed]
      exact Spells.listing (by decide) (by decide) hpart
    | object entries =>
      have hentry : ∀ p ∈ entries, Spells o (entryPieces functions p)
          (Literal.quoted o p.1 ++ ": " ++ p.2.text functions o).toList := by
        intro p hp
        have htext : (Literal.quoted o p.1 ++ ": " ++ p.2.text functions o).toList
            = (Literal.quoted o p.1).toList ++ ([':'] ++ ' ' :: (p.2.text functions o).toList) := by
          simp
        rw [htext]
        exact ((hpart p.2 (List.mem_map_of_mem hp)).blank.punctuator (by decide)).cons
          (p := .string p.1) trivial
      have htext : ("\x7b" ++ ", ".intercalate (entryTexts functions o entries) ++ "\x7d").toList
          = '\x7b' :: ((", ".intercalate (entryTexts functions o entries)).toList ++ ['\x7d']) := by
        simp
      rw [pieces, piecesEntries_eq_map, text, htext, entryTexts_eq_map]
      exact Spells.listing (by decide) (by decide) hentry
    | unary operator operand =>
      have htext : (text functions o (.unary operator operand)).toList
          = '(' :: ((unaryText operator).toList ++ (operand.text functions o).toList ++ [')']) := by
        simp [text]
      rw [htext, pieces]
      exact ((hpart operand (by simp [children])).punctuator
        (unaryText_mem_punctuators hat)).enclosed (by decide) (by decide)
    | binary left operator right =>
      have htext : (text functions o (.binary left operator right)).toList
          = '(' :: ((left.text functions o).toList ++ ' ' :: ((binaryText operator).toList
            ++ ' ' :: (right.text functions o).toList) ++ [')']) := by
        simp [text]
      rw [htext, pieces]
      exact ((hpart left (by simp [children])).append ((hpart right
        (by simp [children])).blank.punctuator hat).blank).enclosed (by decide) (by decide)
    | conditional test yes no =>
      have htext : (text functions o (.conditional test yes no)).toList
          = '(' :: ('(' :: ((test.text functions o).toList ++ [')']) ++ ' ' :: (['?'] ++ ' '
            :: ('(' :: ((yes.text functions o).toList ++ [')']) ++ ' ' :: ([':'] ++ ' '
            :: '(' :: ((no.text functions o).toList ++ [')'])))) ++ [')']) := by
        simp [text]
      have hgroup (c : Expr) (hc : c ∈ [test, yes, no]) : Spells o
          (enclosed '(' ')' (c.pieces functions)) ('(' :: ((c.text functions o).toList ++ [')'])) :=
        (hpart c hc).enclosed (by decide) (by decide)
      rw [htext, pieces]
      exact ((hgroup test (by simp)).append (((hgroup yes (by simp)).append
        (((hgroup no (by simp)).blank.punctuator (by decide)).blank)).blank.punctuator
        (by decide)).blank).enclosed (by decide) (by decide)
    | member target property =>
      rw [text, String.toList_append, pieces]
      refine (hpart target (by simp [children])).append ?_
      rw [propertyText_eq, propertyPieces]
      split
      · rename_i hid
        rw [String.toList_append]
        exact (Spells.ofWord (isWord_of_ascii hid (hat hid))).punctuator (by decide)
      · rw [toList_bracketed]
        exact (Value.spells_pieces o (.string property)).enclosed (by decide) (by decide)
    | index target key =>
      have htext : (text functions o (.index target key)).toList
          = (target.text functions o).toList
            ++ '[' :: ((key.text functions o).toList ++ [']']) := by
        simp [text]
      rw [htext, pieces]
      exact (hpart target (by simp [children])).append
        ((hpart key (by simp [children])).enclosed (by decide) (by decide))
    | call function arguments =>
      have htext : (text functions o (.call function arguments)).toList
          = (calleeText functions function).toList ++ '(' :: ((", ".intercalate
            (arguments.map (text functions o))).toList ++ [')']) := by
        simp [text, texts_eq_map]
      have hcallee := Spells.pointed (o := o) (isWord_of_dotted hat.1 hat.2)
      rw [List.intercalate_splitOn] at hcallee
      rw [htext, pieces, piecesItems_eq_map]
      exact hcallee.append (Spells.listing (by decide) (by decide) hpart)

end Expr

end ScriptWriter
