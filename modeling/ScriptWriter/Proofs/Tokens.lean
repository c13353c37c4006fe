import Mathlib.Data.List.Chain
import ScriptWriter.Proofs.NumberReading
import ScriptWriter.Proofs.StringReading

/-!
# Tokens of a script

`Lexer.tokens` divides a text as a script is divided: spaces and comments are left out, and the
longest token that the text can start with is taken. Words are ASCII ones, numbers decimal ones and
strings double-quoted ones; any other text has no tokens here. A slash is a division, which it is
after an operand.

A writer puts pieces side by side. Most pieces end where the next one starts, whatever comes later
(`Piece.apart`). A minus before a minus does not, nor does a point after digits alone
(`Piece.joins`). So a list of such pieces is read piece by piece exactly if no two neighbours join
(`tokens_flatMap_text`).
-/

namespace ScriptWriter

namespace Lexer

inductive Token where
  | word (text : List Char)
  | number (text : List Char)
  /-- A string, by its code units. -/
  | string (units : List Nat)
  | punctuator (text : List Char)
deriving DecidableEq

/-! ## The lexer -/

def startsWord (c : Char) : Bool := c.isAlpha || c = '_' || c = '$'

def continuesWord (c : Char) : Bool := startsWord c || c.isDigit

/-- White space and line terminators. -/
def spaces : List Char :=
  [' ', '\t', '\n', '\r', Char.ofNat 0x0B, Char.ofNat 0x0C, Char.ofNat 0xA0, Char.ofNat 0x1680,
    Char.ofNat 0x2000, Char.ofNat 0x2001, Char.ofNat 0x2002, Char.ofNat 0x2003, Char.ofNat 0x2004,
    Char.ofNat 0x2005, Char.ofNat 0x2006, Char.ofNat 0x2007, Char.ofNat 0x2008, Char.ofNat 0x2009,
    Char.ofNat 0x200A, Char.ofNat 0x2028, Char.ofNat 0x2029, Char.ofNat 0x202F, Char.ofNat 0x205F,
    Char.ofNat 0x3000, Char.ofNat 0xFEFF]

def punctuators : List (List Char) :=
  [['\x7b'], ['('], [')'], ['['], [']'], ['.'], ['.', '.', '.'], [';'], [','], ['<'], ['>'],
    ['<', '='], ['>', '='], ['=', '='], ['!', '='], ['=', '=', '='], ['!', '=', '='], ['+'], ['-'],
    ['*'], ['%'], ['*', '*'], ['+', '+'], ['-', '-'], ['<', '<'], ['>', '>'], ['>', '>', '>'],
    ['&'], ['|'], ['^'], ['!'], ['~'], ['&', '&'], ['|', '|'], ['?', '?'], ['?'], ['?', '.'],
    [':'], ['='], ['+', '='], ['-', '='], ['*', '='], ['%', '='], ['*', '*', '='],
    ['<', '<', '='], ['>', '>', '='], ['>', '>', '>', '='], ['&', '='], ['|', '='], ['^', '='],
    ['&', '&', '='], ['|', '|', '='], ['?', '?', '='], ['=', '>'], ['/'], ['/', '='], ['\x7d']]

/-- The longest punctuator of at most so many characters that the text starts with. A digit after
`?.` makes the point part of a number. -/
def punctuatorWithin : Nat → List Char → Option (List Char)
  | 0, _ => none
  | n + 1, cs =>
    if cs.take (n + 1) ∈ punctuators
        ∧ ¬ (cs.take (n + 1) = ['?', '.'] ∧ startsWithDigit (cs.drop 2) = true) then
      some (cs.take (n + 1))
    else punctuatorWithin n cs

def punctuator? (cs : List Char) : Option (List Char) := punctuatorWithin 4 cs

/-- A point with the digits after it, if there are any, and the text after them. -/
def fractionPart : List Char → List Char × List Char
  | [] => ([], [])
  | c :: rest =>
    if c = '.' then ('.' :: rest.takeWhile Char.isDigit, rest.dropWhile Char.isDigit)
    else ([], c :: rest)

def signPart : List Char → List Char × List Char
  | [] => ([], [])
  | c :: rest => if c = '+' ∨ c = '-' then ([c], rest) else ([], c :: rest)

/-- An exponent, which has a digit at least, and the text after it. -/
def exponentPart : List Char → List Char × List Char
  | [] => ([], [])
  | c :: rest =>
    if (c = 'e' ∨ c = 'E') ∧ startsWithDigit (signPart rest).2 = true then
      (c :: ((signPart rest).1 ++ (signPart rest).2.takeWhile Char.isDigit),
        (signPart rest).2.dropWhile Char.isDigit)
    else ([], c :: rest)

/-- The longest decimal that the text starts with and the text after it. -/
def decimalPart (cs : List Char) : List Char × List Char :=
  let fraction := fractionPart (cs.dropWhile Char.isDigit)
  let exponent := exponentPart fraction.2
  (cs.takeWhile Char.isDigit ++ fraction.1 ++ exponent.1, exponent.2)

def afterComment : List Char → Option (List Char)
  | [] => none
  | c :: rest => if c = '*' ∧ rest.head? = some '/' then some rest.tail else afterComment rest

/-- What a text starts with, a token or something that is left out, and the text after it. No word
may follow a number directly. -/
def element (strict : Bool) : List Char → Option (Option Token × List Char)
  | [] => none
  | c :: rest =>
    if c ∈ spaces then some (none, rest)
    else if c = '/' ∧ rest.head? = some '/' then
      some (none, rest.dropWhile fun c => !isLineTerminator c)
    else if c = '/' ∧ rest.head? = some '*' then (afterComment rest.tail).map fun r => (none, r)
    else if c = '"' then (stringBody strict rest).map fun p => (some (.string p.1), p.2)
    else if startsWord c then
      some (some (.word (c :: rest.takeWhile continuesWord)), rest.dropWhile continuesWord)
    else if c.isDigit ∨ c = '.' ∧ startsWithDigit rest then
      if (decimalPart (c :: rest)).2.head?.any continuesWord then none
      else some (some (.number (decimalPart (c :: rest)).1), (decimalPart (c :: rest)).2)
    else (punctuator? (c :: rest)).map fun t => (some (.punctuator t), (c :: rest).drop t.length)

def tokensWithin (strict : Bool) : (room : Nat) → List Char → Option (List Token)
  | _, [] => some []
  | 0, _ :: _ => none
  | room + 1, c :: rest =>
    (element strict (c :: rest)).bind fun p =>
      (tokensWithin strict room p.2).map (p.1.toList ++ ·)

/-- The tokens of a text; every element takes a character at least. -/
def tokens (strict : Bool) (cs : List Char) : Option (List Token) :=
  tokensWithin strict cs.length cs

end Lexer

open Lexer

/-! ## Pieces -/

/-- What a writer puts down at a time. -/
inductive Piece where
  | blank
  | word (text : List Char)
  | number (text : List Char)
  | string (s : String)
  | punctuator (text : List Char)
deriving DecidableEq

/-- A word in ASCII: a letter, an underscore or a dollar sign, then these and digits. -/
def isWord : List Char → Bool
  | [] => false
  | c :: rest => startsWord c && rest.all continuesWord

namespace Piece

def text (o : Options) : Piece → List Char
  | .blank => [' ']
  | .word w => w
  | .number w => w
  | .string s => (Literal.quoted o s).toList
  | .punctuator t => t

/-- What a lexer should make of the piece. -/
def token? : Piece → Option Token
  | .blank => none
  | .word w => some (.word w)
  | .number w => some (.number w)
  | .string s => some (.string (utf16 s.toList))
  | .punctuator t => some (.punctuator t)

/-- The piece is a token, or blank. -/
def Valid : Piece → Prop
  | .blank => True
  | .word w => isWord w = true
  | .number w => DecimalText w
  | .string _ => True
  | .punctuator t => t ∈ punctuators

def first : Piece → Option Char
  | .blank => some ' '
  | .word w => w.head?
  | .number w => w.head?
  | .string _ => some '"'
  | .punctuator t => t.head?

/-- A punctuator or a comment starts with the characters and the one after them. -/
def continuesPunctuator (t : List Char) (c : Char) : Bool :=
  (!t.isEmpty && punctuators.any fun q => (t ++ [c]).isPrefixOf q)
    || ((t = ['.'] || t = ['?', '.']) && c.isDigit) || (t = ['/'] && (c = '/' || c = '*'))

/-- The piece might not end before the character. -/
def goesOn : Piece → Char → Bool
  | .blank, _ => false
  | .word _, c => continuesWord c
  | .number w, c => continuesWord c || c = '.' && w.all Char.isDigit
  | .string _, _ => false
  | .punctuator t, c => continuesPunctuator t c

/-- The first piece ends where the second starts. -/
def apart (p q : Piece) : Prop := ∀ c ∈ q.first, p.goesOn c = false

/-- The first piece is taken together with the start of the second. -/
def joins : Piece → Piece → Bool
  | .punctuator t, .punctuator u => t = ['-'] && u = ['-']
  | .number w, .punctuator u => w.all Char.isDigit && u = ['.']
  | _, _ => false

end Piece

/-! ## One piece -/

variable {strict : Bool} {o : Options}

theorem continuesWord_ordinary {c : Char} (h : continuesWord c = true) :
    c ∉ '/' :: '"' :: spaces := by
  intro hc
  have hall : (('/' :: '"' :: spaces).all fun c => !continuesWord c) = true := by decide
  have := List.all_eq_true.1 hall c hc
  rw [h] at this
  exact Bool.false_ne_true this

theorem startsWord_of_isDigit {c : Char} (h : c.isDigit = true) : startsWord c = false := by
  have hc : 48 ≤ c.toNat ∧ c.toNat ≤ 57 := by
    simpa [Char.isDigit, Char.le_def, UInt32.le_iff_toNat_le] using h
  have hall : ∀ n < 10, startsWord (Char.ofNat (48 + n)) = false := by decide
  have := hall (c.toNat - 48) (by omega)
  rwa [Nat.add_sub_cancel' hc.1, Char.ofNat_toNat] at this

theorem isWord_cons {w : List Char} (h : isWord w = true) : ∃ c rest, w = c :: rest
    ∧ startsWord c = true ∧ ∀ d ∈ rest, continuesWord d = true := by
  cases w with
  | nil => cases h
  | cons c rest =>
    obtain ⟨hc, hrest⟩ := Bool.and_eq_true_iff.1 h
    exact ⟨c, rest, rfl, hc, List.all_eq_true.1 hrest⟩

theorem element_word {w r : List Char} (hw : isWord w = true) (hr : EndsBefore continuesWord r) :
    element strict (w ++ r) = some (some (.word w), r) := by
  obtain ⟨c, w, rfl, hc, hrest⟩ := isWord_cons hw
  have hordinary := continuesWord_ordinary (c := c) (by simp [continuesWord, hc])
  simp only [List.mem_cons, not_or] at hordinary
  obtain ⟨hslash, hquote, hspace⟩ := hordinary
  rw [List.cons_append, element, if_neg hspace, if_neg fun h => hslash h.1,
    if_neg fun h => hslash h.1, if_neg hquote, if_pos hc, takeWhile_append hrest hr,
    dropWhile_append hrest hr]

theorem fractionPart_append {fraction r : List Char}
    (h : fraction = [] ∧ EndsBefore (fun c => c = '.') r
      ∨ ∃ ds, fraction = '.' :: ds ∧ Digits ds ∧ EndsBefore Char.isDigit r) :
    fractionPart (fraction ++ r) = (fraction, r) := by
  rcases h with ⟨rfl, hr⟩ | ⟨ds, rfl, hds, hr⟩
  · cases r with
    | nil => rfl
    | cons c r => exact if_neg (of_decide_eq_false hr)
  · rw [List.cons_append, fractionPart, if_pos rfl, takeWhile_append hds.2 hr,
      dropWhile_append hds.2 hr]

theorem exponentPart_append {exponent r : List Char} (hr : EndsBefore continuesWord r)
    (h : exponent = [] ∨ ∃ sign ds, exponent = 'e' :: sign :: ds ∧ (sign = '+' ∨ sign = '-')
      ∧ Digits ds) : exponentPart (exponent ++ r) = (exponent, r) := by
  have hdigit : EndsBefore Char.isDigit r :=
    hr.mono fun c hc => (Bool.or_eq_false_iff.1 hc).2
  rcases h with rfl | ⟨sign, ds, rfl, hsign, hds⟩
  · cases r with
    | nil => rfl
    | cons c r =>
      have hc : continuesWord c = false := hr
      refine if_neg ?_
      rintro ⟨rfl | rfl, -⟩ <;> cases hc
  · have hpart : signPart (sign :: (ds ++ r)) = ([sign], ds ++ r) := if_pos hsign
    have hstart : startsWithDigit (ds ++ r) = true := by
      cases ds with
      | nil => exact absurd rfl hds.1
      | cons d ds => exact hds.2 d List.mem_cons_self
    rw [List.cons_append, List.cons_append, exponentPart, hpart, if_pos ⟨Or.inl rfl, hstart⟩,
      takeWhile_append hds.2 hdigit, dropWhile_append hds.2 hdigit]
    rfl

theorem decimalPart_append {w r : List Char} (h : DecimalText w)
    (hr : EndsBefore (Piece.number w).goesOn r) : decimalPart (w ++ r) = (w, r) := by
  obtain ⟨whole, fraction, exponent, rfl, hwhole, hfraction, hexponent⟩ := h
  have hword : EndsBefore continuesWord r := hr.mono fun c hc => (Bool.or_eq_false_iff.1 hc).1
  have hexp : EndsBefore Char.isDigit (exponent ++ r) := by
    rcases hexponent with rfl | ⟨sign, ds, rfl, -, -⟩
    · exact hword.mono fun c hc => (Bool.or_eq_false_iff.1 hc).2
    · rfl
  have hfrac : EndsBefore Char.isDigit (fraction ++ (exponent ++ r)) := by
    rcases hfraction with rfl | ⟨ds, rfl, -⟩
    · exact hexp
    · rfl
  have hpart : fractionPart (fraction ++ (exponent ++ r)) = (fraction, exponent ++ r) := by
    refine fractionPart_append ?_
    rcases hfraction with rfl | ⟨ds, rfl, hds⟩
    · refine Or.inl ⟨rfl, ?_⟩
      rcases hexponent with rfl | ⟨sign, ds, rfl, -, -⟩
      · -- digits alone do not end before a point
        have hall : (whole ++ [] ++ []).all Char.isDigit = true := by
          simpa using hwhole.2
        refine hr.mono fun c hc => ?_
        have hpoint := (Bool.or_eq_false_iff.1 hc).2
        rwa [hall, Bool.and_true] at hpoint
      · rfl
    · exact Or.inr ⟨ds, rfl, hds, hexp⟩
  unfold decimalPart
  rw [List.append_assoc, List.append_assoc, takeWhile_append hwhole.2 hfrac,
    dropWhile_append hwhole.2 hfrac, hpart]
  simp only [exponentPart_append hword hexponent]

theorem DecimalText.cons {w : List Char} (h : DecimalText w) :
    ∃ c rest, w = c :: rest ∧ c.isDigit = true := by
  obtain ⟨whole, fraction, exponent, rfl, ⟨hne, hdigits⟩, -, -⟩ := h
  cases whole with
  | nil => exact absurd rfl hne
  | cons c whole => exact ⟨c, _, rfl, hdigits c List.mem_cons_self⟩

theorem element_of_isDigit {c : Char} (h : c.isDigit = true) (rest : List Char) :
    element strict (c :: rest) = if (decimalPart (c :: rest)).2.head?.any continuesWord then none
      else some (some (.number (decimalPart (c :: rest)).1), (decimalPart (c :: rest)).2) := by
  have hordinary := continuesWord_ordinary (c := c) (by simp [continuesWord, h])
  simp only [List.mem_cons, not_or] at hordinary
  obtain ⟨hslash, hquote, hspace⟩ := hordinary
  rw [element, if_neg hspace, if_neg fun h => hslash h.1, if_neg fun h => hslash h.1,
    if_neg hquote, startsWord_of_isDigit h, if_neg Bool.false_ne_true, if_pos (Or.inl h)]

theorem element_number {w r : List Char} (hw : DecimalText w)
    (hr : EndsBefore (Piece.number w).goesOn r) :
    element strict (w ++ r) = some (some (.number w), r) := by
  have hpart := decimalPart_append hw hr
  have hend : r.head?.any continuesWord = false := by
    cases r with
    | nil => rfl
    | cons c r => exact (Bool.or_eq_false_iff.1 hr).1
  obtain ⟨c, rest, rfl, hc⟩ := hw.cons
  rw [List.cons_append] at hpart ⊢
  rw [element_of_isDigit hc, hpart, hend, if_neg Bool.false_ne_true]

theorem element_string (hstrict : strict = true → o.escapeLineTerminators = true) (s : String)
    (r : List Char) : element strict ((Literal.quoted o s).toList ++ r)
      = some (some (.string (utf16 s.toList)), r) := by
  have hescaped :
      (strict && !o.escapeLineTerminators && s.toList.any isLineTerminator) = false := by
    cases strict with
    | false => rfl
    | true => simp [hstrict rfl]
  rw [Literal.toList_quoted, List.cons_append, List.append_assoc, List.singleton_append, element,
    if_neg (by decide), if_neg fun h => absurd h.1 (by decide),
    if_neg fun h => absurd h.1 (by decide), if_pos rfl, Literal.stringBody_escaped, hescaped,
    if_neg Bool.false_ne_true]
  rfl

/-- A punctuator is the longest one before what does not continue it. -/
theorem punctuatorWithin_append {t r : List Char} (ht : t ∈ punctuators)
    (hr : EndsBefore (Piece.continuesPunctuator t) r) :
    ∀ n, t.length ≤ n → punctuatorWithin n (t ++ r) = some t := by
  have hne : t ≠ [] := by
    rintro rfl
    exact absurd ht (by decide)
  have hdigit : ¬ (t = ['?', '.'] ∧ startsWithDigit ((t ++ r).drop 2) = true) := by
    rintro ⟨rfl, hd⟩
    cases r with
    | nil => cases hd
    | cons c r =>
      have hc : c.isDigit = true := hd
      simp [EndsBefore, Piece.continuesPunctuator, hc] at hr
  intro n
  induction n with
  | zero => exact fun h => absurd (List.length_eq_zero_iff.1 (Nat.le_zero.1 h)) hne
  | succ n ih =>
    intro hn
    have htake : (t ++ r).take (n + 1) = t ++ r.take (n + 1 - t.length) := by
      rw [List.take_append, List.take_of_length_le hn]
    rw [punctuatorWithin, htake]
    rcases hcut : r.take (n + 1 - t.length) with _ | ⟨c, cut⟩
    · rw [List.append_nil, if_pos ⟨ht, hdigit⟩]
    · have hlonger : t ++ c :: cut ∉ punctuators := by
        intro hmem
        obtain ⟨r, rfl⟩ : ∃ r', r = c :: r' := by
          cases r with
          | nil => simp at hcut
          | cons d r =>
            obtain ⟨k, hk⟩ : ∃ k, n + 1 - t.length = k + 1 := by
              rcases hlen : n + 1 - t.length with _ | k
              · rw [hlen] at hcut
                cases hcut
              · exact ⟨k, rfl⟩
            rw [hk, List.take_succ_cons] at hcut
            rw [(List.cons.inj hcut).1]
            exact ⟨r, rfl⟩
        have hany : (punctuators.any fun q => (t ++ [c]).isPrefixOf q) = true :=
          List.any_eq_true.2 ⟨_, hmem, by simp [List.isPrefixOf_iff_prefix]⟩
        simp [EndsBefore, Piece.continuesPunctuator, hany, hne] at hr
      have hroom : t.length ≤ n := by
        by_contra hgt
        have : n + 1 - t.length = 0 := by omega
        rw [this] at hcut
        cases hcut
      rw [if_neg fun h => hlonger h.1, ih hroom]

/-- How punctuators start: like no other element, but for the slash and the point. -/
def opensPunctuator : List Char → Bool
  | [] => false
  | c :: rest => c ∉ '"' :: spaces && !startsWord c && !c.isDigit
    && (c ≠ '/' || rest = [] || rest = ['=']) && (c ≠ '.' || rest = [] || rest = ['.', '.'])

theorem element_punctuator {t r : List Char} (ht : t ∈ punctuators)
    (hr : EndsBefore (Piece.continuesPunctuator t) r) :
    element strict (t ++ r) = some (some (.punctuator t), r) := by
  have hopens : (punctuators.all opensPunctuator) = true := by decide
  have hshort : (punctuators.all fun t => t.length ≤ 4) = true := by decide
  have hlength : t.length ≤ 4 := of_decide_eq_true (List.all_eq_true.1 hshort t ht)
  have hlongest : punctuator? (t ++ r) = some t := punctuatorWithin_append ht hr 4 hlength
  have hopen := List.all_eq_true.1 hopens t ht
  rcases t with _ | ⟨c, rest⟩
  · cases hopen
  simp only [opensPunctuator, Bool.and_eq_true, Bool.or_eq_true, decide_eq_true_eq, List.mem_cons,
    not_or, Bool.not_eq_true'] at hopen
  obtain ⟨⟨⟨⟨⟨hquote, hspace⟩, hword⟩, hdigit⟩, hslash⟩, hpoint⟩ := hopen
  have hcomment {d : Char} (hd : d = '/' ∨ d = '*') : ¬ (c = '/' ∧ (rest ++ r).head? = some d) := by
    rintro ⟨rfl, hhead⟩
    rcases hslash with (h | rfl) | rfl
    · exact h rfl
    · cases r with
      | nil => cases hhead
      | cons e r =>
        obtain rfl : e = d := Option.some.inj hhead
        have hgoes : Piece.continuesPunctuator ['/'] e = true := by
          rcases hd with rfl | rfl <;> decide
        exact Bool.false_ne_true ((hr : _ = false).symm.trans hgoes)
    · rcases hd with rfl | rfl <;> cases hhead
  have hnumber : ¬ (c.isDigit = true ∨ c = '.' ∧ startsWithDigit (rest ++ r) = true) := by
    rintro (h | ⟨rfl, hstart⟩)
    · rw [hdigit] at h
      cases h
    rcases hpoint with (h | rfl) | rfl
    · exact h rfl
    · cases r with
      | nil => cases hstart
      | cons e r =>
        have he : e.isDigit = true := hstart
        simp [EndsBefore, Piece.continuesPunctuator, he] at hr
    · cases hstart
  rw [List.cons_append] at hlongest ⊢
  rw [element, if_neg hspace, if_neg (hcomment (Or.inl rfl)), if_neg (hcomment (Or.inr rfl)),
    if_neg hquote, hword, if_neg Bool.false_ne_true, if_neg hnumber, hlongest, Option.map_some,
    ← List.cons_append, List.drop_left]

namespace Piece

/-- A piece ends before what does not go on with it. -/
theorem element_text {p : Piece} (hp : p.Valid)
    (hstrict : strict = true → o.escapeLineTerminators = true) {r : List Char}
    (hr : EndsBefore p.goesOn r) : element strict (p.text o ++ r) = some (p.token?, r) := by
  cases p with
  | blank => rfl
  | word w => exact element_word hp hr
  | number w => exact element_number hp hr
  | string s => exact element_string hstrict s r
  | punctuator t => exact element_punctuator hp hr

theorem head?_text (o : Options) (p : Piece) : (p.text o).head? = p.first := by
  cases p with
  | string s => rw [text, Literal.toList_quoted]; rfl
  | _ => rfl

theorem Valid.text_ne_nil {p : Piece} (hp : p.Valid) (o : Options) : p.text o ≠ [] := by
  cases p with
  | blank => exact List.cons_ne_nil _ _
  | word w =>
    obtain ⟨c, rest, rfl, -⟩ := isWord_cons hp
    exact List.cons_ne_nil _ _
  | number w =>
    obtain ⟨c, rest, rfl, -⟩ := DecimalText.cons hp
    exact List.cons_ne_nil _ _
  | string s =>
    rw [text, Literal.toList_quoted]
    exact List.cons_ne_nil _ _
  | punctuator t =>
    rintro rfl
    have hmem : [] ∈ punctuators := hp
    exact absurd hmem (by decide)

/-! ## Lists of pieces -/

/-- Joined pieces do not give the token of the first. -/
theorem element_of_joins {p q : Piece} (hp : p.Valid) (h : p.joins q = true) (r : List Char)
    {t : Option Token} {rest : List Char}
    (ht : element strict (p.text o ++ (q.text o ++ r)) = some (t, rest)) :
    ∃ u v, p.token? = some u ∧ t = some v ∧ u ≠ v := by
  rcases p with _ | _ | w | _ | t' <;> rcases q with _ | _ | _ | _ | u <;> try cases h
  · simp only [joins, Bool.and_eq_true, decide_eq_true_eq] at h
    obtain ⟨hdigits, rfl⟩ := h
    obtain ⟨c, w, rfl, hc⟩ := DecimalText.cons hp
    have hwhole : (c :: w ++ '.' :: r).takeWhile Char.isDigit = c :: w :=
      takeWhile_append (List.all_eq_true.1 hdigits) rfl
    have hrest : (c :: w ++ '.' :: r).dropWhile Char.isDigit = '.' :: r :=
      dropWhile_append (List.all_eq_true.1 hdigits) rfl
    have hlong : ∃ more, (decimalPart (c :: w ++ '.' :: r)).1 = c :: w ++ '.' :: more := by
      unfold decimalPart
      rw [hwhole, hrest, fractionPart, if_pos rfl]
      exact ⟨_, List.append_assoc _ _ _⟩
    obtain ⟨more, hmore⟩ := hlong
    have helement : element strict (c :: w ++ '.' :: r) = some (t, rest) := ht
    rw [List.cons_append] at hmore helement
    rw [element_of_isDigit hc] at helement
    split at helement
    · cases helement
    · obtain ⟨rfl, -⟩ := Prod.mk.inj (Option.some.inj helement)
      refine ⟨_, _, rfl, rfl, fun heq => ?_⟩
      have hlength := congrArg List.length ((Token.number.inj heq).trans hmore)
      simp at hlength
  · simp only [joins, Bool.and_eq_true, decide_eq_true_eq] at h
    obtain ⟨rfl, rfl⟩ := h
    have hends : EndsBefore (continuesPunctuator ['-', '-']) r := by
      cases r with
      | nil => trivial
      | cons c r => exact (rfl : continuesPunctuator ['-', '-'] c = false)
    have helement : element strict (['-', '-'] ++ r) = some (some (.punctuator ['-', '-']), r) :=
      element_punctuator (by decide) hends
    obtain ⟨rfl, -⟩ := Prod.mk.inj (Option.some.inj (helement.symm.trans ht))
    exact ⟨_, _, rfl, rfl, by decide⟩

theorem tokensWithin_succ {cs : List Char} (hne : cs ≠ []) (room : Nat) :
    tokensWithin strict (room + 1) cs = (element strict cs).bind fun p =>
      (tokensWithin strict room p.2).map (p.1.toList ++ ·) := by
  cases cs with
  | nil => exact absurd rfl hne
  | cons c cs => rw [tokensWithin]

theorem endsBefore_flatMap_text {p : Piece} {ps : List Piece} (hvalid : ∀ q ∈ ps, q.Valid)
    (h : ∀ q ∈ ps.head?, p.apart q) : EndsBefore p.goesOn (ps.flatMap (text o)) := by
  cases ps with
  | nil => trivial
  | cons q ps =>
    have hfirst := head?_text o q
    rw [List.flatMap_cons]
    rcases htext : q.text o with _ | ⟨c, cs⟩
    · exact absurd htext ((hvalid q List.mem_cons_self).text_ne_nil o)
    · rw [htext] at hfirst
      exact h q rfl c hfirst.symm

theorem tokensWithin_flatMap_text (hstrict : strict = true → o.escapeLineTerminators = true)
    {ps : List Piece} (hvalid : ∀ p ∈ ps, p.Valid)
    (hchain : ps.IsChain fun p q => p.joins q = true ∨ p.apart q) {room : Nat}
    (hroom : (ps.flatMap (text o)).length ≤ room) :
    tokensWithin strict room (ps.flatMap (text o)) = some (ps.filterMap token?)
      ↔ ps.IsChain fun p q => p.joins q = false := by
  induction ps generalizing room with
  | nil => simp [tokensWithin]
  | cons p ps ih =>
    have hp := hvalid p List.mem_cons_self
    have hrest : ∀ q ∈ ps, q.Valid := fun q hq => hvalid q (List.mem_cons_of_mem p hq)
    have hne : p.text o ++ ps.flatMap (text o) ≠ [] :=
      List.append_ne_nil_of_left_ne_nil (hp.text_ne_nil o) _
    have hlength := List.length_pos_iff.2 (hp.text_ne_nil o)
    rw [List.flatMap_cons, List.length_append] at hroom
    obtain ⟨room, rfl⟩ : ∃ k, room = k + 1 := ⟨room - 1, by omega⟩
    have htoken : (p :: ps).filterMap token? = p.token?.toList ++ ps.filterMap token? := by
      rw [List.filterMap_cons]
      cases p.token? <;> rfl
    rw [List.isChain_cons] at hchain ⊢
    rw [List.flatMap_cons, tokensWithin_succ hne, htoken]
    by_cases hjoin : ∃ q ∈ ps.head?, p.joins q = true
    · -- the first token is another one
      obtain ⟨q, hq, hjoins⟩ := hjoin
      refine iff_of_false (fun htokens => ?_) fun h => ?_
      · obtain ⟨qs, rfl⟩ : ∃ qs, ps = q :: qs := List.head?_eq_some_iff.1 hq
        obtain ⟨⟨t, rest⟩, helement, htail⟩ := Option.bind_eq_some_iff.1 htokens
        rw [List.flatMap_cons] at helement
        obtain ⟨u, v, hu, rfl, huv⟩ := element_of_joins hp hjoins _ helement
        obtain ⟨ts, -, hts⟩ := Option.map_eq_some_iff.1 htail
        rw [hu] at hts
        exact huv (List.cons.inj hts).1.symm
      · rw [h.1 q hq] at hjoins
        cases hjoins
    · -- the first piece is read by itself, and so it comes down to the others
      have hnot : ∀ q ∈ ps.head?, p.joins q = false :=
        fun q hq => Bool.eq_false_of_not_eq_true fun h => hjoin ⟨q, hq, h⟩
      have hapart : ∀ q ∈ ps.head?, p.apart q :=
        fun q hq => (hchain.1 q hq).resolve_left fun h => hjoin ⟨q, hq, h⟩
      have htail : (ps.flatMap (text o)).length ≤ room := by omega
      rw [element_text hp hstrict (endsBefore_flatMap_text hrest hapart), Option.bind_some,
        Option.map_eq_some_iff, ← ih hrest hchain.2 htail]
      simp only [List.append_cancel_left_eq, exists_eq_right]
      exact ⟨fun h => ⟨hnot, h⟩, fun h => h.2⟩

/-- Pieces that stand apart or join are read piece by piece exactly if no neighbours join. -/
theorem tokens_flatMap_text (hstrict : strict = true → o.escapeLineTerminators = true)
    {ps : List Piece} (hvalid : ∀ p ∈ ps, p.Valid)
    (hchain : ps.IsChain fun p q => p.joins q = true ∨ p.apart q) :
    tokens strict (ps.flatMap (text o)) = some (ps.filterMap token?)
      ↔ ps.IsChain fun p q => p.joins q = false :=
  tokensWithin_flatMap_text hstrict hvalid hchain (Nat.le_refl _)

end Piece

end ScriptWriter
