import ScriptWriter.Json.Reader.String
import ScriptWriter.Proofs.Scopes

/-!
# Reading string literals back

`Lexer.stringLiteral` reads a double-quoted literal as a script does: its value is a list of
UTF-16 code units, an escape stands for units by name, by number or for itself, and NUL may be
written short only where no digit follows, since a digit would make the escape an octal one. The
strict form takes no line terminator that stands for itself.

What is written for a string is read as the string, and the reading ends where the literal does,
whatever follows (`stringLiteral_quoted`). The one place where a character's escape looks ahead is
NUL: the text after the short escape starts with a backslash, a quote or the next character, and
none of these is a digit (`stringBody_escape`).
-/

namespace ScriptWriter

namespace Lexer

/-! ## Code units -/

/-- The UTF-16 code units of a code point. -/
def codeUnits (n : Nat) : List Nat :=
  if n < 0x10000 then [n] else [0xD800 + (n - 0x10000) / 0x400, 0xDC00 + (n - 0x10000) % 0x400]

def utf16 (cs : List Char) : List Nat := cs.flatMap fun c => codeUnits c.toNat

/-- No text starts with the units of two characters: half of a pair is no character. -/
theorem codeUnits_append_inj {c d : Char} {x y : List Nat}
    (h : codeUnits c.toNat ++ x = codeUnits d.toNat ++ y) : c = d ∧ x = y := by
  have hc : c.toNat < 0xD800 ∨ 0xDFFF < c.toNat ∧ c.toNat < 0x110000 := c.valid
  have hd : d.toNat < 0xD800 ∨ 0xDFFF < d.toNat ∧ d.toNat < 0x110000 := d.valid
  unfold codeUnits at h
  split at h <;> split at h <;>
    simp only [List.cons_append, List.nil_append, List.cons.injEq] at h
  · exact ⟨Char.toNat_inj.1 h.1, h.2⟩
  · omega
  · omega
  · exact ⟨Char.toNat_inj.1 (by omega), h.2.2⟩

theorem utf16_injective : ∀ {cs ds : List Char}, utf16 cs = utf16 ds → cs = ds
  | [], [], _ => rfl
  | [], d :: ds, h => by
    have : codeUnits d.toNat ≠ [] := by unfold codeUnits; split <;> simp
    simp [utf16, this] at h
  | c :: cs, [], h => by
    have : codeUnits c.toNat ≠ [] := by unfold codeUnits; split <;> simp
    simp [utf16, this] at h
  | c :: cs, d :: ds, h => by
    simp only [utf16, List.flatMap_cons] at h
    obtain ⟨rfl, hrest⟩ := codeUnits_append_inj h
    have ih : cs = ds := utf16_injective hrest
    rw [ih]

/-! ## The lexer -/

def isLineTerminator (c : Char) : Bool :=
  c = '\n' || c = '\r' || c = Char.ofNat 0x2028 || c = Char.ofNat 0x2029

def startsWithDigit : List Char → Bool
  | [] => false
  | c :: _ => c.isDigit

def isOctalDigit (c : Char) : Bool := '0' ≤ c && c ≤ '7'

/-- The digits of an octal escape: three at most if the first is at most `3`, otherwise two. -/
def octalDigits (first : Char) (rest : List Char) : List Char :=
  first :: (rest.take (if first ≤ '3' then 2 else 1)).takeWhile isOctalDigit

def namedEscape? (c : Char) : Option Nat :=
  if c = 'b' then some 8
  else if c = 't' then some 9
  else if c = 'n' then some 10
  else if c = 'v' then some 11
  else if c = 'f' then some 12
  else if c = 'r' then some 13
  else none

def hexEscape (count : Nat) (cs : List Char) : Option (List Nat × Nat) :=
  if (cs.take count).length = count then
    (Json.Reader.hexValue? (cs.take count)).map fun n => ([n], count + 1)
  else none

/-- An escape by the hexadecimal digits of a code point between braces, from the first digit on. -/
def codePointEscape (cs : List Char) : Option (List Nat × Nat) :=
  let digits := cs.takeWhile (· ≠ '\x7d')
  if digits = [] ∨ digits.length = cs.length then none
  else (Json.Reader.hexValue? digits).bind fun n =>
    if n < 0x110000 then some (codeUnits n, digits.length + 3) else none

/-- The units of an escape, from after its backslash, and the characters it takes. A line
terminator after a backslash stands for nothing. -/
def escapeSequence : List Char → Option (List Nat × Nat)
  | [] => none
  | c :: rest =>
    if c = '0' ∧ startsWithDigit rest = false then some ([0], 1)
    else if isOctalDigit c then
      some ([(octalDigits c rest).foldl (fun n d => 8 * n + (d.toNat - 48)) 0],
        (octalDigits c rest).length)
    else if c = 'x' then hexEscape 2 rest
    else if c = 'u' then
      if rest.head? = some '\x7b' then codePointEscape (rest.drop 1) else hexEscape 4 rest
    else if c = '\r' ∧ rest.head? = some '\n' then some ([], 2)
    else if isLineTerminator c then some ([], 1)
    else match namedEscape? c with
      | some n => some ([n], 1)
      | none => some (codeUnits c.toNat, 1)

/-- The units up to the closing quote and the text after it. -/
def stringBody (strict : Bool) : List Char → Option (List Nat × List Char)
  | [] => none
  | c :: rest =>
    if c = '"' then some ([], rest)
    else if c = '\\' then
      match escapeSequence rest with
      | none => none
      | some (units, taken) =>
        (stringBody strict (rest.drop taken)).map fun p => (units ++ p.1, p.2)
    else if strict && isLineTerminator c then none
    else (stringBody strict rest).map fun p => (codeUnits c.toNat ++ p.1, p.2)
termination_by cs => cs.length
decreasing_by all_goals simp only [List.length_cons, List.length_drop]; omega

/-- The value of the string literal at the start of a text and the text after it. -/
def stringLiteral (strict : Bool) : List Char → Option (List Nat × List Char)
  | [] => none
  | c :: rest => if c = '"' then stringBody strict rest else none

/-! ## Escapes that are read back -/

theorem stringBody_backslash (strict : Bool) {rest : List Char} {units : List Nat} {taken : Nat}
    (h : escapeSequence rest = some (units, taken)) :
    stringBody strict ('\\' :: rest)
      = (stringBody strict (rest.drop taken)).map fun p => (units ++ p.1, p.2) := by
  rw [stringBody, if_neg (by decide), if_pos rfl, h]

theorem stringBody_plain (strict : Bool) {c : Char} (rest : List Char) (hq : c ≠ '"')
    (hb : c ≠ '\\') : stringBody strict (c :: rest)
      = if strict && isLineTerminator c then none
        else (stringBody strict rest).map fun p => (codeUnits c.toNat ++ p.1, p.2) := by
  rw [stringBody, if_neg hq, if_neg hb]

end Lexer

open Lexer

namespace Literal

/-- The text starts with the character or a backslash. -/
def Leads (c : Char) (text : List Char) : Prop := ∃ tail, text = '\\' :: tail ∨ text = c :: tail

theorem Leads.ite {c : Char} (p : Prop) [Decidable p] {x y : List Char} (hx : Leads c x)
    (hy : Leads c y) : Leads c (if p then x else y) := by
  split
  · exact hx
  · exact hy

theorem leads_escape (o : Options) (c : Char) (rest : List Char) : Leads c (escape o c rest) := by
  have hslash (tail : List Char) : Leads c ('\\' :: tail) := ⟨tail, Or.inl rfl⟩
  have hself : Leads c [c] := ⟨[], Or.inr rfl⟩
  have hnul : Leads c (nulEscape rest) := by
    cases rest with
    | nil => exact hslash _
    | cons next rest => exact .ite _ (hslash _) (hslash _)
  have hline : Leads c _ :=
    .ite (c = '\n') (hslash ['n']) (.ite (c = '\r') (hslash ['r'])
      (.ite (c = Char.ofNat 0x2028) (hslash ['u', '2', '0', '2', '8'])
      (.ite (c = Char.ofNat 0x2029) (hslash ['u', '2', '0', '2', '9']) hself)))
  exact .ite _ hnul (.ite _ (hslash _) (.ite _ (hslash _) (.ite _ (hslash _) (.ite _ (hslash _)
    (.ite _ hline hself)))))

/-- No digit follows the short escape of NUL. -/
theorem startsWithDigit_escaped (o : Options) {rest : List Char} (r : List Char)
    (h : startsWithDigit rest = false) : startsWithDigit (escaped o rest ++ '"' :: r) = false := by
  rcases rest with _ | ⟨c, rest⟩
  · rfl
  · obtain ⟨tail, ht | ht⟩ := leads_escape o c rest <;> rw [escaped, ht]
    · rfl
    · exact h

theorem stringBody_escape_of_eq (strict : Bool) (o : Options) {c : Char} (text tail : List Char)
    (hc : isLineTerminator c = true → o.escapeLineTerminators = true)
    (h : escapeSequence (text ++ tail) = some (codeUnits c.toNat, text.length)) :
    stringBody strict ('\\' :: (text ++ tail))
      = if strict && !o.escapeLineTerminators && isLineTerminator c then none
        else (stringBody strict tail).map fun p => (codeUnits c.toNat ++ p.1, p.2) := by
  have hraw : (strict && !o.escapeLineTerminators && isLineTerminator c) = false := by
    rcases hl : isLineTerminator c with _ | _
    · rw [Bool.and_false]
    · rw [hc hl, Bool.not_true, Bool.and_false, Bool.false_and]
  rw [stringBody_backslash strict h, List.drop_left, hraw, if_neg Bool.false_ne_true]

/-- What is written for a character is read as the character, unless it is a line terminator that
stands for itself where none may. -/
theorem stringBody_escape (strict : Bool) (o : Options) (c : Char) (rest r : List Char) :
    stringBody strict (escape o c rest ++ (escaped o rest ++ '"' :: r))
      = if strict && !o.escapeLineTerminators && isLineTerminator c then none
        else (stringBody strict (escaped o rest ++ '"' :: r)).map
          fun p => (codeUnits c.toNat ++ p.1, p.2) := by
  have hraw : c ≠ '"' → c ≠ '\\' → o.escapeLineTerminators = false ∨ isLineTerminator c = false →
      stringBody strict ([c] ++ (escaped o rest ++ '"' :: r))
        = if strict && !o.escapeLineTerminators && isLineTerminator c then none
          else (stringBody strict (escaped o rest ++ '"' :: r)).map
            fun p => (codeUnits c.toNat ++ p.1, p.2) := by
    intro hq hb hl
    rw [List.singleton_append, stringBody_plain strict _ hq hb]
    rcases hl with hl | hl <;> simp [hl]
  unfold escape
  by_cases h0 : c = Char.ofNat 0
  · subst h0
    rw [if_pos rfl]
    -- the choice of escape looks at the next character, the lexer at the next one written
    rcases hd : startsWithDigit rest with _ | _
    · have hn : nulEscape rest = ['\\', '0'] := by
        rcases rest with _ | ⟨d, rest⟩
        · rfl
        · exact if_neg (by simpa [startsWithDigit] using hd)
      rw [hn]
      refine stringBody_escape_of_eq strict o ['0'] _ (fun h => absurd h (by decide)) ?_
      exact if_pos ⟨rfl, startsWithDigit_escaped o r hd⟩
    · have hn : nulEscape rest = ['\\', 'x', '0', '0'] := by
        rcases rest with _ | ⟨d, rest⟩
        · exact absurd hd (by decide)
        · exact if_pos hd
      rw [hn]
      exact stringBody_escape_of_eq strict o ['x', '0', '0'] _ (fun h => absurd h (by decide)) rfl
  by_cases ht : c = '\t'
  · subst ht
    exact stringBody_escape_of_eq strict o ['t'] _ (fun h => absurd h (by decide)) rfl
  by_cases hq : c = '"'
  · subst hq
    exact stringBody_escape_of_eq strict o ['"'] _ (fun h => absurd h (by decide)) rfl
  by_cases hb : c = '\\'
  · subst hb
    exact stringBody_escape_of_eq strict o ['\\'] _ (fun h => absurd h (by decide)) rfl
  rw [if_neg h0, if_neg ht, if_neg hq, if_neg hb]
  by_cases hs : c = '$' ∧ o.escapeDollar = true
  · rw [if_pos hs, hs.1]
    exact stringBody_escape_of_eq strict o ['$'] _ (fun h => absurd h (by decide)) rfl
  rw [if_neg hs]
  by_cases hl : o.escapeLineTerminators = true
  · rw [if_pos hl]
    by_cases hn : c = '\n'
    · subst hn
      exact stringBody_escape_of_eq strict o ['n'] _ (fun _ => hl) rfl
    by_cases hr : c = '\r'
    · subst hr
      exact stringBody_escape_of_eq strict o ['r'] _ (fun _ => hl) rfl
    by_cases hls : c = Char.ofNat 0x2028
    · subst hls
      exact stringBody_escape_of_eq strict o ['u', '2', '0', '2', '8'] _ (fun _ => hl) rfl
    by_cases hps : c = Char.ofNat 0x2029
    · subst hps
      exact stringBody_escape_of_eq strict o ['u', '2', '0', '2', '9'] _ (fun _ => hl) rfl
    rw [if_neg hn, if_neg hr, if_neg hls, if_neg hps]
    exact hraw hq hb (Or.inr (by simp [isLineTerminator, hn, hr, hls, hps]))
  · rw [if_neg hl]
    exact hraw hq hb (Or.inl (by simpa using hl))

theorem stringBody_escaped (strict : Bool) (o : Options) (r : List Char) : ∀ cs : List Char,
    stringBody strict (escaped o cs ++ '"' :: r)
      = if strict && !o.escapeLineTerminators && cs.any isLineTerminator then none
        else some (utf16 cs, r)
  | [] => by
    rw [escaped, List.nil_append, stringBody, if_pos rfl, List.any_nil, Bool.and_false]
    rfl
  | c :: rest => by
    rw [escaped, List.append_assoc, stringBody_escape, stringBody_escaped strict o r rest,
      List.any_cons, Bool.and_or_distrib_left]
    rcases strict && !o.escapeLineTerminators && isLineTerminator c with _ | _
    · rcases strict && !o.escapeLineTerminators && rest.any isLineTerminator with _ | _
      · simp [utf16]
      · rfl
    · rfl

theorem toList_quoted (o : Options) (s : String) :
    (quoted o s).toList = '"' :: (escaped o s.toList ++ ['"']) := by
  rw [quoted, String.toList_ofList]

theorem stringLiteral_quoted (strict : Bool) (o : Options) (s r : String) :
    stringLiteral strict (quoted o s ++ r).toList
      = if strict && !o.escapeLineTerminators && s.toList.any isLineTerminator then none
        else some (utf16 s.toList, r.toList) := by
  rw [String.toList_append, toList_quoted, List.cons_append, stringLiteral, if_pos rfl,
    List.append_assoc, List.singleton_append, stringBody_escaped]

/-- The literal that an emitter writes for a string is read as the string, whatever follows, and
the reading ends where the literal does. A lexer that takes no raw line terminators reads it too
exactly if they are escaped or there are none. -/
theorem writeString_reads_back (s : String) (e : Emitter) :
    ∃ literal, Emitter.writeString s e = (.ok (), { e with source := e.source ++ literal })
      ∧ (∀ r : String, stringLiteral false (literal ++ r).toList = some (utf16 s.toList, r.toList))
      ∧ (∀ r : String, (stringLiteral true (literal ++ r).toList).isSome = true ↔
        e.options.escapeLineTerminators = true ∨ ∀ c ∈ s.toList, isLineTerminator c = false)
      ∧ (∀ r : String, (stringLiteral true (literal ++ r).toList).isSome = true →
        stringLiteral true (literal ++ r).toList = some (utf16 s.toList, r.toList))
      ∧ ∀ s' : String, utf16 s'.toList = utf16 s.toList → s' = s := by
  have hcond : (!e.options.escapeLineTerminators && s.toList.any isLineTerminator) = false ↔
      e.options.escapeLineTerminators = true ∨ ∀ c ∈ s.toList, isLineTerminator c = false := by
    rw [Bool.and_eq_false_iff, Bool.not_eq_false', List.any_eq_false]
    simp only [Bool.not_eq_true]
  refine ⟨quoted e.options s, Emitter.writeString_apply s e, fun r => ?_, fun r => ?_, fun r => ?_,
    fun s' h => ?_⟩
  · rw [stringLiteral_quoted, Bool.false_and, Bool.false_and, if_neg Bool.false_ne_true]
  · rw [← hcond, stringLiteral_quoted, Bool.true_and]
    split <;> simp_all
  · rw [stringLiteral_quoted, Bool.true_and]
    split <;> simp
  · exact String.toList_inj.1 (utf16_injective h)

end Literal

end ScriptWriter
