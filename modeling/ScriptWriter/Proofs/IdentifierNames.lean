import ScriptWriter.Proofs.CharacterClasses
import ScriptWriter.Proofs.ExprText

/-!
# Properties after a dot and the names of the script language

In a script a name starts with a letter and goes on with letters, marks, digits and connectors,
give or take a few characters that the Unicode standard lists one by one. A property is written
after a dot by another rule, which goes by the properties Alphabetic and Numeric. This rule takes
marks and enclosed letters at the start, superscripts, fractions and enclosed letters after it, and
in both places a letter that is set aside for syntax. Whatever else it takes is a name
(`dotted_property_is_name_iff`).
-/

namespace ScriptWriter

open Text

/-- The Unicode property Other_ID_Start. -/
def otherStartRanges : List (Nat × Nat) :=
  [(0x1885, 0x1886), (0x2118, 0x2118), (0x212E, 0x212E), (0x309B, 0x309C)]

/-- The Unicode property Other_ID_Continue. -/
def otherContinueRanges : List (Nat × Nat) :=
  [(0xB7, 0xB7), (0x387, 0x387), (0x1369, 0x1371), (0x19DA, 0x19DA), (0x200C, 0x200D),
   (0x30FB, 0x30FB), (0xFF65, 0xFF65)]

/-- The one letter that is set aside for syntax. -/
def verticalTilde : Char := '\u2E2F'

/-- The Unicode property ID_Start. -/
def isIdStart (c : Char) : Bool :=
  (classOf? c == some .letter || inRanges otherStartRanges c) && c != verticalTilde

/-- The Unicode property ID_Continue. -/
def isIdContinue (c : Char) : Bool :=
  isIdStart c || classOf? c == some .mark || classOf? c == some .digit
    || classOf? c == some .connector || inRanges otherContinueRanges c

def startsName (c : Char) : Bool := c == '$' || c == '_' || isIdStart c

-- The characters by number are the zero-width non-joiner and the zero-width joiner.
def continuesName (c : Char) : Bool :=
  c == '$' || c == '\u200C' || c == '\u200D' || isIdContinue c

/-- A name of the script language, be it a reserved word or not. -/
def isName (name : String) : Bool :=
  match name.toList with
  | [] => false
  | first :: rest => startsName first && rest.all continuesName

/-- A mark or an enclosed letter that is not listed as a start, or the vertical tilde. -/
def straysFirst (c : Char) : Bool :=
  (classOf? c == some .mark || classOf? c == some .enclosed) && !inRanges otherStartRanges c
    || c == verticalTilde

/-- A number without a decimal value or an enclosed letter, neither of them listed, or the vertical
tilde. -/
def straysLater (c : Char) : Bool :=
  (classOf? c == some .otherNumber || classOf? c == some .enclosed)
      && !inRanges (otherStartRanges ++ otherContinueRanges) c
    || c == verticalTilde

/-! ## One character -/

-- The characters that the rules name are looked up; the others go by their class.
theorem startsName_iff {c : Char} (h : startsIdentifier c = true) :
    startsName c = true ↔ straysFirst c = false := by
  by_cases hnamed : c ∈ ['$', '_', verticalTilde]
  · simp only [List.mem_cons, List.not_mem_nil, or_false] at hnamed
    rcases hnamed with rfl | rfl | rfl <;> decide +kernel
  · simp only [List.mem_cons, List.not_mem_nil, or_false, not_or] at hnamed
    obtain ⟨hdollar, hline, htilde⟩ := hnamed
    have halphabetic : isAlphabetic c = true := by
      simpa [startsIdentifier, hdollar, hline] using h
    obtain ⟨k, hk, hclass⟩ := classOf?_of_isAlphabetic halphabetic
    simp only [CharClass.alphabetic, List.mem_cons, List.not_mem_nil, or_false] at hk
    rcases hk with rfl | rfl | rfl <;>
      simp [startsName, isIdStart, straysFirst, hclass, hdollar, hline, htilde]

theorem continuesName_iff {c : Char} (h : continuesIdentifier c = true) :
    continuesName c = true ↔ straysLater c = false := by
  by_cases hnamed : c ∈ ['$', '_', '\u200C', '\u200D', verticalTilde]
  · simp only [List.mem_cons, List.not_mem_nil, or_false] at hnamed
    rcases hnamed with rfl | rfl | rfl | rfl | rfl <;> decide +kernel
  · simp only [List.mem_cons, List.not_mem_nil, or_false, not_or] at hnamed
    obtain ⟨hdollar, hline, hnonJoiner, hjoiner, htilde⟩ := hnamed
    have hclassed : ∃ k, classOf? c = some k := by
      have h : isAlphabetic c = true ∨ isNumeric c = true := by
        simpa [continuesIdentifier, hdollar, hline] using h
      rcases h with h | h
      · obtain ⟨k, -, hclass⟩ := classOf?_of_isAlphabetic h
        exact ⟨k, hclass⟩
      · exact classOf?_of_isNumeric h
    obtain ⟨k, hclass⟩ := hclassed
    have happend : inRanges (otherStartRanges ++ otherContinueRanges) c
        = (inRanges otherStartRanges c || inRanges otherContinueRanges c) :=
      List.any_append
    cases k <;>
      simp [continuesName, isIdContinue, isIdStart, straysLater, happend, hclass, hdollar,
        hnonJoiner, hjoiner, htilde, or_iff_not_imp_left]

/-! ## Names -/

theorem isName_iff {name : String} (h : isIdentifier name = true) :
    isName name = true ↔ (∀ c ∈ name.toList.head?, straysFirst c = false)
      ∧ ∀ c ∈ name.toList.tail, straysLater c = false := by
  unfold isIdentifier at h
  unfold isName
  rcases hname : name.toList with _ | ⟨first, rest⟩
  · simp [hname] at h
  · rw [hname, Bool.and_eq_true, List.all_eq_true] at h
    obtain ⟨hfirst, hrest⟩ := h
    rw [Bool.and_eq_true, List.all_eq_true, startsName_iff hfirst]
    refine and_congr (by simp) (forall₂_congr fun c hc => ?_)
    exact continuesName_iff (hrest c hc)

/-- No property after a dot can be mistaken for one in brackets. -/
theorem propertyText_eq_dotted_iff (o : Options) (property : String) :
    Expr.propertyText o property = "." ++ property ↔ isIdentifier property = true := by
  rw [Expr.propertyText_eq]
  by_cases h : isIdentifier property = true
  · simp [h]
  · rw [if_neg h]
    refine iff_of_false (fun heq => ?_) h
    have hfirst := congrArg (fun s => s.toList.head?) heq
    simp [String.toList_append] at hfirst

theorem source_emitProperty (property : String) (e : Emitter) :
    (Expr.emitProperty property e).2.source
      = e.source ++ Expr.propertyText e.options property := by
  obtain ⟨written, rest, htext, hrest, hrun⟩ := Expr.writes_emitProperty property e
  rw [hrest rfl, String.append_empty] at htext
  rw [htext, hrun e.source]

/-- A member is written with a dot just if its property keeps the writer's rule for names. Such a
property is a name of the script language just if its first character does not stray among the
starts, and no later one among the parts of a name. -/
theorem dotted_property_is_name_iff (target : Expr) (property : String) {e e' : Emitter}
    (h : Emitter.nested target.emit e = (.ok (), e')) :
    (((Expr.member target property).emit e).2.source = e'.source ++ ("." ++ property)
        ↔ isIdentifier property = true)
      ∧ (isIdentifier property = true → (isName property = true
        ↔ (∀ c ∈ property.toList.head?, straysFirst c = false)
          ∧ ∀ c ∈ property.toList.tail, straysLater c = false)) := by
  refine ⟨?_, isName_iff⟩
  rw [Expr.emit, Emitter.bind_apply, h]
  rw [source_emitProperty, String.append_right_inj]
  exact propertyText_eq_dotted_iff e'.options property

theorem accented_property_is_name :
    ((Expr.member (.name "o") "été2").emit {}).2.source = "o" ++ ("." ++ "été2")
      ∧ isName "été2" = true := by
  have h : Emitter.nested (Expr.name "o").emit {} = (.ok (), { source := "o" }) := rfl
  have hproperty : isIdentifier "été2" = true := by decide +kernel
  have hlater : "été2".toList.tail.any straysLater = false := by decide +kernel
  obtain ⟨hdot, hname⟩ := dotted_property_is_name_iff (.name "o") "été2" h
  refine ⟨hdot.2 hproperty, (hname hproperty).2 ⟨?_, fun c hc => ?_⟩⟩
  · rintro c ⟨⟩
    decide +kernel
  · simpa using List.any_eq_false.1 hlater c hc

/-- A superscript in a name, a mark before a letter and an enclosed letter are all written after a
dot, where a script cannot have them. -/
theorem strays_after_dot :
    (Emitter.nested (Expr.member (.name "o") "x²").emit {}).2.source = "o.x²"
      ∧ isName "x²" = false
      ∧ (Emitter.nested (Expr.member (.name "o") "\u0345a").emit {}).2.source = "o.\u0345a"
      ∧ isName "\u0345a" = false
      ∧ (Emitter.nested (Expr.member (.name "o") "ⓐ").emit {}).2.source = "o.ⓐ"
      ∧ isName "ⓐ" = false := by
  refine ⟨?_, ?_, ?_, ?_, ?_, ?_⟩ <;> decide +kernel

end ScriptWriter
