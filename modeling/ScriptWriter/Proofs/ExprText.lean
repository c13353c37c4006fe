import ScriptWriter.Proofs.LiteralText
import ScriptWriter.Proofs.Scopes

/-!
# What an expression emits

`text` is the text of an expression by recursion on it; it knows neither the text written before
nor the depth nor the limit. Operators go by a table of aliases, a callee by the `native` field of
its descriptor and a property by the characters it has. `positions` lists the parts of an expression in the order they are
opened, each with its depth, and a part has a `fault` if it is opened at the limit or calls an
unknown function.

Emitting an expression writes its text if no position has a fault; otherwise it stops with the
first fault and has written a beginning of the text (`nodeWrites`). No position is at the limit
exactly if the depth and the height together stay within it, which gives the condition for success
(`nested_emit_spec`).
-/

namespace ScriptWriter

open Emitter

namespace Expr

/-! ## Parts, heights and positions -/

/-- The parts of an expression that are emitted as nodes, from left to right. -/
def children : Expr → List Expr
  | .constant _ => []
  | .name _ => []
  | .array items => items
  | .object entries => entries.map Prod.snd
  | .unary _ operand => [operand]
  | .binary left _ right => [left, right]
  | .conditional test yes no => [test, yes, no]
  | .member target _ => [target]
  | .index target key => [target, key]
  | .call _ arguments => arguments

theorem sizeOf_lt_of_mem_children : ∀ {e c : Expr}, c ∈ e.children → sizeOf c < sizeOf e
  | .constant _, c, h => by simp [children] at h
  | .name _, c, h => by simp [children] at h
  | .array items, c, h => by
    have : sizeOf c < sizeOf items := List.sizeOf_lt_of_mem h
    simp only [array.sizeOf_spec]
    omega
  | .object entries, c, h => by
    obtain ⟨⟨key, c'⟩, hm, rfl⟩ := List.mem_map.1 h
    have := List.sizeOf_lt_of_mem hm
    simp only [Prod.mk.sizeOf_spec, object.sizeOf_spec] at this ⊢
    omega
  | .unary _ operand, c, h => by
    simp only [children, List.mem_singleton] at h
    subst h
    simp only [unary.sizeOf_spec]
    omega
  | .binary left _ right, c, h => by
    simp only [children, List.mem_cons, List.not_mem_nil, or_false] at h
    rcases h with rfl | rfl <;> simp only [binary.sizeOf_spec] <;> omega
  | .conditional test yes no, c, h => by
    simp only [children, List.mem_cons, List.not_mem_nil, or_false] at h
    rcases h with rfl | rfl | rfl <;> simp only [conditional.sizeOf_spec] <;> omega
  | .member target _, c, h => by
    simp only [children, List.mem_singleton] at h
    subst h
    simp only [member.sizeOf_spec]
    omega
  | .index target key, c, h => by
    simp only [children, List.mem_cons, List.not_mem_nil, or_false] at h
    rcases h with rfl | rfl <;> simp only [index.sizeOf_spec] <;> omega
  | .call _ arguments, c, h => by
    have : sizeOf c < sizeOf arguments := List.sizeOf_lt_of_mem h
    simp only [call.sizeOf_spec]
    omega

/-- What holds of an expression whenever it holds of its parts holds of all expressions. -/
theorem children_induction {P : Expr → Prop} (h : ∀ e, (∀ c ∈ e.children, P c) → P e) (e : Expr) :
    P e :=
  h e fun c _ => children_induction h c
termination_by sizeOf e
decreasing_by exact sizeOf_lt_of_mem_children ‹_›

/-- The nodes open at once at the deepest part: one, and those of the highest child. -/
def height (e : Expr) : Nat := (e.children.attach.map fun c => height c.1).foldr max 0 + 1
termination_by sizeOf e
decreasing_by exact sizeOf_lt_of_mem_children c.2

theorem height_eq (e : Expr) : e.height = (e.children.map height).foldr max 0 + 1 := by
  rw [height, List.attach_map_val (f := height)]

/-- An expression and all its parts in the order they are opened, from left to right, each with
the depth at which it is opened. -/
def positions (depth : Nat) (e : Expr) : List (Nat × Expr) :=
  (depth, e) :: e.children.attach.flatMap fun c => positions (depth + 1) c.1
termination_by sizeOf e
decreasing_by exact sizeOf_lt_of_mem_children c.2

theorem positions_eq (depth : Nat) (e : Expr) :
    e.positions depth = (depth, e) :: e.children.flatMap (positions (depth + 1)) := by
  rw [positions, List.flatMap_def, List.flatMap_def, List.attach_map_val (f := positions _)]

theorem map_snd_positions (e : Expr) : ∀ depth depth',
    (e.positions depth).map Prod.snd = (e.positions depth').map Prod.snd := by
  induction e using children_induction with
  | h e ih =>
    intro depth depth'
    rw [positions_eq, positions_eq, List.map_cons, List.map_cons, List.map_flatMap,
      List.map_flatMap, List.flatMap_def, List.flatMap_def,
      List.map_congr_left fun c hc => ih c hc (depth + 1) (depth' + 1)]

/-- What holds of every part holds of the expression itself and of every part of its parts. -/
theorem forall_positions_iff {Q : Expr → Prop} {e : Expr} : (∀ p ∈ e.positions 0, Q p.2) ↔
    Q e ∧ ∀ c ∈ e.children, ∀ p ∈ c.positions 0, Q p.2 := by
  have hdepth (c : Expr) : (∀ p ∈ c.positions 1, Q p.2) ↔ ∀ p ∈ c.positions 0, Q p.2 := by
    have h := map_snd_positions c 1 0
    rw [← List.forall_mem_map (f := Prod.snd) (P := Q), h, List.forall_mem_map]
  rw [positions_eq, List.forall_mem_cons, List.forall_mem_flatMap]
  simp only [hdepth]

theorem foldr_max_height_le (n : Nat) (l : List Expr) :
    (l.map height).foldr max 0 ≤ n ↔ ∀ c ∈ l, c.height ≤ n := by
  induction l with
  | nil => simp
  | cons c l ih => rw [List.map_cons, List.foldr_cons, Nat.max_le, ih, List.forall_mem_cons]

/-- The depth and the height stay within the limit exactly if no part is opened at it. -/
theorem forall_positions_lt_iff (limit : Nat) (e : Expr) : ∀ depth,
    (∀ p ∈ e.positions depth, p.1 < limit) ↔ depth + e.height ≤ limit := by
  induction e using children_induction with
  | h e ih =>
    intro depth
    rw [positions_eq, height_eq]
    simp only [List.mem_cons, List.mem_flatMap, forall_eq_or_imp]
    constructor
    · rintro ⟨h, hc⟩
      have : (e.children.map height).foldr max 0 ≤ limit - (depth + 1) := by
        rw [foldr_max_height_le]
        intro c hm
        have := (ih c hm (depth + 1)).1 fun p hp => hc p ⟨c, hm, hp⟩
        omega
      omega
    · intro h
      refine ⟨by omega, ?_⟩
      rintro p ⟨c, hm, hp⟩
      have hle := (foldr_max_height_le _ e.children).1 (Nat.le_refl _) c hm
      exact (ih c hm (depth + 1)).2 (by omega) p hp

/-! ## Texts -/

/-- The unary operators that a script has under another name. -/
def unaryAliases : List (String × String) := [("not", "!")]

/-- The binary operators that a script has under another name. -/
def binaryAliases : List (String × String) := [("and", "&&"), ("or", "||"), ("~", "+")]

/-- An operator under its other name, or as it is if it has none. -/
def spelling (aliases : List (String × String)) (operator : String) : String :=
  (aliases.lookup operator).getD operator

def unaryText (operator : String) : String := spelling unaryAliases operator

def binaryText (operator : String) : String := spelling binaryAliases operator

/-- The name a call is written with: the text of the descriptor's `native` field, or else the name
of the function. -/
def calleeText (functions : FunctionTable) (function : String) : String :=
  match (functions.get? function).bind (·.get? "native") with
  | some (.string native) => native
  | _ => function

/-- A property that may follow a dot: an alphabetic character, a low line or a dollar sign, and
then any number of these and of numeric characters. -/
def FollowsDot (property : String) : Prop :=
  ∃ first rest, property.toList = first :: rest
    ∧ (Text.isAlphabetic first = true ∨ first ∈ ['_', '$'])
    ∧ ∀ c ∈ rest, Text.isAlphabetic c = true ∨ Text.isNumeric c = true ∨ c ∈ ['_', '$']

theorem startsIdentifier_iff (c : Char) :
    startsIdentifier c = true ↔ Text.isAlphabetic c = true ∨ c ∈ ['_', '$'] := by
  simp [startsIdentifier, or_assoc]

theorem continuesIdentifier_iff (c : Char) : continuesIdentifier c = true
    ↔ Text.isAlphabetic c = true ∨ Text.isNumeric c = true ∨ c ∈ ['_', '$'] := by
  simp [continuesIdentifier, or_assoc]

theorem isIdentifier_iff_followsDot {property : String} :
    isIdentifier property = true ↔ FollowsDot property := by
  unfold isIdentifier FollowsDot
  rcases property.toList with _ | ⟨first, rest⟩
  · simp
  · simp only [Bool.and_eq_true, List.all_eq_true, startsIdentifier_iff, continuesIdentifier_iff]
    constructor
    · exact fun h => ⟨first, rest, rfl, h⟩
    · rintro ⟨_, _, ⟨⟩, h⟩
      exact h

instance (property : String) : Decidable (FollowsDot property) :=
  decidable_of_iff _ isIdentifier_iff_followsDot

def propertyText (o : Options) (property : String) : String :=
  if FollowsDot property then "." ++ property else "[" ++ Literal.quoted o property ++ "]"

mutual

/-- The text of an expression. -/
def text (functions : FunctionTable) (o : Options) : Expr → String
  | .constant value => Literal.render o value
  | .name s => s
  | .array items => "[" ++ ", ".intercalate (texts functions o items) ++ "]"
  | .object entries => "\x7b" ++ ", ".intercalate (entryTexts functions o entries) ++ "\x7d"
  | .unary operator operand => "(" ++ unaryText operator ++ text functions o operand ++ ")"
  | .binary left operator right =>
    "(" ++ text functions o left ++ " " ++ binaryText operator ++ " " ++ text functions o right
      ++ ")"
  | .conditional test yes no =>
    "((" ++ text functions o test ++ ") ? (" ++ text functions o yes ++ ") : ("
      ++ text functions o no ++ "))"
  | .member target property => text functions o target ++ propertyText o property
  | .index target key => text functions o target ++ "[" ++ text functions o key ++ "]"
  | .call function arguments =>
    calleeText functions function ++ "(" ++ ", ".intercalate (texts functions o arguments) ++ ")"

def texts (functions : FunctionTable) (o : Options) : List Expr → List String
  | [] => []
  | e :: rest => text functions o e :: texts functions o rest

def entryTexts (functions : FunctionTable) (o : Options) : List (String × Expr) → List String
  | [] => []
  | (key, e) :: rest =>
    (Literal.quoted o key ++ ": " ++ text functions o e) :: entryTexts functions o rest

end

theorem texts_eq_map (functions : FunctionTable) (o : Options) (items : List Expr) :
    texts functions o items = items.map (text functions o) := by
  induction items with
  | nil => rfl
  | cons e rest ih => rw [texts, ih, List.map_cons]

theorem entryTexts_eq_map (functions : FunctionTable) (o : Options) :
    ∀ entries : List (String × Expr), entryTexts functions o entries
      = entries.map fun p => Literal.quoted o p.1 ++ ": " ++ text functions o p.2
  | [] => rfl
  | (key, e) :: rest => by rw [entryTexts, entryTexts_eq_map functions o rest, List.map_cons]

theorem text_withMaxDepth (functions : FunctionTable) (o : Options) (limit : UInt32) (e : Expr) :
    text functions (o.withMaxDepth limit) e = text functions o e := by
  induction e using children_induction with
  | h e ih =>
    cases e with
    | constant value => rw [text, text, Literal.render_withMaxDepth]
    | name s => rw [text, text]
    | array items =>
      rw [text, text, texts_eq_map, texts_eq_map, List.map_congr_left (l := items) ih]
    | object entries =>
      have hentries : entryTexts functions (o.withMaxDepth limit) entries
          = entryTexts functions o entries := by
        rw [entryTexts_eq_map, entryTexts_eq_map]
        refine List.map_congr_left fun p hp => ?_
        rw [Literal.quoted_withMaxDepth, ih p.2 (List.mem_map_of_mem hp)]
      rw [text, text, hentries]
    | unary operator operand => rw [text, text, ih operand (by simp [children])]
    | binary left operator right =>
      rw [text, text, ih left (by simp [children]), ih right (by simp [children])]
    | conditional test yes no =>
      rw [text, text, ih test (by simp [children]), ih yes (by simp [children]),
        ih no (by simp [children])]
    | member target property =>
      rw [text, text, ih target (by simp [children]), propertyText, propertyText,
        Literal.quoted_withMaxDepth]
    | index target key =>
      rw [text, text, ih target (by simp [children]), ih key (by simp [children])]
    | call function arguments =>
      rw [text, text, texts_eq_map, texts_eq_map, List.map_congr_left (l := arguments) ih]

/-! ## The names that are written

The emission finds these names by rules of its own, and comes to the same ones. -/

theorem spelling_cons (name other operator : String) (aliases : List (String × String)) :
    spelling ((name, other) :: aliases) operator
      = if operator = name then other else spelling aliases operator := by
  unfold spelling
  rw [lookup_cons_eq_if]
  split <;> rfl

theorem unaryOperator_eq_unaryText (operator : String) :
    unaryOperator operator = unaryText operator := by
  rw [unaryOperator, unaryText, unaryAliases, spelling_cons]
  rfl

theorem binaryOperator_eq_binaryText (operator : String) :
    binaryOperator operator = binaryText operator := by
  rw [binaryOperator, binaryText, binaryAliases, spelling_cons, spelling_cons, spelling_cons]
  rfl

theorem callee_eq_calleeText {functions : FunctionTable} {function : String} {d : Descriptor}
    (h : functions.get? function = some d) : callee function d = calleeText functions function := by
  rw [callee, calleeText, h, Descriptor.getString?, Option.bind_some]
  rcases d.get? "native" with _ | native
  · rfl
  · cases native <;> rfl

theorem propertyText_eq (o : Options) (property : String) : propertyText o property
    = if isIdentifier property then "." ++ property
      else "[" ++ Literal.quoted o property ++ "]" := by
  rw [propertyText]
  exact if_congr isIdentifier_iff_followsDot.symm rfl rfl

/-! ## Faults -/

def lookupFault (functions : FunctionTable) : Expr → Option EmissionError
  | .call function _ =>
    if functions.contains function then none else some (.unknownFunction function)
  | _ => none

/-- What stops the emission at a position: the limit before anything else, then the look-up. -/
def fault (functions : FunctionTable) (limit : UInt32) (p : Nat × Expr) : Option EmissionError :=
  if limit.toNat ≤ p.1 then some (.tooDeep limit) else lookupFault functions p.2

def firstFault (functions : FunctionTable) (limit : UInt32) (depth : Nat) (es : List Expr) :
    Option EmissionError :=
  (es.flatMap (positions depth)).findSome? (fault functions limit)

theorem firstFault_cons (functions : FunctionTable) (limit : UInt32) (depth : Nat) (e : Expr)
    (es : List Expr) : firstFault functions limit depth (e :: es)
      = (firstFault functions limit depth [e]).or (firstFault functions limit depth es) := by
  simp only [firstFault, List.flatMap_cons, List.flatMap_nil, List.append_nil,
    List.findSome?_append]

theorem firstFault_singleton (functions : FunctionTable) (limit : UInt32) (depth : Nat)
    (e : Expr) : firstFault functions limit depth [e]
      = if limit.toNat ≤ depth then some (.tooDeep limit)
        else (lookupFault functions e).or (firstFault functions limit (depth + 1) e.children) := by
  rw [firstFault, List.flatMap_singleton, positions_eq, List.findSome?_cons, fault, firstFault]
  by_cases h : limit.toNat ≤ depth
  · simp only [if_pos h]
  · simp only [if_neg h]
    rcases lookupFault functions e with _ | err <;> rfl

end Expr

/-! ## Emissions that write a text up to a fault -/

def outcome {α : Type} (fault : Option EmissionError) (a : α) : Except Stop α :=
  match fault with
  | none => .ok a
  | some err => .error (.error err)

/-- After any text the emission adds the given one and nothing else changes; if there is a fault,
it ends with it and adds a beginning of the text. -/
def Writes (m : EmitM Unit) (e : Emitter) (fault : Option EmissionError) (text : String) : Prop :=
  ∃ written rest, text = written ++ rest ∧ (fault = none → rest = "")
    ∧ ∀ s, m { e with source := s } = (outcome fault (), { e with source := s ++ written })

namespace Writes

theorem of_eq {m : EmitM Unit} {e : Emitter} {text : String}
    (h : ∀ s, m { e with source := s } = (.ok (), { e with source := s ++ text })) :
    Writes m e none text :=
  ⟨text, "", (String.append_empty).symm, fun _ => rfl, h⟩

theorem write (text : String) (e : Emitter) : Writes (write text) e none text :=
  of_eq fun _ => rfl

theorem writeString (text : String) (e : Emitter) :
    Writes (writeString text) e none (Literal.quoted e.options text) :=
  of_eq fun _ => rfl

theorem bind {m m' : EmitM Unit} {e : Emitter} {f f' : Option EmissionError} {t t' : String}
    (h : Writes m e f t) (h' : Writes m' e f' t') :
    Writes (m >>= fun _ => m') e (f.or f') (t ++ t') := by
  obtain ⟨w, r, rfl, hr, hm⟩ := h
  obtain ⟨w', r', rfl, hr', hm'⟩ := h'
  rcases f with _ | err
  · obtain rfl := hr rfl
    refine ⟨w ++ w', r', ?_, hr', fun s => ?_⟩
    · rw [String.append_empty, String.append_assoc]
    · rw [bind_apply, hm]
      simp only [outcome, Option.none_or]
      rw [hm', String.append_assoc]
      rfl
  · refine ⟨w, r ++ (w' ++ r'), String.append_assoc, by simp, fun s => ?_⟩
    rw [bind_apply, hm]
    rfl

/-- A node one level deeper faults at the limit and otherwise as its emission does there. -/
theorem nested {m : EmitM Unit} {e : Emitter} {f : Option EmissionError} {t : String}
    (h : e.depth < e.options.maxDepth → Writes m { e with depth := e.depth + 1 } f t) :
    Writes (nested m) e
      (if e.options.maxDepth.toNat ≤ e.depth.toNat then some (.tooDeep e.options.maxDepth) else f)
      t := by
  rcases UInt32.lt_or_le e.depth e.options.maxDepth with hd | hd
  · obtain ⟨w, r, ht, hr, hm⟩ := h hd
    rw [if_neg (Nat.not_le.2 (UInt32.lt_iff_toNat_lt.1 hd))]
    refine ⟨w, r, ht, hr, fun s => ?_⟩
    rw [nested_of_lt (e := { e with source := s }) hd, hm]
  · rw [if_pos (UInt32.le_iff_toNat_le.1 hd)]
    refine ⟨"", t, (String.empty_append).symm, by simp, fun s => ?_⟩
    rw [nested_of_le (e := { e with source := s }) hd, String.append_empty]
    rfl

theorem isolated {m : EmitM Unit} {e : Emitter} {f : Option EmissionError} {t : String}
    (h : Writes (Emitter.nested m) e f t) : isolated m e = (outcome f t, e) := by
  obtain ⟨w, r, rfl, hr, hm⟩ := h
  unfold Emitter.isolated
  rw [hm]
  rcases f with _ | err
  · rw [hr rfl]
    simp [outcome, Except.map]
  · rfl

theorem bind_of_eq {α : Type} {m : EmitM α} {m' : α → EmitM Unit} {e : Emitter}
    {f f' : Option EmissionError} {a : α} {t : String}
    (h : ∀ s, m { e with source := s } = (outcome f a, { e with source := s }))
    (h' : f = none → Writes (m' a) e f' t) : Writes (m >>= m') e (f.or f') t := by
  rcases f with _ | err
  · obtain ⟨w, r, ht, hr, hm⟩ := h' rfl
    refine ⟨w, r, ht, hr, fun s => ?_⟩
    rw [bind_apply, h]
    exact hm s
  · refine ⟨"", t, (String.empty_append).symm, by simp, fun s => ?_⟩
    rw [bind_apply, h, String.append_empty]
    rfl

end Writes

namespace Expr

/-- Emitting the expression as a node writes its text up to its first fault. -/
def NodeWrites (x : Expr) : Prop :=
  ∀ e : Emitter, Writes (nested x.emit) e
    (firstFault e.functions e.options.maxDepth e.depth.toNat [x]) (x.text e.functions e.options)

theorem writes_emitProperty (property : String) (e : Emitter) :
    Writes (emitProperty property) e none (propertyText e.options property) := by
  rw [propertyText_eq]
  unfold emitProperty
  split
  · exact (Writes.write _ e).bind (Writes.write _ e)
  · rw [String.append_assoc]
    exact (Writes.write _ e).bind ((Writes.writeString _ e).bind (Writes.write _ e))

/-- The parts of a list come one after another, and nothing reaches the text. -/
theorem fragments_eq (e : Emitter) : ∀ {items : List Expr}, (∀ c ∈ items, NodeWrites c) →
    fragments items e
      = (outcome (firstFault e.functions e.options.maxDepth e.depth.toNat items)
          (texts e.functions e.options items), e)
  | [], _ => rfl
  | x :: rest, h => by
    have hrest := fragments_eq e fun c hc => h c (List.mem_cons_of_mem x hc)
    unfold fragments
    rw [bind_apply, (h x List.mem_cons_self e).isolated, firstFault_cons _ _ _ x rest, texts]
    rcases firstFault e.functions e.options.maxDepth e.depth.toNat [x] with _ | err
    · simp only [outcome, Option.none_or]
      rw [bind_apply, hrest]
      rcases firstFault e.functions e.options.maxDepth e.depth.toNat rest with _ | err <;> rfl
    · rfl

theorem writes_fragments (e : Emitter) {items : List Expr} (h : ∀ c ∈ items, NodeWrites c)
    (join : List String → String) :
    Writes (fragments items >>= fun parts => write (join parts)) e
      (firstFault e.functions e.options.maxDepth e.depth.toNat items)
      (join (texts e.functions e.options items)) := by
  rw [← Option.or_none (o := firstFault _ _ _ _)]
  exact Writes.bind_of_eq (fun s => fragments_eq { e with source := s } h)
    fun _ => Writes.write _ e

theorem writes_emitEntries (e : Emitter) :
    ∀ (entries : List (String × Expr)) (separator : String),
      (∀ p ∈ entries, NodeWrites p.2) →
      Writes (emitEntries entries separator) e
        (firstFault e.functions e.options.maxDepth e.depth.toNat (entries.map Prod.snd))
        (if entries = [] then ""
          else separator ++ ", ".intercalate (entryTexts e.functions e.options entries))
  | [], separator, _ => by
    unfold emitEntries
    exact Writes.of_eq fun s => by rw [if_pos rfl, String.append_empty]; rfl
  | (key, x) :: rest, separator, h => by
    have hw := (Writes.write separator e).bind ((Writes.writeString key e).bind
      ((Writes.write ": " e).bind ((h (key, x) List.mem_cons_self e).bind
      (writes_emitEntries e rest ", " fun p hp => h p (List.mem_cons_of_mem _ hp)))))
    unfold emitEntries
    rw [if_neg (List.cons_ne_nil _ _), List.map_cons, firstFault_cons _ _ _ x, entryTexts]
    rcases rest with _ | ⟨p, rest⟩
    · simpa [entryTexts, String.append_assoc] using hw
    · rw [entryTexts, String.intercalate_cons_cons, ← entryTexts]
      simpa [String.append_assoc] using hw

/-- One case for each kind: what is written before, between and after the parts. -/
theorem writes_emit (e : Emitter) : ∀ x : Expr, (∀ c ∈ x.children, NodeWrites c) →
    Writes x.emit e ((lookupFault e.functions x).or
      (firstFault e.functions e.options.maxDepth e.depth.toNat x.children))
      (x.text e.functions e.options)
  | .constant v, _ => by
    unfold emit text
    exact Writes.of_eq fun s => by rw [writeLiteral_apply, Literal.append_eq_append_render]
  | .name s, _ => by
    unfold emit text
    exact Writes.write s e
  | .array items, h => by
    unfold emit text
    exact writes_fragments e h fun parts => "[" ++ ", ".intercalate parts ++ "]"
  | .object entries, h => by
    have hw := (Writes.write "\x7b" e).bind ((writes_emitEntries e entries ""
      fun p hp => h p.2 (List.mem_map_of_mem hp)).bind (Writes.write "\x7d" e))
    unfold emit text
    rcases entries with _ | ⟨p, rest⟩
    · simpa [lookupFault, children, entryTexts, String.append_assoc] using hw
    · simpa [lookupFault, children, String.append_assoc] using hw
  | .unary operator operand, h => by
    have hw := (Writes.write ("(" ++ unaryText operator) e).bind
      ((h operand (by simp [children]) e).bind (Writes.write ")" e))
    unfold emit text
    rw [unaryOperator_eq_unaryText]
    simpa [lookupFault, children, String.append_assoc] using hw
  | .binary left operator right, h => by
    have hw := (Writes.write "(" e).bind ((h left (by simp [children]) e).bind
      ((Writes.write (" " ++ binaryText operator ++ " ") e).bind
      ((h right (by simp [children]) e).bind (Writes.write ")" e))))
    unfold emit text
    rw [binaryOperator_eq_binaryText, children, firstFault_cons _ _ _ left]
    simpa [lookupFault, String.append_assoc] using hw
  | .conditional test yes no, h => by
    have hw := (Writes.write "((" e).bind ((h test (by simp [children]) e).bind
      ((Writes.write ") ? (" e).bind ((h yes (by simp [children]) e).bind
      ((Writes.write ") : (" e).bind ((h no (by simp [children]) e).bind
      (Writes.write "))" e))))))
    unfold emit text
    rw [children, firstFault_cons _ _ _ test, firstFault_cons _ _ _ yes]
    simpa [lookupFault, String.append_assoc] using hw
  | .member target property, h => by
    have hw := (h target (by simp [children]) e).bind (writes_emitProperty property e)
    unfold emit text
    simpa [lookupFault, children] using hw
  | .index target key, h => by
    have hw := (h target (by simp [children]) e).bind ((Writes.write "[" e).bind
      ((h key (by simp [children]) e).bind (Writes.write "]" e)))
    unfold emit text
    rw [children, firstFault_cons _ _ _ target]
    simpa [lookupFault, String.append_assoc] using hw
  | .call function arguments, h => by
    unfold emit text
    rw [lookupFault, Dict.contains]
    refine Writes.bind_of_eq (a := (e.functions.get? function).getD .empty) (fun s => ?_) ?_
    · rw [descriptorOf_apply]
      rcases hd : e.functions.get? function with _ | d <;> simp [outcome]
    · intro hf
      rcases hd : e.functions.get? function with _ | d
      · simp [hd] at hf
      · rw [← callee_eq_calleeText hd]
        exact writes_fragments e h fun parts =>
          callee function d ++ "(" ++ ", ".intercalate parts ++ ")"

theorem nodeWrites (x : Expr) : NodeWrites x := by
  induction x using children_induction with
  | h x ih =>
    intro e
    rw [firstFault_singleton]
    refine Writes.nested fun hd => ?_
    have hdepth : (e.depth + 1).toNat = e.depth.toNat + 1 := by
      have := UInt32.lt_iff_toNat_lt.1 hd
      have := e.options.maxDepth.toNat_lt
      rw [UInt32.toNat_add, UInt32.toNat_one, Nat.mod_eq_of_lt (by omega)]
    rw [← hdepth]
    exact writes_emit { e with depth := e.depth + 1 } x ih

theorem fst_nested_emit (x : Expr) (e : Emitter) : (nested x.emit e).1
    = outcome (firstFault e.functions e.options.maxDepth e.depth.toNat [x]) () := by
  obtain ⟨written, rest, -, -, hm⟩ := nodeWrites x e
  exact congrArg Prod.fst (hm e.source)

theorem nested_emit_eq_ok_iff (x : Expr) (e : Emitter) : (nested x.emit e).1 = .ok () ↔
    firstFault e.functions e.options.maxDepth e.depth.toNat [x] = none := by
  rw [fst_nested_emit]
  rcases firstFault e.functions e.options.maxDepth e.depth.toNat [x] with _ | err <;>
    simp [outcome]

theorem snd_nested_emit {x : Expr} {e : Emitter} (h : (nested x.emit e).1 = .ok ()) :
    (nested x.emit e).2 = { e with source := e.source ++ x.text e.functions e.options } := by
  obtain ⟨written, rest, ht, hr, hm⟩ := nodeWrites x e
  rw [ht, hr ((nested_emit_eq_ok_iff x e).1 h), String.append_empty]
  exact congrArg Prod.snd (hm e.source)

theorem eq_text_of_nested_ok {x : Expr} {e : Emitter} {t : String}
    (hok : (nested x.emit e).1 = .ok ()) (ht : (nested x.emit e).2.source = e.source ++ t) :
    t = x.text e.functions e.options := by
  rw [snd_nested_emit hok] at ht
  exact (String.append_right_inj e.source).1 ht.symm

theorem exists_position_of_error {x : Expr} {e : Emitter} {stop : Stop}
    (h : (nested x.emit e).1 = .error stop) : ∃ before p after err,
      x.positions e.depth.toNat = before ++ p :: after
        ∧ (∀ q ∈ before, fault e.functions e.options.maxDepth q = none)
        ∧ fault e.functions e.options.maxDepth p = some err ∧ stop = .error err := by
  rw [fst_nested_emit] at h
  rcases hf : firstFault e.functions e.options.maxDepth e.depth.toNat [x] with _ | err
  · rw [hf] at h
    exact absurd h (by simp [outcome])
  · have hstop : stop = .error err := by simpa [hf, outcome] using h.symm
    rw [firstFault, List.flatMap_singleton] at hf
    obtain ⟨before, p, after, hpos, hp, hbefore⟩ := List.findSome?_eq_some_iff.1 hf
    exact ⟨before, p, after, err, hpos, hbefore, hp, hstop⟩

theorem firstFault_eq_none_iff (functions : FunctionTable) (limit : UInt32) (depth : Nat)
    (x : Expr) : firstFault functions limit depth [x] = none ↔ depth + x.height ≤ limit.toNat
      ∧ ∀ k f arguments, (k, Expr.call f arguments) ∈ x.positions depth →
        functions.contains f = true := by
  rw [firstFault, List.flatMap_singleton, List.findSome?_eq_none_iff, ← forall_positions_lt_iff]
  constructor
  · intro h
    have hlt : ∀ p ∈ x.positions depth, p.1 < limit.toNat := by
      intro p hp
      rcases Nat.lt_or_ge p.1 limit.toNat with hlt | hge
      · exact hlt
      · have hf := h p hp
        rw [fault, if_pos hge] at hf
        exact absurd hf (by simp)
    refine ⟨hlt, fun k f arguments hp => ?_⟩
    have hf := h _ hp
    rw [fault, if_neg (Nat.not_le.2 (hlt _ hp)), lookupFault] at hf
    rcases hc : functions.contains f with _ | _
    · rw [hc] at hf
      exact absurd hf (by simp)
    · rfl
  · rintro ⟨hlt, hc⟩ ⟨k, y⟩ hp
    rw [fault, if_neg (Nat.not_le.2 (hlt _ hp))]
    cases y with
    | call f arguments => rw [lookupFault, if_pos (hc k f arguments hp)]
    | _ => rfl

/-- Emitting an expression succeeds exactly if depth and height stay within the limit and every
function it calls is known, and then adds its text, which has nothing to do with the text before,
the depth or the limit. Otherwise it ends with the fault of the first position that has one. -/
theorem nested_emit_spec (x : Expr) (e : Emitter) :
    ((nested x.emit e).1 = .ok () ↔ e.depth.toNat + x.height ≤ e.options.maxDepth.toNat
        ∧ ∀ k f arguments, (k, Expr.call f arguments) ∈ x.positions e.depth.toNat →
          e.functions.contains f = true)
      ∧ ((nested x.emit e).1 = .ok () →
        (nested x.emit e).2 = { e with source := e.source ++ x.text e.functions e.options })
      ∧ (∀ limit, x.text e.functions (e.options.withMaxDepth limit)
        = x.text e.functions e.options)
      ∧ ∀ stop, (nested x.emit e).1 = .error stop → ∃ before p after err,
        x.positions e.depth.toNat = before ++ p :: after
          ∧ (∀ q ∈ before, fault e.functions e.options.maxDepth q = none)
          ∧ fault e.functions e.options.maxDepth p = some err ∧ stop = .error err := by
  refine ⟨?_, snd_nested_emit, ?_, fun stop => exists_position_of_error⟩
  · rw [nested_emit_eq_ok_iff, firstFault_eq_none_iff]
  · exact fun limit => text_withMaxDepth e.functions e.options limit x

end Expr

end ScriptWriter
