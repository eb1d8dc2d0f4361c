/-
AnnotatedEquation/Proofs/Formula/Skeleton.lean

The marks that a formula is written with in Typst notation, told along the
tree.

* `Formula.skeleton` are the parentheses, commas and ends of blocks of a
  formula, those that it has itself and those that are written around its
  arguments;
* a node is safe (`Node.IsSafe`) if it is no stray quote, and no color that
  leaves a string open or ends the math.

A closing delimiter is no mark if what stands before it dangles: a formula that
ends in a backslash takes the delimiter behind it for literal.

Main statement: reading the Typst notation of a formula with safe nodes finds
its skeleton, and leaves no string open (`writes_toTypst`).
-/
import AnnotatedEquation.Proofs.Formula.Lexical
import AnnotatedEquation.Proofs.Formula.Outcome
import AnnotatedEquation.Proofs.Text.Occurrence

namespace AnnotatedEquation

open Lexical

namespace Formula

variable {s t u : Text} {c : Char} {ms ns : List MathToken} {f : Formula} {node : Node}

/-! ### Safe nodes -/

/-- The written color leaves no string open, holds no dollar sign to be read
and ends in no backslash. -/
def IsSafeColor (color : Text) : Prop :=
  (∀ t ∈ tokens .plain (colorExpression color), ¬ t.IsDollar) ∧
    after .plain (colorExpression color) ∈ [Mode.plain, .call, .content]

instance (color : Text) : Decidable (IsSafeColor color) := inferInstanceAs (Decidable (_ ∧ _))

/-- The node is no stray quote, and no color that is written unsafely. -/
def Node.IsSafe : Node → Prop
  | .symbol c => c ≠ some '"'
  | .colored color _ => IsSafeColor color
  | _ => True

instance : DecidablePred Node.IsSafe
  | .symbol c => inferInstanceAs (Decidable (c ≠ some '"'))
  | .colored color _ => inferInstanceAs (Decidable (IsSafeColor color))
  | .char _ | .number _ | .group _ | .script _ _ | .prime | .fraction _ _ | .binomial _ _ | .sqrt _
  | .root _ _ | .text _ | .operator _ | .classed _ | .apply _ _ | .named _ | .layout =>
    inferInstanceAs (Decidable True)

/-- All nodes of the formula are safe. -/
def Safe (f : Formula) : Prop := ∀ p ∈ places f, p.node.IsSafe

instance : DecidablePred Safe := fun f => inferInstanceAs (Decidable (∀ p ∈ places f, _))

theorem safe_cons :
    Safe (node :: f) ↔ node.IsSafe ∧ (∀ a ∈ node.arguments, Safe a) ∧ Safe f :=
  forall_mem_places_cons

/-! ### Skeletons -/

/-- The marks of an item between parentheses. -/
def enclosedMarks (t : Text) (ms : List MathToken) : List MathToken :=
  .char '(' :: (ms ++ closeBehind t ')')

/-- The marks of an item as one operand. -/
def operandMarks (t : Text) (ms : List MathToken) : List MathToken :=
  if isOperand t then [] else enclosedMarks t ms

/-- The marks of two items between parentheses. -/
def pairMarks (t : Text) (ms : List MathToken) (u : Text) (ns : List MathToken) : List MathToken :=
  .char '(' :: (ms ++ closeBehind t ',' ++ (ns ++ closeBehind u ')'))

/-- The marks of an item in a colored block. -/
def blockMarks (color t : Text) (ms : List MathToken) : List MathToken :=
  .char '(' :: (marks (colorExpression color) ++
    .char ')' :: .opening :: (ms ++ if Dangles t then [] else [.closing]))

mutual

/-- The marks that a node is written with; `scripted` tells that a script or a
prime follows. -/
def Node.skeleton (scripted : Bool) : Node → List MathToken
  | .char c => marks (plainChar c)
  | .symbol c => marks (charSymbol c)
  | .group body =>
    if scripted ∧ toTypst body ≠ [] then operandMarks (toTypst body) (skeleton body)
    else skeleton body
  | .script _ argument => operandMarks (toTypst argument) (skeleton argument)
  | .fraction numerator denominator =>
    operandMarks (toTypst numerator) (skeleton numerator)
      ++ operandMarks (toTypst denominator) (skeleton denominator)
  | .binomial top bottom =>
    pairMarks (toTypst top) (skeleton top) (toTypst bottom) (skeleton bottom)
  | .sqrt radicand => enclosedMarks (toTypst radicand) (skeleton radicand)
  | .root degree radicand =>
    pairMarks (toTypst degree) (skeleton degree) (toTypst radicand) (skeleton radicand)
  | .operator _ => [.char '(', .char ')']
  | .colored color body => blockMarks color (toTypst body) (skeleton body)
  | .classed body => skeleton body
  | .apply _ argument => enclosedMarks (toTypst argument) (skeleton argument)
  | .number _ | .prime | .text _ | .named _ | .layout => []

/-- The marks that a formula is written with. -/
def skeleton : Formula → List MathToken
  | [] => []
  | node :: s => node.skeleton (scriptFollows s) ++ skeleton s

end

/-! ### Characters, names and operands -/

theorem isNeutral_of_class {p : Char → Bool}
    (hp : ∀ m ∈ ['\\', '"', '$', '(', ')', ',', '['], p m = false) (hc : p c) : IsNeutral c := by
  intro hm
  rw [hp c hm] at hc
  cases hc

theorem writes_plainChar (hc : c ≠ '\\') : Writes (plainChar c) (marks (plainChar c)) := by
  refine ⟨rfl, ?_⟩
  rw [plainChar]
  split
  · exact .inl rfl
  · next hmark =>
    simp only [List.mem_cons, not_or] at hmark
    by_cases hparen : c = ')'
    · simp [hparen, after, Mode.read, readPlain, Mode.IsSettled]
    · simp [after, Mode.read, readPlain, Mode.IsSettled, hc, hmark, hparen]

theorem settled_of_charSymbols :
    ∀ e ∈ charSymbols, after .plain e.2 = .plain := by decide

theorem writes_charSymbol {c : Option Char} (hc : c ≠ some '"') :
    Writes (charSymbol c) (marks (charSymbol c)) := by
  refine ⟨rfl, ?_⟩
  rcases c with - | c
  · exact .inl rfl
  have hquote : c ≠ '"' := fun h => hc (congrArg some h)
  rcases h : charSymbols.lookup c with - | name
  · have hdollar : c ≠ '$' := by
      rintro rfl
      exact absurd h (by decide)
    rw [charSymbol, h, Option.getD_none]
    by_cases hbackslash : c = '\\'
    · simp [hbackslash, after, Mode.read, readPlain, Mode.IsSettled]
    by_cases hparen : c = ')'
    · simp [hparen, after, Mode.read, readPlain, Mode.IsSettled]
    · simp [after, Mode.read, readPlain, Mode.IsSettled, hquote, hdollar, hbackslash, hparen]
  · rw [charSymbol, h, Option.getD_some]
    obtain ⟨_, _, hsplit, -⟩ := List.lookup_eq_some_iff.1 h
    exact .inl (settled_of_charSymbols (c, name) (by simp [hsplit]))

/-- A name in a table of neutral names, or a command of letters. -/
theorem isNeutral_getD_lookup {table : List (Text × Text)} {command : Text}
    (htable : ∀ e ∈ table, ∀ c ∈ e.2, IsNeutral c) (hcommand : ∀ c ∈ command, isLetter c) :
    ∀ c ∈ (table.lookup command).getD command, IsNeutral c := by
  rcases h : table.lookup command with - | name
  · exact fun c hc => isNeutral_of_class (by decide) (hcommand c hc)
  · obtain ⟨_, _, hsplit, -⟩ := List.lookup_eq_some_iff.1 h
    exact htable (command, name) (by simp [hsplit])

theorem isNeutral_of_symbolName {command : Text} (h : ∀ c ∈ command, isLetter c) :
    ∀ c ∈ symbolName command, IsNeutral c :=
  isNeutral_getD_lookup (by decide) h

theorem isNeutral_of_functionName {command : Text} (h : ∀ c ∈ command, isLetter c) :
    ∀ c ∈ functionName command, IsNeutral c :=
  isNeutral_getD_lookup (by decide) h

theorem isNeutral_of_isNameChar (hc : isNameChar c) : IsNeutral c :=
  isNeutral_of_class (by decide +kernel) hc

/-- A text without quotes does not leave the string that it stands in. -/
theorem after_quoted_of_not_mem (m : Mode) (hm : m = .quoted ∨ m = .quotedEscaped)
    (hs : '"' ∉ s) :
    (after m s = .quoted ∨ after m s = .quotedEscaped) ∧ tokens m s = [] := by
  induction s generalizing m with
  | nil => exact ⟨hm, rfl⟩
  | cons c s ih =>
    obtain ⟨hc, hs⟩ := not_or.1 (fun h => hs (List.mem_cons.2 h))
    have hread : ((m.read c).2 = .quoted ∨ (m.read c).2 = .quotedEscaped) ∧ (m.read c).1 = [] := by
      rcases hm with rfl | rfl
      · by_cases hbackslash : c = '\\' <;> simp [Mode.read, hbackslash, Ne.symm hc]
      · simp [Mode.read]
    rw [after, tokens, hread.2]
    exact ih _ hread.1 hs

/-- A text that is an operand by itself is a word, or a string and nothing
else. -/
theorem operand_cases (ht : (after .plain t).IsSettled) (h : isOperand t) :
    (t ≠ [] ∧ ∀ c ∈ t, isNameChar c) ∨ tokens .plain t = [.quoted] ∧ after .plain t = .plain := by
  rw [isOperand.eq_def, Bool.or_eq_true] at h
  rcases h with h | h
  · exact .inl (by simpa using h)
  · right
    rcases t with - | ⟨c, s⟩
    · cases h
    by_cases hc : c = '"'
    · subst hc
      have hdrop : s.dropWhile (· ≠ '"') = ['"'] := by simpa using h
      have hbody : '"' ∉ s.takeWhile (· ≠ '"') := by
        intro hmem
        simpa using List.mem_takeWhile_imp hmem
      have hs : s = s.takeWhile (· ≠ '"') ++ ['"'] := by
        rw [← hdrop, List.takeWhile_append_dropWhile]
      have hquoted : after .plain ('"' :: s) = after .quoted s ∧
          tokens .plain ('"' :: s) = tokens .quoted s := ⟨rfl, rfl⟩
      obtain ⟨hmode, htokens⟩ := after_quoted_of_not_mem .quoted (.inl rfl) hbody
      rw [hquoted.1, hs, after_append] at ht
      rw [hquoted.1, hquoted.2, hs, tokens_append, after_append, htokens]
      rcases hmode with hmode | hmode
      · rw [hmode]
        exact ⟨rfl, rfl⟩
      · -- the last quote would be literal, and the string open
        rw [hmode] at ht
        simp [after, Mode.read, Mode.IsSettled] at ht
    · simp [hc] at h

/-- A text that is an operand by itself has no marks. -/
theorem marks_of_isOperand (ht : Writes t ms) (h : isOperand t) : ms = [] := by
  rw [← ht.marks_eq]
  rcases operand_cases ht.settled h with ⟨-, hword⟩ | ⟨hquoted, -⟩
  · exact marks_of_neutral fun c hc => isNeutral_of_isNameChar (hword c hc)
  · rw [marks, hquoted]
    rfl

theorem operandMarks_of_isOperand (ht : Writes t ms) (h : isOperand t) :
    operandMarks t ms = ms := by
  rw [operandMarks, if_pos h, marks_of_isOperand ht h]

theorem writes_operand (ht : Writes t ms) : Writes (operand t) (operandMarks t ms) := by
  by_cases h : isOperand t
  · rw [operandMarks_of_isOperand ht h, operand, if_pos h]
    exact ht
  · rw [operandMarks, operand, if_neg h, if_neg h]
    exact ht.enclose

/-! ### Calls and blocks -/

theorem writes_call (hname : ∀ c ∈ s, IsNeutral c) (ht : Writes t ms) :
    Writes (call s [t]) (enclosedMarks t ms) := by
  have hcall : call s [t] = s ++ '(' :: (t ++ [')']) := by simp [call, Text.joinWith]
  rw [hcall]
  exact (writes_of_neutral hname).append (after_of_neutral hname) ht.enclose

theorem writes_call_pair (hname : ∀ c ∈ s, IsNeutral c) (ht : Writes t ms) (hu : Writes u ns) :
    Writes (call s [t, u]) (pairMarks t ms u ns) := by
  have hcall : call s [t, u] = s ++ '(' :: (t ++ ',' :: ' ' :: (u ++ [')'])) := by
    simp [call, Text.joinWith]
  rw [hcall]
  exact (writes_of_neutral hname).append (after_of_neutral hname) (ht.enclose_pair hu)

/-- What stands before the color of a block. -/
def blockCall : Text := "#text(fill: ".toList

/-- What stands between the color of a block and its content. -/
def blockOpening : Text := ")[$".toList

/-- What stands behind the content of a block. -/
def blockEnd : Text := "$]".toList

/-- What stands before the content of a colored block. -/
def blockStart (color : Text) : Text := blockCall ++ colorExpression color ++ blockOpening

theorem after_blockCall : after .plain blockCall = .plain ∧ marks blockCall = [.char '('] := by
  decide

theorem after_blockOpening :
    ∀ m ∈ [Mode.plain, .call, .content], after m blockOpening = .plain ∧
      (tokens m blockOpening).filter MathToken.isMark = [.char ')', .opening] := by
  decide

/-- A dangling item makes the dollar sign behind it literal. -/
theorem after_blockEnd :
    ∀ m ∈ [Mode.plain, .call, .escaped], after m blockEnd = .plain ∧
      (tokens m blockEnd).filter MathToken.isMark = if m = .escaped then [] else [.closing] := by
  decide

/-- The content of a colored block is read anew. -/
theorem writes_blockStart {color : Text} (hcolor : IsSafeColor color) :
    Writes (blockStart color)
        (.char '(' :: (marks (colorExpression color) ++ [.char ')', .opening])) ∧
      after .plain (blockStart color) = .plain := by
  obtain ⟨hcall, hcallMarks⟩ := after_blockCall
  obtain ⟨hend, hendMarks⟩ := after_blockOpening _ hcolor.2
  have hplain : after .plain (blockStart color) = .plain := by
    rw [blockStart, after_append, after_append, hcall, hend]
  refine ⟨⟨?_, .inl hplain⟩, hplain⟩
  rw [blockStart, marks_append, marks_append, after_append, hcall, hcallMarks, hendMarks, marks,
    List.singleton_append, List.cons_append]

theorem writes_concat_blockEnd (hs : Writes s ms) :
    Writes (s ++ blockEnd) (ms ++ if Dangles s then [] else [.closing]) := by
  obtain ⟨hafter, hmarks⟩ := after_blockEnd (after .plain s)
    (by simpa [Mode.IsSettled] using hs.settled)
  constructor
  · rw [marks_append, hs.marks_eq, hmarks]
    rfl
  · rw [after_append, hafter]
    exact .inl rfl

theorem writes_block {color : Text} (hcolor : IsSafeColor color) (ht : Writes t ms) :
    Writes (blockStart color ++ t ++ blockEnd) (blockMarks color t ms) := by
  obtain ⟨hstart, hplain⟩ := writes_blockStart hcolor
  have hdangles : Dangles (blockStart color ++ t) ↔ Dangles t := by
    rw [Dangles, Dangles, after_append, hplain]
  have := writes_concat_blockEnd (hstart.append hplain ht)
  simpa [blockMarks, hdangles] using this

/-! ### Items -/

/-- Every item begins and ends as it should. -/
def AllSettled (items : List Text) : Prop := ∀ t ∈ items, (after .plain t).IsSettled

theorem writes_joinWith {items : List Text} (h : AllSettled items) :
    Writes (Text.joinWith [' '] items) (items.flatMap marks) := by
  induction items with
  | nil => exact writes_nil
  | cons t items ih =>
    have ht : Writes t (marks t) := ⟨rfl, h t (by simp)⟩
    have hitems := ih fun u hu => h u (by simp [hu])
    rcases items with - | ⟨u, items⟩
    · simpa [Text.joinWith] using ht
    · rw [Text.joinWith_cons_cons, List.append_assoc, List.flatMap_cons]
      exact ht.append_separator (by decide) hitems

/-- Items with spaces between them have the marks of the items. -/
theorem writes_spaced {items : List Text} (h : AllSettled items) :
    Writes (spaced items) (items.flatMap marks) := by
  have hfilter : (items.filter (· ≠ [])).flatMap marks = items.flatMap marks := by
    clear h
    induction items with
    | nil => rfl
    | cons t items ih =>
      rw [List.filter_cons, List.flatMap_cons]
      split
      · rw [List.flatMap_cons, ih]
      · next ht =>
        obtain rfl : t = [] := by simpa using ht
        exact ih
  rw [← hfilter]
  exact writes_joinWith fun t ht => h t (List.mem_filter.1 ht).1

/-- A node put behind an item leaves that item's marks, and adds its own. -/
def Adds (current : Option Text) (ms : List MathToken) (result : List Text × Option Text) : Prop :=
  AllSettled (result.1 ++ result.2.toList) ∧
    (result.1 ++ result.2.toList).flatMap marks = current.toList.flatMap marks ++ ms

variable {current : Option Text}

theorem adds_behind (hcurrent : AllSettled current.toList) (ht : Writes t ms) :
    Adds current ms (behind current t) := by
  refine ⟨fun u hu => ?_, by simp [behind, ht.marks_eq]⟩
  rcases List.mem_append.1 hu with hu | hu
  · exact hcurrent u hu
  · obtain rfl : u = t := by simpa [behind] using hu
    exact ht.settled

theorem put_adds (hsafe : node.IsSafe) (hlegible : node.IsLegible)
    (hargs : ∀ a ∈ node.arguments, Writes (toTypst a) (skeleton a))
    (hcurrent : AllSettled current.toList) (scripted : Bool) :
    Adds current (node.skeleton scripted) (put scripted current node) := by
  cases node with
  | char c => exact adds_behind hcurrent (writes_plainChar hlegible)
  | number digits =>
    refine adds_behind hcurrent (writes_of_neutral fun c hc => ?_)
    rcases hlegible c hc with hc | rfl
    · exact isNeutral_of_class (by decide) hc
    · decide
  | group body =>
    have hbody := hargs body (by simp [Node.arguments])
    refine adds_behind hcurrent ?_
    rw [Node.skeleton]
    show Writes (if scripted ∧ toTypst body ≠ [] then operand (toTypst body) else toTypst body) _
    split
    · exact writes_operand hbody
    · exact hbody
  | script mark argument =>
    have hargument := writes_operand (hargs argument (by simp [Node.arguments]))
    have hmark : IsNeutral mark := by rcases hlegible with rfl | rfl <;> decide
    have hbase : Writes (current.getD ['"', '"']) (current.toList.flatMap marks) := by
      rcases current with - | t
      · exact ⟨rfl, .inl rfl⟩
      · exact ⟨by simp, hcurrent t (by simp)⟩
    have hitem := hbase.append_separator hmark hargument
    have hput : put scripted current (.script mark argument)
        = ([], some (current.getD ['"', '"'] ++ mark :: operand (toTypst argument))) := by
      simp [put, toTypst]
    rw [hput, Node.skeleton]
    exact ⟨by simpa [AllSettled] using hitem.settled, by simpa using hitem.marks_eq⟩
  | prime =>
    have hbase : Writes (current.getD []) (current.toList.flatMap marks) := by
      rcases current with - | t
      · exact writes_nil
      · exact ⟨by simp, hcurrent t (by simp)⟩
    have hitem := (hbase.concat (c := '\'') (by decide)).1
    exact ⟨by simpa [AllSettled, put] using hitem.settled,
      by simpa [put, Node.skeleton] using hitem.marks_eq⟩
  | symbol c => exact adds_behind hcurrent (writes_charSymbol hsafe)
  | fraction numerator denominator =>
    have hnumerator := writes_operand (hargs numerator (by simp [Node.arguments]))
    have hdenominator := writes_operand (hargs denominator (by simp [Node.arguments]))
    have := adds_behind hcurrent (hnumerator.append_separator (c := '/') (by decide) hdenominator)
    simpa [put, Node.skeleton, toTypst] using this
  | binomial top bottom =>
    exact adds_behind hcurrent (writes_call_pair (by decide) (hargs top (by simp [Node.arguments]))
      (hargs bottom (by simp [Node.arguments])))
  | sqrt radicand =>
    exact adds_behind hcurrent (writes_call (by decide) (hargs radicand (by simp [Node.arguments])))
  | root degree radicand =>
    exact adds_behind hcurrent (writes_call_pair (by decide)
      (hargs degree (by simp [Node.arguments])) (hargs radicand (by simp [Node.arguments])))
  | text raw => exact adds_behind hcurrent (writes_quotedText raw)
  | operator raw =>
    have hraw : closeBehind (quotedText raw) ')' = [.char ')'] := by
      simp [closeBehind, Dangles, (tokens_quotedText raw).2]
    have hcall := writes_call (s := "op".toList) (by decide) (writes_quotedText raw)
    rw [enclosedMarks, hraw] at hcall
    exact adds_behind hcurrent hcall
  | colored color body =>
    exact adds_behind hcurrent (writes_block hsafe (hargs body (by simp [Node.arguments])))
  | classed body => exact adds_behind hcurrent (hargs body (by simp [Node.arguments]))
  | apply command argument =>
    exact adds_behind hcurrent (writes_call (isNeutral_of_functionName hlegible)
      (hargs argument (by simp [Node.arguments])))
  | named command =>
    exact adds_behind hcurrent (writes_of_neutral (isNeutral_of_symbolName hlegible))
  | layout => exact ⟨by simpa [put] using hcurrent, by simp [put, Node.skeleton]⟩

theorem items_writes (hsafe : Safe f) (hlegible : Legible f)
    (hcurrent : AllSettled current.toList) :
    AllSettled (items current f) ∧
      (items current f).flatMap marks = current.toList.flatMap marks ++ skeleton f := by
  induction f using Formula.induction generalizing current with
  | nil => exact ⟨hcurrent, by simp [items, skeleton]⟩
  | cons node s hargs ih =>
    obtain ⟨hnode, hsafeArgs, hsafe⟩ := safe_cons.1 hsafe
    obtain ⟨hnode', hlegibleArgs, hlegible⟩ := legible_cons.1 hlegible
    have hwrites : ∀ a ∈ node.arguments, Writes (toTypst a) (skeleton a) := by
      intro a ha
      obtain ⟨hsettled, hmarks⟩ :=
        @hargs a ha none (hsafeArgs a ha) (hlegibleArgs a ha) (by simp [AllSettled])
      have := writes_spaced hsettled
      rwa [hmarks] at this
    obtain ⟨hsettled, hmarks⟩ := put_adds hnode hnode' hwrites hcurrent (scriptFollows s)
    rw [items, skeleton]
    rcases hput : put (scriptFollows s) current node with ⟨finished, next⟩
    rw [hput] at hsettled hmarks
    simp only [List.flatMap_append] at hmarks ⊢
    obtain ⟨hrest, hrestMarks⟩ :=
      ih hsafe hlegible fun t ht => hsettled t (List.mem_append_right _ ht)
    refine ⟨fun t ht => ?_, ?_⟩
    · rcases List.mem_append.1 ht with ht | ht
      · exact hsettled t (List.mem_append_left _ ht)
      · exact hrest t ht
    · rw [hrestMarks, ← List.append_assoc, hmarks, List.append_assoc]

/-- **Reading a formula in Typst notation finds its skeleton.** -/
theorem writes_toTypst (hsafe : Safe f) (hlegible : Legible f) :
    Writes (toTypst f) (skeleton f) := by
  have hnone : AllSettled (none : Option Text).toList := by simp [AllSettled]
  obtain ⟨hsettled, hmarks⟩ := items_writes hsafe hlegible hnone
  have := writes_spaced hsettled
  rwa [hmarks] at this

/-- The induction over a formula with safe nodes, where reading the arguments of
a node finds their skeletons. -/
theorem safe_induction {motive : Formula → Prop} (hsafe : Safe f) (hlegible : Legible f)
    (nil : motive [])
    (cons : ∀ (node : Node) (s : Formula), node.IsSafe →
      (∀ a ∈ node.arguments, Writes (toTypst a) (skeleton a) ∧ motive a) → motive s →
        motive (node :: s)) : motive f := by
  induction f using Formula.induction with
  | nil => exact nil
  | cons node s hargs ih =>
    obtain ⟨hnode, hsafeArgs, hsafe⟩ := safe_cons.1 hsafe
    obtain ⟨-, hlegibleArgs, hlegible⟩ := legible_cons.1 hlegible
    refine cons node s hnode (fun a ha => ?_) (ih hsafe hlegible)
    exact ⟨writes_toTypst (hsafeArgs a ha) (hlegibleArgs a ha),
      hargs a ha (hsafeArgs a ha) (hlegibleArgs a ha)⟩

/-! ### Dollar signs among the marks -/

theorem no_dollar_singleton (c : Char) : ∀ t ∈ tokens .plain [c], ¬ t.IsDollar := by
  intro t ht
  obtain rfl : t = .char c := by
    simp only [tokens, Mode.read, readPlain, List.append_nil] at ht
    split_ifs at ht <;> simp_all
  simp [MathToken.IsDollar]

theorem no_dollar_plainChar (c : Char) : ∀ t ∈ marks (plainChar c), ¬ t.IsDollar := by
  intro t ht
  replace ht := (List.mem_filter.1 ht).1
  rw [plainChar] at ht
  split at ht
  · obtain rfl : t = .literal := by simpa [tokens, Mode.read, readPlain] using ht
    decide
  · exact no_dollar_singleton c t ht

theorem no_dollar_charSymbols :
    ∀ e ∈ charSymbols, ∀ t ∈ tokens .plain e.2, ¬ t.IsDollar := by decide

theorem no_dollar_charSymbol (c : Option Char) : ∀ t ∈ marks (charSymbol c), ¬ t.IsDollar := by
  intro t ht
  replace ht := (List.mem_filter.1 ht).1
  rcases c with - | c
  · cases ht
  rcases h : charSymbols.lookup c with - | name
  · rw [charSymbol, h, Option.getD_none] at ht
    exact no_dollar_singleton c t ht
  · rw [charSymbol, h, Option.getD_some] at ht
    obtain ⟨_, _, hsplit, -⟩ := List.lookup_eq_some_iff.1 h
    exact no_dollar_charSymbols (c, name) (by simp [hsplit]) t ht

theorem no_dollar_closeBehind (t : Text) (c : Char) : ∀ u ∈ closeBehind t c, ¬ u.IsDollar := by
  intro u hu
  rw [closeBehind] at hu
  split at hu
  · cases hu
  · obtain rfl : u = .char c := by simpa using hu
    simp [MathToken.IsDollar]

end Formula

end AnnotatedEquation
