/-
AnnotatedEquation/Proofs/Formula/Translation.lean

The reader takes an expression back from its LaTeX notation, so that putting
the notation into Typst notation is a translation along the tree.

Whatever an expression holds, its notation leaves the levels of braces and of
brackets as they were.  So every argument ends where it was written to end,
and an induction over the expression reads all of it.

Main statements: the notation is read as the nodes of the expression
(`Expression.read_latex`), and it is converted to the translation of the
expression (`Expression.convert_latex`).
-/
import AnnotatedEquation.Proofs.Formula.Reading

namespace AnnotatedEquation

variable {d : Delimiters} {s rest : Text}

/-! ### Levels -/

/-- A text between delimiters leaves the levels as they were, also those of
the other kind of delimiters. -/
theorem Delimiters.closed_enclose {d' : Delimiters} (hd : d = braces ∨ d = brackets)
    (hd' : d' = braces ∨ d' = brackets) (h : d.Closed s) : d.Closed (d'.enclose s) := by
  -- the content lies one level further in if the delimiters are of the same kind
  obtain ⟨k, hopen, hclose⟩ : ∃ k, d.level? 0 false [d'.opening] = some (k, false) ∧
      d.level? k false [d'.closing] = some (0, false) := by
    rcases hd with rfl | rfl <;> rcases hd' with rfl | rfl
    · exact ⟨1, by decide, by decide⟩
    · exact ⟨0, by decide, by decide⟩
    · exact ⟨0, by decide, by decide⟩
    · exact ⟨1, by decide, by decide⟩
  rw [Closed, enclose, ← List.singleton_append, level?_append, hopen, Option.bind_some,
    level?_append, h.level?, Option.bind_some, hclose]

namespace Formula

variable {c : Char} {name : Text} {node : Node}

theorem closed_of_plain (hd : d = .braces ∨ d = .brackets) (hs : ∀ c ∈ s, c ∉ markCharacters) :
    d.Closed s := by
  refine Delimiters.level?_of_plain (fun c hc => ?_) 0
  have hmark := hs c hc
  simp only [markCharacters, List.mem_cons, not_or] at hmark
  rcases hd with rfl | rfl <;> simp [Delimiters.braces, Delimiters.brackets, hmark]

theorem closed_command (hd : d = .braces ∨ d = .brackets) (hname : IsName name) :
    d.Closed ('\\' :: name) := by
  obtain ⟨front, last, rfl⟩ := (List.eq_nil_or_concat' name).resolve_left hname.1
  have hmark : ∀ x ∈ '\\' :: front ++ [last], x ≠ d.opening ∧ x ≠ d.closing := by
    intro x hx
    rcases List.mem_cons.1 hx with rfl | hx
    · rcases hd with rfl | rfl <;> decide
    · have hx := not_mark_of_class (by decide) (hname.2 x hx)
      simp only [markCharacters, List.mem_cons, not_or] at hx
      rcases hd with rfl | rfl <;> simp [Delimiters.braces, Delimiters.brackets, hx]
  have hlast : last ≠ '\\' := by
    rintro rfl
    exact absurd (hname.2 '\\' (by simp)) (by decide)
  have hlevel := Delimiters.level?_concat_of_no_delimiter hmark 0 false
  rwa [decide_eq_false hlast] at hlevel

theorem closed_commandText {arguments : List Text} (hd : d = .braces ∨ d = .brackets)
    (hname : IsName name) (h : ∀ a ∈ arguments, d.Closed a) :
    d.Closed (commandText name arguments) := by
  rw [commandText, ← List.cons_append]
  refine (closed_command hd hname).append ?_
  induction arguments with
  | nil => rfl
  | cons a arguments ih =>
    rw [List.flatMap_cons]
    exact (Delimiters.closed_enclose hd (.inl rfl) (h a (by simp))).append
      (ih fun b hb => h b (by simp [hb]))

theorem FractionCommand.mem_reserved (command : FractionCommand) :
    command.name ∈ reservedCommands := by
  simp [reservedCommands, command.mem]

theorem FunctionCommand.mem_reserved (command : FunctionCommand) :
    command.name ∈ reservedCommands := by
  have := List.mem_map_of_mem (f := Prod.fst) command.mem
  simp [reservedCommands, this]

theorem Numeral.closed_text (n : Numeral) (hd : d = .braces ∨ d = .brackets) :
    d.Closed n.text := by
  refine closed_of_plain hd fun c hc => ?_
  have hpoint : '.' ∉ markCharacters := by decide
  rw [Numeral.text] at hc
  split at hc
  · exact not_mark_of_class (by decide) (n.isDecimal_of_mem_whole c hc)
  · rcases List.mem_append.1 hc with hc | hc
    · exact not_mark_of_class (by decide) (n.isDecimal_of_mem_whole c hc)
    · rcases List.mem_cons.1 hc with rfl | hc
      · exact hpoint
      · exact not_mark_of_class (by decide) (n.isDecimal_of_mem_decimals c hc)

theorem HexDigits.closed_text (color : HexDigits) (hd : d = .braces ∨ d = .brackets) :
    d.Closed ('#' :: color.digits) := by
  have hhash : d.Closed ['#'] := by rcases hd with rfl | rfl <;> rfl
  have hdigits : d.Closed color.digits :=
    closed_of_plain hd fun c hc => not_mark_of_class (by decide) (color.isHexDigit_of_mem c hc)
  exact hhash.append hdigits

/-- One construct leaves the levels as they were if its arguments do. -/
theorem Item.closed_latex {item : Item} (hd : d = .braces ∨ d = .brackets)
    (h : ∀ a ∈ item.arguments, d.Closed a.latex) : d.Closed item.latex := by
  cases item with
  | char c => exact closed_of_plain hd (by simpa [latex] using c.not_mark)
  | number n => exact n.closed_text hd
  | symbol command => exact closed_commandText hd command.isName (by simp)
  | group body => exact Delimiters.closed_enclose hd (.inl rfl) (h body (by simp [arguments]))
  | fraction command numerator denominator =>
    refine closed_commandText hd (isName_of_reserved _ command.mem_reserved) ?_
    simpa [arguments] using h
  | binomial top bottom =>
    refine closed_commandText hd (by decide) ?_
    simpa [arguments] using h
  | sqrt radicand =>
    refine closed_commandText hd (by decide) ?_
    simpa [arguments] using h
  | root degree radicand =>
    have hcommand : d.Closed ('\\' :: "sqrt".toList) := closed_command hd (by decide)
    have hdegree := Delimiters.closed_enclose hd (.inr rfl) (h degree (by simp [arguments]))
    have hradicand := Delimiters.closed_enclose hd (.inl rfl) (h radicand (by simp [arguments]))
    exact (hcommand.append hdegree).append hradicand
  | apply command argument =>
    refine closed_commandText hd (isName_of_reserved _ command.mem_reserved) ?_
    simpa [arguments] using h
  | colored color body =>
    refine closed_commandText hd (by decide) ?_
    simpa [arguments] using ⟨color.closed_text hd, h body (by simp [arguments])⟩
  | script mark argument =>
    have hmark : d.Closed [mark.char] := by
      cases mark <;> rcases hd with rfl | rfl <;> rfl
    exact hmark.append (Delimiters.closed_enclose hd (.inl rfl) (h argument (by simp [arguments])))

theorem Expression.closed_latex (hd : d = .braces ∨ d = .brackets) (s : Expression) :
    d.Closed s.latex := by
  induction s using Expression.induction with
  | nil => rfl
  | cons item s hargs ih =>
    have hitem := Item.closed_latex hd hargs
    have hspace : d.Closed [' '] := by rcases hd with rfl | rfl <;> rfl
    rcases s with - | ⟨next, s⟩
    · exact hitem
    · exact hitem.append (hspace.append ih)

/-! ### Reading back -/

theorem class_of_not_reserved (h : name ∉ reservedCommands) :
    CommandClass.of name = .symbol := by
  simp only [reservedCommands, List.mem_append, not_or] at h
  obtain ⟨⟨⟨⟨⟨hfence, hlayout⟩, hfraction⟩, htext⟩, hother⟩, hfunction⟩ := h
  simp only [List.map_cons, List.map_nil, List.mem_cons, not_or] at hother
  obtain ⟨hbinom, hsqrt, hoperator, htextcolor, hcolor, hclass, -⟩ := hother
  have hlookup : functions.lookup name = none := by
    rw [List.lookup_eq_none_iff]
    intro e he
    have hne : e.1 ≠ name := by
      rintro rfl
      exact hfunction (List.mem_map_of_mem he)
    simpa using hne.symm
  rw [CommandClass.of, if_neg hfence, if_neg hlayout, if_neg hfraction, if_neg hbinom,
    if_neg hsqrt, if_neg htext, if_neg hoperator, if_neg htextcolor, if_neg hcolor,
    if_neg hclass, hlookup]
  rfl

theorem FractionCommand.class_eq (command : FractionCommand) :
    CommandClass.of command.name = .fraction := by
  have hall : ∀ name ∈ fractionCommands, CommandClass.of name = .fraction := by decide
  exact hall _ command.mem

theorem FunctionCommand.class_eq (command : FunctionCommand) :
    CommandClass.of command.name = .function := by
  have hall : ∀ e ∈ functions, CommandClass.of e.1 = .function := by decide
  exact hall _ command.mem

theorem isBlank_of_isDecimal (hc : Text.isDecimal c) : Text.isBlank c = false :=
  Text.CodeRanges.has_eq_false_of_apart
    (show Text.CodeRanges.apart Text.decimalRanges Text.blankRanges from by decide) hc

/-- A command that is read to its end, behind a name that ends where the text
`s` begins. -/
theorem read_command (hname : IsName name) (hs : ∀ c ∈ s.head?, isLetter c = false ∧ c ≠ '*')
    (h : ∀ hle, commandName (name ++ s) = ⟨name, s, hle⟩ → Yields (command (name ++ s)) node rest) :
    read ('\\' :: (name ++ s)) = (read rest).map (node :: ·) := by
  obtain ⟨hle, hcommand⟩ := commandName_append hname.2 hs
  exact read_cons (by decide) (step_command (h hle hcommand))

theorem head?_arguments {arguments : List Text} (hrest : Apart rest) :
    ∀ c ∈ (arguments.flatMap Delimiters.braces.enclose ++ rest).head?,
      isLetter c = false ∧ c ≠ '*' := by
  intro c hc
  rcases arguments with - | ⟨a, arguments⟩
  · rw [hrest c hc]
    decide
  · obtain rfl : '{' = c := by simpa [Delimiters.enclose, Delimiters.braces] using hc
    decide

/-- A command with its arguments in braces. -/
theorem read_commandText {arguments : List Text} (hname : IsName name) (hrest : Apart rest)
    (h : ∀ hle, commandName (name ++ (arguments.flatMap Delimiters.braces.enclose ++ rest))
        = ⟨name, arguments.flatMap Delimiters.braces.enclose ++ rest, hle⟩ →
      Yields (command (name ++ (arguments.flatMap Delimiters.braces.enclose ++ rest))) node rest) :
    read (commandText name arguments ++ rest) = (read rest).map (node :: ·) := by
  rw [commandText, List.cons_append, List.append_assoc]
  exact read_command hname (head?_arguments hrest) h

theorem rawGroup_arguments {raw : Text} (hraw : Delimiters.braces.Closed raw)
    (arguments : List Text) (rest : Text) :
    ∃ hle, rawGroup ((raw :: arguments).flatMap Delimiters.braces.enclose ++ rest)
      = ⟨raw, arguments.flatMap Delimiters.braces.enclose ++ rest, hle⟩ := by
  rw [List.flatMap_cons, List.append_assoc]
  exact rawGroup_enclose hraw _

/-- The first of several arguments in braces. -/
theorem argument_latex {a : Expression} (h : read a.latex = .ok a.nodes) (arguments : List Text) :
    Yields (argument ((a.latex :: arguments).flatMap Delimiters.braces.enclose ++ rest)) a.nodes
      (arguments.flatMap Delimiters.braces.enclose ++ rest) := by
  rw [List.flatMap_cons, List.append_assoc]
  exact argument_enclose (a.closed_latex (.inl rfl)) h

theorem Numeral.read_text (n : Numeral) (hrest : Apart rest) :
    read (n.text ++ rest) = (read rest).map (.number n.text :: ·) := by
  obtain ⟨c, digits, hwhole⟩ := List.exists_cons_of_ne_nil n.whole_ne_nil
  have hdecimal := n.isDecimal_of_mem_whole
  rw [hwhole] at hdecimal
  have hc : Text.isDecimal c := hdecimal c (by simp)
  have hdigits : ∀ x ∈ digits, Text.isDecimal x := fun x hx => hdecimal x (by simp [hx])
  rw [Numeral.text, hwhole]
  split
  · obtain ⟨hle, hnumber⟩ := number_whole hdigits hrest
    exact read_cons (isBlank_of_isDecimal hc) (step_number hc hnumber)
  · next hne =>
    obtain ⟨hle, hnumber⟩ := number_decimals hdigits n.isDecimal_of_mem_decimals hne hrest
    simp only [List.cons_append, List.append_assoc] at hnumber ⊢
    exact read_cons (isBlank_of_isDecimal hc) (step_number hc hnumber)

/-- **An item is read as its node**, if its arguments are read as theirs; what
stands behind it is left to be read. -/
theorem Item.read_latex {item : Item} (h : ∀ a ∈ item.arguments, read a.latex = .ok a.nodes)
    (hrest : Apart rest) : read (item.latex ++ rest) = (read rest).map (item.node :: ·) := by
  cases item with
  | char c => exact read_cons c.not_blank (step_char c rest)
  | number n => exact n.read_text hrest
  | symbol command =>
    refine read_commandText command.isName hrest fun hle hcommand => ?_
    exact command_symbol hcommand command.isName.1 (class_of_not_reserved command.not_reserved)
  | group body =>
    have hbody := h body (by simp [arguments])
    have htext : (group body).latex ++ rest = '{' :: (Expression.latex body ++ '}' :: rest) := by
      simp [latex, Delimiters.enclose, Delimiters.braces]
    rw [htext]
    exact read_cons (by decide) (step_group (Expression.closed_latex (.inl rfl) body) hbody)
  | fraction command numerator denominator =>
    have hnumerator := h numerator (by simp [arguments])
    have hdenominator := h denominator (by simp [arguments])
    refine read_commandText (isName_of_reserved _ command.mem_reserved) hrest
      fun hle hcommand => ?_
    exact command_pair hcommand (.inl ⟨command.class_eq, rfl⟩) (argument_latex hnumerator _)
      (argument_latex hdenominator [])
  | binomial top bottom =>
    have htop := h top (by simp [arguments])
    have hbottom := h bottom (by simp [arguments])
    refine read_commandText (by decide) hrest fun hle hcommand => ?_
    exact command_pair hcommand (.inr ⟨by decide, rfl⟩) (argument_latex htop _)
      (argument_latex hbottom [])
  | sqrt radicand =>
    have hradicand := h radicand (by simp [arguments])
    refine read_commandText (by decide) hrest fun hle hcommand => ?_
    exact command_sqrt hcommand (by decide) (enclosed?_cons_of_ne (by decide) (by decide) _)
      (argument_latex hradicand [])
  | root degree radicand =>
    have hdegree := h degree (by simp [arguments])
    have hradicand := h radicand (by simp [arguments])
    have htext : (root degree radicand).latex ++ rest
        = '\\' :: ("sqrt".toList ++ (Delimiters.brackets.enclose (Expression.latex degree)
          ++ ([Expression.latex radicand].flatMap Delimiters.braces.enclose ++ rest))) := by
      simp [latex]
    rw [htext]
    obtain ⟨h₁, h₂, henclosed⟩ := enclosed?_enclose (d := .brackets) (.inr rfl)
      (Expression.closed_latex (.inr rfl) degree)
      ([Expression.latex radicand].flatMap Delimiters.braces.enclose ++ rest)
    refine read_command (by decide) ?_ fun hle hcommand => ?_
    · intro c hc
      obtain rfl : '[' = c := by simpa [Delimiters.enclose, Delimiters.brackets] using hc
      decide
    · exact command_root hcommand (by decide) henclosed hdegree (argument_latex hradicand [])
  | apply command argument =>
    have hargument := h argument (by simp [arguments])
    refine read_commandText (isName_of_reserved _ command.mem_reserved) hrest
      fun hle hcommand => ?_
    exact command_function hcommand command.class_eq (argument_latex hargument [])
  | colored color body =>
    have hbody := h body (by simp [arguments])
    obtain ⟨hle₁, hcolor⟩ := rawGroup_arguments (color.closed_text (.inl rfl))
      [Expression.latex body] rest
    refine read_commandText (by decide) hrest fun hle hcommand => ?_
    exact command_textColor hcommand (by decide) hcolor (argument_latex hbody [])
  | script mark argument =>
    have hargument := h argument (by simp [arguments])
    have hmark : mark.char = '^' ∨ mark.char = '_' := by cases mark <;> decide
    refine read_cons (by cases mark <;> decide) (step_script hmark ?_)
    exact argument_enclose (Expression.closed_latex (.inl rfl) argument) hargument

/-- **The notation of an expression is read as its nodes.** -/
theorem Expression.read_latex (s : Expression) : read s.latex = .ok s.nodes := by
  induction s using Expression.induction with
  | nil => rw [Expression.latex, read, Expression.nodes]
  | cons item s hargs ih =>
    rcases s with - | ⟨next, s⟩
    · have hitem : read (item.latex ++ []) = _ := Item.read_latex hargs (by simp [Apart])
      rw [List.append_nil] at hitem
      rw [Expression.latex, hitem, read]
      rfl
    · have hitem : read (item.latex ++ ' ' :: Expression.latex (next :: s)) = _ :=
        Item.read_latex hargs (by simp [Apart])
      rw [Expression.latex, hitem, read_blank (by decide), ih]
      rfl

/-- **Putting the LaTeX notation of an expression into Typst notation is the
translation of the expression**, at any depth and for any items. -/
theorem Expression.convert_latex (s : Expression) : convert s.latex = .ok s.typst := by
  rw [convert, s.read_latex, ← s.toTypst_nodes]
  rfl

/-- An expression with a script behind a group, a fraction with a sum, a call
of a function, a color, and an empty group. -/
def mixedExpression : Expression :=
  let plus : Item := .char ⟨'+', by decide, by decide, by decide, by decide⟩
  let two : Item := .number ⟨['2'], [], by decide, by decide, by decide⟩
  let alpha : Item := .symbol ⟨"alpha".toList, by decide, by decide⟩
  [.group [alpha, plus, two], .script .superscript [two],
   .fraction ⟨"frac".toList, by decide⟩ [two] [alpha, plus, two],
   .apply ⟨"vec".toList, "arrow".toList, by decide⟩ [alpha],
   .colored ⟨"abc".toList, by decide⟩ [.group [], .binomial [two] [alpha]]]

/-- A script applies to all of the group before it, the sum is one operand of
the fraction, and nothing is left of the empty group. -/
theorem typst_mixedExpression :
    mixedExpression.latex =
        ("\x7b\\alpha + 2\x7d ^\x7b2\x7d \\frac\x7b2\x7d\x7b\\alpha + 2\x7d \\vec\x7b\\alpha\x7d "
          ++ "\\textcolor\x7b#abc\x7d\x7b\x7b\x7d \\binom\x7b2\x7d\x7b\\alpha\x7d\x7d").toList ∧
      mixedExpression.typst =
        ("(alpha + 2)^2 2/(alpha + 2) arrow(alpha) "
          ++ "#text(fill: rgb(\"#abc\"))[$binom(2, alpha)$]").toList := by
  decide +kernel

end Formula

end AnnotatedEquation
