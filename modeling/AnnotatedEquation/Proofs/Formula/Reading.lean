/-
AnnotatedEquation/Proofs/Formula/Reading.lean

What the reader of formulas makes of a construct that stands in front of a
text: one statement for each part of a command, and for each class of
commands.

* `Yields` tells what was read and what follows it, whatever bounds the
  text;
* a text is `Apart` if nothing at its front can belong to a construct that
  stands before it.

Main statements: an argument in braces is read as the formula that its
content is read as (`argument_enclose`), and a construct that is read to its
end leaves the text behind it to be read (`read_cons`).
-/
import AnnotatedEquation.Proofs.Formula.Expression
import AnnotatedEquation.Proofs.Markup.Level

namespace AnnotatedEquation

variable {d : Delimiters} {s rest : Text}

namespace Formula

variable {α : Type} {n : Nat} {c : Char} {name raw : Text} {node : Node} {f g : Formula}

/-- The reader gives `value` and leaves `rest`. -/
def Yields (x : Except Char (Front α n)) (value : α) (rest : Text) : Prop :=
  ∃ h, x = .ok ⟨value, rest, h⟩

/-- The text is empty or begins with a space. -/
def Apart (s : Text) : Prop := ∀ c ∈ s.head?, c = ' '

/-! ### Fronts of one kind of characters -/

theorem takeWhile_append_of_head {p : Char → Bool} (hs : ∀ c ∈ s, p c)
    (hrest : ∀ c ∈ rest.head?, p c = false) : (s ++ rest).takeWhile p = s := by
  rw [List.takeWhile_append_of_pos hs]
  rcases rest with - | ⟨c, rest⟩
  · simp
  · simp [hrest c rfl]

theorem dropWhile_append_of_head {p : Char → Bool} (hs : ∀ c ∈ s, p c)
    (hrest : ∀ c ∈ rest.head?, p c = false) : (s ++ rest).dropWhile p = rest := by
  rw [List.dropWhile_append_of_pos hs]
  rcases rest with - | ⟨c, rest⟩
  · simp
  · simp [hrest c rfl]

theorem commandName_append (hname : ∀ c ∈ name, isLetter c)
    (hrest : ∀ c ∈ rest.head?, isLetter c = false ∧ c ≠ '*') :
    ∃ h, commandName (name ++ rest) = ⟨name, rest, h⟩ := by
  have hletter : ∀ c ∈ rest.head?, isLetter c = false := fun c hc => (hrest c hc).1
  have htake := takeWhile_append_of_head hname hletter
  have hdrop := dropWhile_append_of_head hname hletter
  unfold commandName
  split
  · next t ht =>
    -- no star follows the name
    rw [hdrop] at ht
    exact ((hrest '*' (by simp [ht])).2 rfl).elim
  · simp [htake, hdrop]

theorem isDecimal_of_apart (h : Apart rest) : ∀ c ∈ rest.head?, Text.isDecimal c = false := by
  intro c hc
  rw [h c hc]
  decide

variable {whole decimals : Text}

theorem number_whole (hwhole : ∀ c ∈ whole, Text.isDecimal c) (hrest : Apart rest) :
    ∃ h, number (whole ++ rest) = ⟨whole, rest, h⟩ := by
  have htake := takeWhile_append_of_head hwhole (isDecimal_of_apart hrest)
  have hdrop := dropWhile_append_of_head hwhole (isDecimal_of_apart hrest)
  unfold number
  split
  · next t ht =>
    -- no point follows the digits
    rw [hdrop] at ht
    exact absurd (hrest '.' (by simp [ht])) (by decide)
  · simp [htake, hdrop]

theorem number_decimals (hwhole : ∀ c ∈ whole, Text.isDecimal c)
    (hdecimals : ∀ c ∈ decimals, Text.isDecimal c) (hne : decimals ≠ []) (hrest : Apart rest) :
    ∃ h, number (whole ++ '.' :: (decimals ++ rest)) = ⟨whole ++ '.' :: decimals, rest, h⟩ := by
  have hpoint : ∀ c ∈ ('.' :: (decimals ++ rest)).head?, Text.isDecimal c = false := by
    intro c hc
    obtain rfl : '.' = c := by simpa using hc
    decide
  have htake := takeWhile_append_of_head hwhole hpoint
  have hdrop := dropWhile_append_of_head hwhole hpoint
  have htakeDecimals := takeWhile_append_of_head hdecimals (isDecimal_of_apart hrest)
  have hdropDecimals := dropWhile_append_of_head hdecimals (isDecimal_of_apart hrest)
  unfold number
  split
  · next t ht =>
    obtain rfl : decimals ++ rest = t := by simpa [hdrop] using ht
    refine ⟨by simp only [List.length_append, List.length_cons]; omega, ?_⟩
    simp [htake, htakeDecimals, hdropDecimals, hne]
  · next h => exact (h _ hdrop).elim

/-! ### Levels of delimiters -/

theorem content?_closing (hd : d.opening ≠ d.closing) (hs : d.Closed s) (rest : Text) :
    ∃ h₁ h₂, content? d (s ++ d.closing :: rest) = some ⟨s, rest, h₁, h₂⟩ := by
  have hcontent : d.content? (s ++ d.closing :: rest) = some (s, rest) :=
    (Delimiters.content?_eq_some_iff hd).2 ⟨rfl, hs⟩
  refine ⟨by simp, by simp only [List.length_append, List.length_cons]; omega, ?_⟩
  unfold content?
  split
  · next inside behind h =>
    rw [hcontent, Option.some.injEq, Prod.mk.injEq] at h
    obtain ⟨rfl, rfl⟩ := h
    rfl
  · next h =>
    rw [hcontent] at h
    cases h

theorem first?_cons (hc : Text.isBlank c = false) (s : Text) :
    ∃ h, first? (c :: s) = some ⟨c, s, h⟩ := by
  refine ⟨Nat.lt_succ_self _, ?_⟩
  unfold first?
  split
  · next a t h =>
    rw [Text.trimStart_cons hc, List.cons.injEq] at h
    obtain ⟨rfl, rfl⟩ := h
    rfl
  · next h =>
    rw [Text.trimStart_cons hc] at h
    cases h

theorem enclosed?_enclose (hd : d = .braces ∨ d = .brackets) (hs : d.Closed s) (rest : Text) :
    ∃ h₁ h₂, enclosed? d (d.enclose s ++ rest) = some ⟨s, rest, h₁, h₂⟩ := by
  have hblank : Text.isBlank d.opening = false := by rcases hd with rfl | rfl <;> decide
  have hne : d.opening ≠ d.closing := by rcases hd with rfl | rfl <;> decide
  have htext : d.enclose s ++ rest = d.opening :: (s ++ d.closing :: rest) := by
    simp [Delimiters.enclose]
  rw [htext]
  obtain ⟨hfirst, hfirst'⟩ := first?_cons hblank (s ++ d.closing :: rest)
  obtain ⟨h₁, h₂, hcontent⟩ := content?_closing hne hs rest
  refine ⟨Nat.lt_trans h₁ hfirst, Nat.le_trans h₂ (Nat.le_of_lt hfirst), ?_⟩
  simp [enclosed?, hfirst', hcontent]

theorem enclosed?_cons_of_ne (hblank : Text.isBlank c = false) (hc : c ≠ d.opening) (s : Text) :
    enclosed? d (c :: s) = none := by
  obtain ⟨hfirst, hfirst'⟩ := first?_cons hblank s
  simp [enclosed?, hfirst', hc]

theorem rawGroup_enclose (hs : Delimiters.braces.Closed s) (rest : Text) :
    ∃ h, rawGroup (Delimiters.braces.enclose s ++ rest) = ⟨s, rest, h⟩ := by
  obtain ⟨h₁, h₂, h⟩ := enclosed?_enclose (.inl rfl) hs rest
  exact ⟨h₂, by simp [rawGroup, h]⟩

/-- **An argument in braces is read as its content.** -/
theorem argument_enclose (hs : Delimiters.braces.Closed s) (h : read s = .ok f) :
    Yields (argument (Delimiters.braces.enclose s ++ rest)) f rest := by
  obtain ⟨h₁, h₂, henclosed⟩ := enclosed?_enclose (.inl rfl) hs rest
  refine ⟨h₂, ?_⟩
  rw [argument]
  simp [henclosed, h, bind, Except.bind, pure, Except.pure]

/-! ### Commands -/

section Command

variable {h : rest.length ≤ s.length} {behind last : Text}

theorem command_symbol (hname : commandName s = ⟨name, rest, h⟩) (hne : name ≠ [])
    (hclass : CommandClass.of name = .symbol) : Yields (command s) (.named name) rest := by
  refine ⟨h, ?_⟩
  rw [command, hname]
  simp [hne, hclass]

/-- No name that takes arguments is empty. -/
theorem ne_nil_of_class (hclass : CommandClass.of name ≠ .symbol) : name ≠ [] := by
  rintro rfl
  exact hclass (by decide)

/-- A command of two arguments. -/
theorem command_pair {build : Formula → Formula → Node}
    (hname : commandName s = ⟨name, rest, h⟩)
    (hclass : CommandClass.of name = .fraction ∧ build = .fraction ∨
      CommandClass.of name = .binomial ∧ build = .binomial)
    (htop : Yields (argument rest) f behind) (hbottom : Yields (argument behind) g last) :
    Yields (command s) (build f g) last := by
  obtain ⟨h₁, htop⟩ := htop
  obtain ⟨h₂, hbottom⟩ := hbottom
  refine ⟨Nat.le_trans h₂ (Nat.le_trans h₁ h), ?_⟩
  rw [command, hname]
  rcases hclass with ⟨hclass, rfl⟩ | ⟨hclass, rfl⟩
  all_goals
    have hne : name ≠ [] := ne_nil_of_class (by simp [hclass])
    simp [hne, hclass, htop, hbottom, Front.within, bind, Except.bind, pure, Except.pure]

theorem command_sqrt (hname : commandName s = ⟨name, rest, h⟩)
    (hclass : CommandClass.of name = .root) (hdegree : enclosed? .brackets rest = none)
    (hradicand : Yields (argument rest) f last) : Yields (command s) (.sqrt f) last := by
  have hne : name ≠ [] := ne_nil_of_class (by simp [hclass])
  obtain ⟨h₁, hradicand⟩ := hradicand
  refine ⟨Nat.le_trans h₁ h, ?_⟩
  rw [command, hname]
  simp [hne, hclass, hdegree, hradicand, Front.within, bind, Except.bind, pure, Except.pure]

theorem command_root {h₁ : raw.length < rest.length} {h₂ : behind.length ≤ rest.length}
    (hname : commandName s = ⟨name, rest, h⟩) (hclass : CommandClass.of name = .root)
    (hdegree : enclosed? .brackets rest = some ⟨raw, behind, h₁, h₂⟩) (hraw : read raw = .ok f)
    (hradicand : Yields (argument behind) g last) : Yields (command s) (.root f g) last := by
  have hne : name ≠ [] := ne_nil_of_class (by simp [hclass])
  obtain ⟨h₃, hradicand⟩ := hradicand
  refine ⟨Nat.le_trans h₃ (Nat.le_trans h₂ h), ?_⟩
  rw [command, hname]
  simp [hne, hclass, hdegree, hraw, hradicand, Front.within, bind, Except.bind, pure,
    Except.pure]

theorem command_textColor {h₁ : behind.length ≤ rest.length}
    (hname : commandName s = ⟨name, rest, h⟩) (hclass : CommandClass.of name = .textColor)
    (hcolor : rawGroup rest = ⟨raw, behind, h₁⟩) (hbody : Yields (argument behind) f last) :
    Yields (command s) (.colored raw f) last := by
  have hne : name ≠ [] := ne_nil_of_class (by simp [hclass])
  obtain ⟨h₂, hbody⟩ := hbody
  refine ⟨Nat.le_trans h₂ (Nat.le_trans h₁ h), ?_⟩
  rw [command, hname]
  simp only [hne, hclass, if_false]
  rw [hcolor]
  simp [hbody, Front.within, bind, Except.bind, pure, Except.pure]

theorem command_function (hname : commandName s = ⟨name, rest, h⟩)
    (hclass : CommandClass.of name = .function) (hargument : Yields (argument rest) f last) :
    Yields (command s) (.apply name f) last := by
  have hne : name ≠ [] := ne_nil_of_class (by simp [hclass])
  obtain ⟨h₁, hargument⟩ := hargument
  refine ⟨Nat.le_trans h₁ h, ?_⟩
  rw [command, hname]
  simp [hne, hclass, hargument, Front.within, bind, Except.bind, pure, Except.pure]

end Command

/-! ### Steps -/

theorem step_command (h : Yields (command s) node rest) : Yields (step '\\' s) node rest := by
  obtain ⟨hle, h⟩ := h
  refine ⟨hle, ?_⟩
  rw [step]
  simpa using h

theorem step_group (hs : Delimiters.braces.Closed s) (h : read s = .ok f) :
    Yields (step '{' (s ++ '}' :: rest)) (.group f) rest := by
  obtain ⟨h₁, h₂, hcontent⟩ := content?_closing (d := .braces) (by decide) hs rest
  refine ⟨h₂, ?_⟩
  rw [step]
  simp only [Delimiters.braces] at hcontent ⊢
  simp [hcontent, h, bind, Except.bind, pure, Except.pure]

theorem step_script (hc : c = '^' ∨ c = '_') (h : Yields (argument s) f rest) :
    Yields (step c s) (.script c f) rest := by
  obtain ⟨hle, h⟩ := h
  refine ⟨hle, ?_⟩
  rw [step]
  rcases hc with rfl | rfl <;> simp [h, bind, Except.bind, pure, Except.pure]

theorem step_number {digits : Text} {h : rest.length ≤ s.length} (hc : Text.isDecimal c)
    (hnumber : number s = ⟨digits, rest, h⟩) : Yields (step c s) (.number (c :: digits)) rest := by
  refine ⟨h, ?_⟩
  have hmark : c ∉ markCharacters := not_mark_of_class (by decide) hc
  simp only [markCharacters, List.mem_cons, not_or] at hmark
  rw [step]
  simp [hmark, hc, hnumber]

theorem step_char (c : Ordinary) (s : Text) : Yields (step c.char s) (.char c.char) s := by
  refine ⟨Nat.le_refl _, ?_⟩
  have hmark := c.not_mark
  simp only [markCharacters, List.mem_cons, not_or] at hmark
  rw [step]
  simp [hmark, leaf, c.not_decimal, c.not_odd, Front.of, bind, Except.bind, pure, Except.pure]

/-! ### Whole texts -/

theorem read_blank (hc : Text.isBlank c) (s : Text) : read (c :: s) = read s := by
  rw [read]
  simp [hc]

/-- **A construct that is read to its end leaves the text behind it.** -/
theorem read_cons (hc : Text.isBlank c = false) (h : Yields (step c s) node rest) :
    read (c :: s) = (read rest).map (node :: ·) := by
  obtain ⟨hle, h⟩ := h
  rw [read]
  simp only [hc, h, bind, Except.bind, pure, Except.pure]
  cases read rest <;> rfl

end Formula

end AnnotatedEquation
