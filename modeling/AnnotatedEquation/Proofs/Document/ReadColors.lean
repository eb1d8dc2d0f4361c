/-
AnnotatedEquation/Proofs/Document/ReadColors.lean

The colors that a document declares, read back from its text.

* `Latex.definedColors` are the colors that the commands of a text define, and
  `Latex.preamble` is the part of a document in front of its body;
* `Html.rootBlock?` is the first block of the style sheet of a page, and
  `Html.declarations` are the properties that a block declares, cut at the
  semicolons and the colons.

Main statements: what is read is what was declared exactly if the names of
the terms can stand where they are written: names without special characters
in the commands (`Latex.definedColors_preamble_iff`), and names that need no
escape in a style sheet (`Html.termProperties_layout_iff`).
-/
import AnnotatedEquation.Proofs.Document.Template
import AnnotatedEquation.Proofs.Escape.Latex
import AnnotatedEquation.Text.Blank

namespace AnnotatedEquation

open Text (Bars)

variable {s u v rest name model value term color title : Text} {colors : Entries Text}

/-! ### Commands that define colors -/

namespace Latex

/-- What the definition of a color begins with. -/
def definitionStart : Text := "\\definecolor\x7b".toList

/-- The characters that are no mere letters to LaTeX where a name is read:
those of commands, groups, comments, parameters, ties and codes, and the end
of a line. -/
def special : List Char := ['\\', '{', '}', '%', '#', '~', '^', '\n']

/-- The name of a color can stand in a command as it is. -/
def IsColorName (name : Text) : Prop := ∀ c ∈ name, c ∉ special

instance (name : Text) : Decidable (IsColorName name) := inferInstanceAs (Decidable (∀ _ ∈ name, _))

theorem IsColorName.not_mem (h : IsColorName name) {c : Char} (hc : c ∈ special) : c ∉ name :=
  fun hin => h c hin hc

theorem isColorName_append : IsColorName (u ++ v) ↔ IsColorName u ∧ IsColorName v :=
  List.forall_mem_append

/-- The definition of a color at the front of a text: the name, the model and
the value, with what follows. -/
def definedColor? (s : Text) : Option ((Text × Text × Text) × Text) := do
  let (name, s) ← Text.cutAt? ['}'] (← Text.after? definitionStart s)
  let (model, s) ← Text.cutAt? ['}'] (← Text.after? ['{'] s)
  let (value, s) ← Text.cutAt? ['}'] (← Text.after? ['{'] s)
  if IsColorName name then some ((name, model, value), s) else none

theorem definedColor?_eq_some_iff :
    definedColor? s = some ((name, model, value), rest) ↔
      s = definitionStart ++ (name ++ '}' :: '{' :: (model ++ '}' :: '{' :: (value ++ '}' :: rest))) ∧
        IsColorName name ∧ '}' ∉ model ∧ '}' ∉ value := by
  simp only [definedColor?, Option.bind_eq_bind, Option.bind_eq_some_iff, Prod.exists,
    Text.after?_eq_some_iff, Text.cutAt?_singleton_eq_some_iff]
  constructor
  · rintro ⟨_, rfl, name', _, ⟨rfl, -⟩, _, rfl, model', _, ⟨rfl, hmodel⟩, _, rfl, value', _,
      ⟨rfl, hvalue⟩, h⟩
    split at h
    · next hname =>
      simp only [Option.some.injEq, Prod.mk.injEq] at h
      obtain ⟨⟨rfl, rfl, rfl⟩, rfl⟩ := h
      exact ⟨rfl, hname, hmodel, hvalue⟩
    · cases h
  · rintro ⟨rfl, hname, hmodel, hvalue⟩
    have hclose : '}' ∉ name := hname.not_mem (by decide)
    exact ⟨_, rfl, _, _, ⟨rfl, hclose⟩, _, rfl, _, _, ⟨rfl, hmodel⟩, _, rfl, _, _, ⟨rfl, hvalue⟩,
      if_pos hname⟩

theorem length_definedColor? {found : Text × Text × Text} (h : definedColor? s = some (found, rest)) :
    rest.length < s.length := by
  obtain ⟨name, model, value⟩ := found
  obtain ⟨rfl, -⟩ := definedColor?_eq_some_iff.1 h
  simp only [List.length_append, List.length_cons]
  omega

/-- The colors that the commands of a text define, from left to right. -/
def definedColors : Text → List (Text × Text × Text)
  | [] => []
  | c :: s =>
    match _h : definedColor? (c :: s) with
    | some (found, rest) => found :: definedColors rest
    | none => definedColors s
termination_by s => s.length
decreasing_by
  · exact length_definedColor? _h
  · simp

@[simp] theorem definedColors_nil : definedColors [] = [] := by rw [definedColors]

theorem definedColors_of_some {found : Text × Text × Text}
    (h : definedColor? s = some (found, rest)) : definedColors s = found :: definedColors rest := by
  cases s with
  | nil => exact absurd (length_definedColor? h) (by simp)
  | cons c s =>
    rw [definedColors]
    split <;> simp_all

theorem definedColors_cons {c : Char} (h : definedColor? (c :: s) = none) :
    definedColors (c :: s) = definedColors s := by
  rw [definedColors]
  split <;> simp_all

/-- The names that are read can stand in a command. -/
theorem isColorName_of_mem_definedColors {found : Text × Text × Text} (h : found ∈ definedColors s) :
    IsColorName found.1 := by
  fun_induction definedColors s with
  | case1 => cases h
  | case2 c s first rest hfirst ih =>
    rcases List.mem_cons.1 h with rfl | h
    · obtain ⟨name, model, value⟩ := found
      exact (definedColor?_eq_some_iff.1 hfirst).2.1
    · exact ih h
  | case3 c s hnone ih => exact ih h

/-- A stretch of text in which no definition begins defines nothing. -/
theorem definedColors_append_of_bars (h : Bars definitionStart u) :
    definedColors (u ++ v) = definedColors v := by
  induction u with
  | nil => rfl
  | cons c u ih =>
    have hnone : definedColor? (c :: (u ++ v)) = none := by
      rw [Option.eq_none_iff_forall_ne_some]
      rintro ⟨⟨name, model, value⟩, rest⟩ hsome
      have hs := (definedColor?_eq_some_iff.1 hsome).1
      exact h.not_prefix_append (List.cons_ne_nil c u) ⟨_, hs.symm⟩
    rw [List.cons_append, definedColors_cons hnone, ih (h.of_suffix (List.suffix_cons c u))]

/-- How the color of a term is defined: under its name, by its digits. -/
def definedAs (e : Text × Text) : Text × Text × Text :=
  ("term".toList ++ e.1, "HTML".toList, hexDigits e.2)

theorem isColorName_definedAs {e : Text × Text} : IsColorName (definedAs e).1 ↔ IsColorName e.1 := by
  have hterm : IsColorName "term".toList := by decide
  rw [definedAs, isColorName_append, and_iff_right hterm]

/-- The digits of a color hold none of the characters of a command. -/
theorem not_mem_hexDigits (h : isHexColor color) {c : Char} (hc : c ∈ ['\\', '}']) :
    c ∉ hexDigits color := by
  have hletters : ∀ d ∈ colorLetters, ∀ c ∈ ['\\', '}'], c ∉ Text.upperChar d := by decide
  intro hin
  obtain ⟨d, hd, hupper⟩ := List.mem_flatMap.1 hin
  have hdrop : d ∈ color.dropWhile (· = '#') := by
    split at hd
    · obtain ⟨x, hx, hpair⟩ := List.mem_flatMap.1 hd
      obtain rfl : d = x := by simpa using hpair
      exact hx
    · exact hd
  have hcolor : d ∈ color := (List.dropWhile_suffix _).mem hdrop
  exact hletters d (mem_colorLetters_of_isHexColor h d hcolor) c hc hupper

theorem definedColors_definition (hname : IsColorName term) (hcolor : isHexColor color) (v : Text) :
    definedColors (definition term color ++ v) = definedAs (term, color) :: definedColors v := by
  have hassoc : ∀ a b d e : Text,
      (a ++ b) ++ term ++ ('}' :: '{' :: (d ++ ['}', '{'])) ++ e ++ ['}'] ++ v =
        a ++ ((b ++ term) ++ '}' :: '{' :: (d ++ '}' :: '{' :: (e ++ '}' :: v))) := by
    intro a b d e
    simp only [List.append_assoc, List.cons_append, List.nil_append]
  exact definedColors_of_some (definedColor?_eq_some_iff.2
    ⟨hassoc definitionStart "term".toList "HTML".toList (hexDigits color),
      isColorName_definedAs.2 hname, by decide, not_mem_hexDigits hcolor (by decide)⟩)

/-- The definitions of the colors of some terms are read one after the
other. -/
theorem definedColors_definitions (hnames : ∀ e ∈ colors, IsColorName e.1)
    (hcolors : ∀ e ∈ colors, isHexColor e.2) (v : Text) :
    definedColors (Text.unlines (colors.map fun e => definition e.1 e.2) ++ v) =
      colors.map definedAs ++ definedColors v := by
  induction colors with
  | nil => rfl
  | cons e colors ih =>
    obtain ⟨hname, hnames⟩ := List.forall_mem_cons.1 hnames
    obtain ⟨hcolor, hcolors⟩ := List.forall_mem_cons.1 hcolors
    have hnewline : Bars definitionStart ['\n'] := by decide
    have hskip : ∀ s, definedColors ('\n' :: s) = definedColors s := fun s =>
      definedColors_append_of_bars hnewline
    rw [List.map_cons, Text.unlines_cons, List.append_assoc, definedColors_definition hname hcolor,
      List.cons_append, hskip, ih hnames hcolors]
    rfl

/-! ### Preambles -/

/-- The part of a document in front of its body. -/
def preamble (text : Text) : Text := ((Text.cutAt? bodyStart text).map Prod.fst).getD text

/-- What every block begins with, the body among them. -/
def blockStart : Text := "\\begin\x7b".toList

theorem preamble_append (h : Bars blockStart u) (v : Text) : preamble (u ++ (bodyStart ++ v)) = u := by
  have hstart : blockStart <+: bodyStart := by decide
  rw [preamble, Text.cutAt?_append_of_bars (by decide) (h.of_isPrefix hstart)]
  rfl

/-- No block begins in the definition of a color. -/
theorem bars_definition (hname : IsColorName term) (hcolor : isHexColor color) :
    Bars blockStart (definition term color) := by
  have hstart : Bars blockStart "\\definecolor\x7bterm".toList := by decide
  have hbetween : Bars blockStart "\x7d\x7bHTML\x7d\x7b".toList := by decide
  have hclose : Bars blockStart ['}'] := by decide
  have hterm : Bars blockStart term := Text.bars_of_not_mem rfl (hname.not_mem (by decide))
  have hdigits : Bars blockStart (hexDigits color) :=
    Text.bars_of_not_mem rfl (not_mem_hexDigits hcolor (by decide))
  exact (((hstart.append hterm).append hbetween).append hdigits).append hclose

/-- The title is escaped, so that neither a block nor a definition begins in
it. -/
theorem bars_titleLines {p : Text} (hp : p ∈ [blockStart, definitionStart]) :
    ∀ line ∈ titleLines (escape title), Bars p line := by
  have hfixed : ∀ p ∈ [blockStart, definitionStart], p.head? = some '\\' ∧
      Bars p "\\title\x7b".toList ∧ Bars p ['}'] ∧ Bars p "\\date\x7b\x7d".toList ∧
      (∀ c ∈ reserved, Bars p (token c)) ∧ Bars p ['\\', '$'] := by decide
  obtain ⟨hhead, hstart, hclose, hdate, htokens, hdollar⟩ := hfixed p hp
  have htitle : Bars p (escape title) := bars_escape hhead htokens hdollar title
  simp only [titleLines, List.forall_mem_cons]
  exact ⟨Text.bars_nil, (hstart.append htitle).append hclose, hdate, Text.bars_nil,
    List.forall_mem_nil _⟩

/-- **The colors that a preamble defines are those of its terms, each once and
in their order, exactly if all of the names can stand in a command.** -/
theorem definedColors_preamble_iff {head : List Text}
    (hhead : ∀ line ∈ head, ∀ p ∈ [blockStart, definitionStart], Bars p line)
    (hcolors : ∀ e ∈ colors, isHexColor e.2) (title : Text) (body : List Text) :
    definedColors (preamble (Text.unlines ((head ++ colors.map (fun e => definition e.1 e.2)
        ++ titleLines (escape title)) ++ bodyStart :: body))) = colors.map definedAs ↔
      ∀ e ∈ colors, IsColorName e.1 := by
  constructor
  · intro h e he
    exact isColorName_definedAs.1
      (isColorName_of_mem_definedColors (h ▸ List.mem_map_of_mem he))
  · intro hnames
    have hnewline : ∀ p ∈ [blockStart, definitionStart], Bars p ['\n'] := by decide
    have hfront : ∀ p ∈ [blockStart, definitionStart], Bars p (Text.unlines head) := fun p hp =>
      Text.bars_unlines (hnewline p hp) fun line hline => hhead line hline p hp
    have htitle : ∀ p ∈ [blockStart, definitionStart],
        Bars p (Text.unlines (titleLines (escape title))) := fun p hp =>
      Text.bars_unlines (hnewline p hp) (bars_titleLines hp)
    have hdefinitions : Bars blockStart (Text.unlines (colors.map fun e => definition e.1 e.2)) := by
      refine Text.bars_unlines (by decide) fun line hline => ?_
      obtain ⟨e, he, rfl⟩ := List.mem_map.1 hline
      exact bars_definition (hnames e he) (hcolors e he)
    have hstart : blockStart ∈ [blockStart, definitionStart] := List.mem_cons_self
    have hcommand : definitionStart ∈ [blockStart, definitionStart] := by decide
    have hpreamble := ((hfront _ hstart).append hdefinitions).append (htitle _ hstart)
    have hnothing : definedColors (Text.unlines (titleLines (escape title))) = [] := by
      have h := definedColors_append_of_bars (v := []) (htitle _ hcommand)
      rwa [List.append_nil, definedColors_nil] at h
    rw [Text.unlines_append, Text.unlines_append, Text.unlines_append, Text.unlines_cons,
      preamble_append hpreamble, List.append_assoc,
      definedColors_append_of_bars (hfront _ hcommand),
      definedColors_definitions hnames hcolors, hnothing, List.append_nil]

/-- The colors that the article defines. -/
theorem definedColors_layout_iff (hcolors : ∀ e ∈ colors, isHexColor e.2)
    (title equation description : Text) (definitions : Entries Text) :
    definedColors (preamble (Text.unlines (layout (escape title)
        (colors.map fun e => definition e.1 e.2) equation description definitions))) =
        colors.map definedAs ↔ ∀ e ∈ colors, IsColorName e.1 :=
  definedColors_preamble_iff (by decide) hcolors title _

end Latex

namespace Beamer

/-- The colors that the slides define. -/
theorem definedColors_layout_iff (hcolors : ∀ e ∈ colors, isHexColor e.2)
    (title latex description : Text) (frames : List (List Text)) :
    Latex.definedColors (Latex.preamble (Text.unlines (layout (Latex.escape title)
        (colors.map fun e => Latex.definition e.1 e.2) latex description frames))) =
        colors.map Latex.definedAs ↔ ∀ e ∈ colors, Latex.IsColorName e.1 :=
  Latex.definedColors_preamble_iff (by decide) hcolors title _

end Beamer

/-! ### Properties of a style sheet -/

namespace Html

/-- A character of a name in a style sheet that needs no escape. -/
def isNameChar (c : Char) : Bool := c.isAlphanum || c = '-' || c = '_' || 0x80 ≤ c.toNat

/-- The text can stand in a name of a style sheet as it is. -/
def IsName (name : Text) : Prop := ∀ c ∈ name, isNameChar c

instance (name : Text) : Decidable (IsName name) := inferInstanceAs (Decidable (∀ _ ∈ name, _))

/-- White space of a style sheet. -/
def isSpace (c : Char) : Bool := c ∈ [' ', '\t', '\n', '\r', '\x0c']

/-- What the first block of the style sheet of a page holds. -/
def rootBlock? (text : Text) : Option Text := do
  let (_, sheet) ← Text.cutAt? "<style>".toList text
  let (_, rules) ← Text.cutAt? ['{'] sheet
  let (block, _) ← Text.cutAt? ['}'] rules
  some block

/-- A property and its value, if there is a colon behind a name. -/
def declaration? (piece : Text) : Option (Text × Text) := do
  let (name, value) ← Text.cutAt? [':'] (piece.dropWhile isSpace)
  if IsName name then some (name, value.dropWhile isSpace) else none

/-- The properties that a block declares.  A declaration ends at a
semicolon. -/
def declarations (block : Text) : Entries Text := (block.splitOn ';').filterMap declaration?

/-- What the properties of the terms begin with. -/
def propertyStart : Text := "--term-".toList

/-- The properties of terms that a page declares, with their values. -/
def termProperties (text : Text) : Entries Text :=
  (((rootBlock? text).map declarations).getD []).filter (propertyStart <+: ·.1)

/-- How the color of a term is declared: under its name, as it is. -/
def declaredAs (e : Text × Text) : Text × Text := (propertyStart ++ e.1, e.2)

/-! ### Names -/

theorem ne_of_isNameChar {c d : Char} (hc : isNameChar c) (hd : isNameChar d = false) : c ≠ d := by
  rintro rfl
  exact absurd (hc.symm.trans hd) (by decide)

theorem IsName.not_mem (h : IsName name) {d : Char} (hd : isNameChar d = false) : d ∉ name :=
  fun hin => ne_of_isNameChar (h d hin) hd rfl

theorem isName_append : IsName (u ++ v) ↔ IsName u ∧ IsName v := List.forall_mem_append

theorem isName_declaredAs {e : Text × Text} : IsName (declaredAs e).1 ↔ IsName e.1 := by
  have hstart : IsName propertyStart := by decide
  rw [declaredAs, isName_append, and_iff_right hstart]

/-- A name needs no entities. -/
theorem escapeSlot_of_isName (h : IsName name) : escapeSlot name = name := by
  have hletter : ∀ c ∈ name, entity numberedQuote c = [c] := by
    intro c hc
    have hne : ∀ d, isNameChar d = false → c ≠ d := fun d => ne_of_isNameChar (h c hc)
    rw [entity, if_neg (hne '&' rfl), if_neg (hne '<' rfl), if_neg (hne '>' rfl), numberedQuote,
      if_neg (hne '"' rfl), if_neg (hne '\'' rfl)]
  calc escapeSlot name
      = name.flatMap fun c => [c] := List.flatMap_congr hletter
    _ = name := List.flatMap_singleton' name

/-- The names that are read need no escape. -/
theorem isName_of_mem_declarations {e : Text × Text} (h : e ∈ declarations s) : IsName e.1 := by
  obtain ⟨piece, -, hpiece⟩ := List.mem_filterMap.1 h
  simp only [declaration?, Option.bind_eq_bind, Option.bind_eq_some_iff, Prod.exists] at hpiece
  obtain ⟨name, value, -, hread⟩ := hpiece
  split at hread
  · next hname =>
    obtain rfl := Option.some.inj hread
    exact hname
  · cases hread

theorem isName_of_mem_termProperties {e : Text × Text} (h : e ∈ termProperties s) : IsName e.1 := by
  have hmem := (List.mem_filter.1 h).1
  cases hblock : rootBlock? s with
  | none => simp [hblock] at hmem
  | some block =>
    rw [hblock] at hmem
    exact isName_of_mem_declarations hmem

/-! ### Reading a block -/

/-- A declaration is read up to its semicolon. -/
theorem declarations_declaration {indent : Text} (hindent : ∀ c ∈ indent, isSpace c)
    (hname : IsName name) (hne : name ≠ []) (hvalue : ';' ∉ value)
    (hstart : ∀ c ∈ value.head?, isSpace c = false) (v : Text) :
    declarations (indent ++ (name ++ ':' :: ' ' :: value) ++ ';' :: v) =
      (name, value) :: declarations v := by
  have hpiece : ';' ∉ indent ++ (name ++ ':' :: ' ' :: value) := by
    have hsemicolon : ';' ∉ indent := fun h => absurd (hindent _ h) (by decide)
    have hletters : ';' ∉ name := hname.not_mem rfl
    simp [hsemicolon, hletters, hvalue]
  have hfront : (indent ++ (name ++ ':' :: ' ' :: value)).dropWhile isSpace =
      name ++ ':' :: ' ' :: value := by
    obtain ⟨c, name, rfl⟩ := List.exists_cons_of_ne_nil hne
    have hc : isSpace c = false := by
      have hspaces : ∀ d ∈ [' ', '\t', '\n', '\r', '\x0c'], isNameChar d = false := by decide
      rw [isSpace, decide_eq_false_iff_not]
      exact fun hin => absurd (hname c List.mem_cons_self) (by simp [hspaces c hin])
    rw [List.dropWhile_append_of_pos hindent, List.cons_append,
      List.dropWhile_cons_of_neg (by simp [hc])]
  have hback : (' ' :: value).dropWhile isSpace = value := by
    rw [List.dropWhile_cons_of_pos (by decide)]
    cases value with
    | nil => rfl
    | cons c value => exact List.dropWhile_cons_of_neg (by simp [hstart c rfl])
  have hcut : Text.cutAt? [':'] (name ++ ':' :: ' ' :: value) = some (name, ' ' :: value) :=
    Text.cutAt?_singleton_eq_some_iff.2 ⟨rfl, hname.not_mem rfl⟩
  have hread : declaration? (indent ++ (name ++ ':' :: ' ' :: value)) = some (name, value) := by
    simp only [declaration?, hfront, hcut, Option.bind_eq_bind, Option.bind_some, if_pos hname, hback]
  rw [declarations, List.splitOn_append_cons_self_of_not_mem hpiece, List.filterMap_cons_some hread,
    declarations]

/-- A property that is read back from its line: its name needs no escape, and
its value is a color or the like. -/
def IsReadable (e : Text × Text) : Prop :=
  IsName e.1 ∧ e.1 ≠ [] ∧ (∀ c ∈ e.2, c ≠ ';' ∧ c ≠ '}') ∧ e.2.head? = some '#'

instance (e : Text × Text) : Decidable (IsReadable e) := inferInstanceAs (Decidable (_ ∧ _))

/-- The line of a property. -/
def declarationLine (e : Text × Text) : Text :=
  "      ".toList ++ e.1 ++ [':', ' '] ++ e.2 ++ [';']

/-- The properties of a block are read one after the other. -/
theorem declarations_lines {entries : Entries Text} (h : ∀ e ∈ entries, IsReadable e) (v : Text) :
    declarations ('\n' :: (Text.unlines (entries.map declarationLine) ++ v)) =
      entries ++ declarations ('\n' :: v) := by
  induction entries with
  | nil => rfl
  | cons e entries ih =>
    obtain ⟨⟨hname, hne, hvalue, hhash⟩, h⟩ := List.forall_mem_cons.1 h
    have hspaces : ∀ c ∈ "\n      ".toList, isSpace c := by decide
    have hsemicolon : ';' ∉ e.2 := fun hin => (hvalue _ hin).1 rfl
    have hstart : ∀ c ∈ e.2.head?, isSpace c = false := by
      rw [hhash]
      rintro c ⟨⟩
      rfl
    have hassoc : ∀ a w : Text, '\n' :: (a ++ e.1 ++ [':', ' '] ++ e.2 ++ [';'] ++ '\n' :: w) =
        ('\n' :: a) ++ (e.1 ++ ':' :: ' ' :: e.2) ++ ';' :: '\n' :: w := by
      intro a w
      simp only [List.append_assoc, List.cons_append, List.nil_append]
    have hline : ∀ w, '\n' :: (declarationLine e ++ '\n' :: w) =
        "\n      ".toList ++ (e.1 ++ ':' :: ' ' :: e.2) ++ ';' :: '\n' :: w := hassoc _
    rw [List.map_cons, Text.unlines_cons, List.append_assoc, List.cons_append, hline,
      declarations_declaration hspaces hname hne hsemicolon hstart, ih h]
    rfl

theorem not_brace_mem_lines {entries : Entries Text} (h : ∀ e ∈ entries, IsReadable e) :
    '}' ∉ Text.unlines (entries.map declarationLine) := by
  have hfixed : '}' ∉ "      ".toList ∧ '}' ∉ [':', ' '] ∧ '}' ∉ [';'] ∧ '}' ∉ ['\n'] := by decide
  intro hin
  obtain ⟨line, hline, hc⟩ := List.mem_flatMap.1 hin
  obtain ⟨e, he, rfl⟩ := List.mem_map.1 hline
  obtain ⟨hname, -, hvalue, -⟩ := h e he
  have hletters : '}' ∉ e.1 := hname.not_mem rfl
  have hdigits : '}' ∉ e.2 := fun h => (hvalue _ h).2 rfl
  refine absurd hc ?_
  unfold declarationLine
  simp only [List.mem_append, not_or]
  exact ⟨⟨⟨⟨⟨hfixed.1, hletters⟩, hfixed.2.1⟩, hdigits⟩, hfixed.2.2.1⟩, hfixed.2.2.2⟩

/-! ### Pages -/

/-- The properties of the page that are of no term. -/
def rootEntries : Entries Text :=
  [("--bg-color".toList, "#ffffff".toList), ("--text-color".toList, "#1f2937".toList),
   ("--border-color".toList, "#d1d5db".toList)]

theorem head?_of_isHexColor (h : isHexColor color) : color.head? = some '#' := by
  rw [isHexColor.eq_def] at h
  split at h
  · rfl
  · cases h

theorem isReadable_declaredAs {e : Text × Text} (hname : IsName e.1) (hcolor : isHexColor e.2) :
    IsReadable (declaredAs e) := by
  have hletters : ∀ c ∈ colorLetters, c ≠ ';' ∧ c ≠ '}' := by decide
  exact ⟨isName_declaredAs.2 hname, List.append_ne_nil_of_left_ne_nil (by decide) _,
    fun c hc => hletters c (mem_colorLetters_of_isHexColor hcolor c hc), head?_of_isHexColor hcolor⟩

theorem isReadable_entries (hnames : ∀ e ∈ colors, IsName e.1) (hcolors : ∀ e ∈ colors, isHexColor e.2) :
    ∀ e ∈ rootEntries ++ colors.map declaredAs, IsReadable e := by
  refine List.forall_mem_append.2 ⟨by decide, fun _ he => ?_⟩
  obtain ⟨e, hin, rfl⟩ := List.mem_map.1 he
  exact isReadable_declaredAs (hnames e hin) (hcolors e hin)

theorem property_eq_declarationLine {e : Text × Text} (hname : IsName e.1) :
    property e.1 e.2 = declarationLine (declaredAs e) := by
  have hassoc : ∀ u v : Text,
      (u ++ v) ++ e.1 ++ [':', ' '] ++ e.2 ++ [';'] = u ++ (v ++ e.1) ++ [':', ' '] ++ e.2 ++ [';'] := by
    intro u v
    simp only [List.append_assoc]
  unfold property
  rw [escapeSlot_of_isName hname]
  exact hassoc "      ".toList propertyStart

theorem not_lt_mem_escapeSlot (s : Text) : '<' ∉ escapeSlot s := by
  intro hin
  obtain ⟨c, -, hc⟩ := List.mem_flatMap.1 hin
  refine absurd hc ?_
  unfold entity numberedQuote
  split_ifs with _ hlt
  · decide
  · decide
  · decide
  · decide
  · decide
  · exact fun h => hlt (List.mem_singleton.1 h).symm

set_option maxRecDepth 5000 in
/-- No style sheet begins in the head of a page. -/
theorem bars_headLines (title : Text) : ∀ line ∈ headLines title, Bars "<style>".toList line := by
  have htitle : Bars "<style>".toList ("  <title>".toList ++ escapeSlot title ++ "</title>".toList) := by
    have hstart : Bars "<style>".toList "  <title>".toList := by decide
    have hend : Bars "<style>".toList "</title>".toList := by decide
    exact (hstart.append (Text.bars_of_not_mem rfl (not_lt_mem_escapeSlot title))).append hend
  simp only [headLines, List.forall_mem_cons]
  refine ⟨?_, ?_, ?_, ?_, ?_, htitle, ?_, ?_, List.forall_mem_nil _⟩
  all_goals decide

theorem rootBlock?_append {block w : Text} (hu : Bars "<style>".toList u) (hw : '{' ∉ w)
    (hblock : '}' ∉ block) (v : Text) :
    rootBlock? (u ++ ("<style>".toList ++ (w ++ '{' :: (block ++ '}' :: v)))) = some block := by
  have hsheet : Text.cutAt? ['{'] (w ++ '{' :: (block ++ '}' :: v)) = some (w, block ++ '}' :: v) :=
    Text.cutAt?_singleton_eq_some_iff.2 ⟨rfl, hw⟩
  have hrules : Text.cutAt? ['}'] (block ++ '}' :: v) = some (block, v) :=
    Text.cutAt?_singleton_eq_some_iff.2 ⟨rfl, hblock⟩
  simp only [rootBlock?, Text.cutAt?_append_of_bars (by decide) hu, hsheet, hrules,
    Option.bind_eq_bind, Option.bind_some]

/-- The lines of the first block of a page. -/
def propertyLines (colors : Entries Text) : List Text :=
  rootEntries.map declarationLine ++ colors.map fun e => property e.1 e.2

theorem propertyLines_eq (hnames : ∀ e ∈ colors, IsName e.1) :
    propertyLines colors = (rootEntries ++ colors.map declaredAs).map declarationLine := by
  have hproperties : colors.map (fun e => property e.1 e.2) =
      (colors.map declaredAs).map declarationLine := by
    rw [List.map_map]
    exact List.map_congr_left fun e he => property_eq_declarationLine (hnames e he)
  rw [propertyLines, hproperties, ← List.map_append]

/-- The page with its first block in sight. -/
theorem unlines_layout (title : Text) (colors : Entries Text) (equation description : Text)
    (definitions : Entries Text) :
    ∃ v, Text.unlines (layout title colors equation description definitions) =
      (Text.unlines (headLines title) ++ "  ".toList) ++ ("<style>".toList
        ++ ("\n    :root ".toList ++ '{' ::
          (('\n' :: (Text.unlines (propertyLines colors) ++ "    ".toList)) ++ '}' :: v))) := by
  have hlines : ∀ head properties rules r p f d t s : List Text,
      head ++ rootLines ++ properties ++ (rules ++ r ++ p ++ f ++ d ++ t ++ s) =
        head ++ (["  <style>".toList, "    :root \x7b".toList]
          ++ (rootEntries.map declarationLine ++ properties ++ (rules ++ (r ++ p ++ f ++ d ++ t ++ s)))) := by
    have hroot : rootLines = ["  <style>".toList, "    :root \x7b".toList]
        ++ rootEntries.map declarationLine := rfl
    intros
    rw [hroot]
    simp only [List.append_assoc]
  have hopen : ∀ lines, Text.unlines (["  <style>".toList, "    :root \x7b".toList] ++ lines) =
      "  ".toList ++ ("<style>".toList ++ ("\n    :root ".toList ++ '{' :: '\n' :: Text.unlines lines)) :=
    fun _ => rfl
  -- the block ends where the fixed rules begin
  have hclose : ∀ lines, Text.unlines (styleRules ++ lines) =
      "    ".toList ++ '}' :: '\n' :: Text.unlines (styleRules.tail ++ lines) := fun _ => rfl
  have hassoc : ∀ a b c d e f g : Text,
      a ++ (b ++ (c ++ (d ++ '{' :: '\n' :: (e ++ (f ++ '}' :: g))))) =
        (a ++ b) ++ (c ++ (d ++ '{' :: (('\n' :: (e ++ f)) ++ '}' :: g))) := by
    intros
    simp only [List.append_assoc, List.cons_append]
  rw [layout, hlines, Text.unlines_append, hopen, Text.unlines_append, hclose, propertyLines]
  exact ⟨_, hassoc _ _ _ _ _ _ _⟩

/-- The first block of a page holds its properties, if no name closes it. -/
theorem rootBlock?_layout (title : Text) (h : '}' ∉ Text.unlines (propertyLines colors))
    (equation description : Text) (definitions : Entries Text) :
    rootBlock? (Text.unlines (layout title colors equation description definitions)) =
      some ('\n' :: (Text.unlines (propertyLines colors) ++ "    ".toList)) := by
  have hbars : Bars "<style>".toList (Text.unlines (headLines title) ++ "  ".toList) :=
    (Text.bars_unlines (by decide) (bars_headLines title)).append (by decide)
  have hsheet : '{' ∉ "\n    :root ".toList := by decide
  have hblock : '}' ∉ '\n' :: (Text.unlines (propertyLines colors) ++ "    ".toList) := by
    have hspaces : '}' ∉ "    ".toList := by decide
    rw [List.mem_cons, List.mem_append, not_or, not_or]
    exact ⟨by decide, h, hspaces⟩
  obtain ⟨v, htext⟩ := unlines_layout title colors equation description definitions
  rw [htext, rootBlock?_append hbars hsheet hblock]

/-- **The properties of terms that a page declares are those of its terms,
each once and in their order, exactly if no name needs an escape.** -/
theorem termProperties_layout_iff (hcolors : ∀ e ∈ colors, isHexColor e.2)
    (title equation description : Text) (definitions : Entries Text) :
    termProperties (Text.unlines (layout title colors equation description definitions)) =
      colors.map declaredAs ↔ ∀ e ∈ colors, IsName e.1 := by
  constructor
  · intro h e he
    exact isName_declaredAs.1 (isName_of_mem_termProperties (h ▸ List.mem_map_of_mem he))
  · intro hnames
    have hreadable := isReadable_entries hnames hcolors
    have hbrace := propertyLines_eq hnames ▸ not_brace_mem_lines hreadable
    have hlast : declarations ('\n' :: "    ".toList) = [] := by decide
    have hroot : rootEntries.filter (propertyStart <+: ·.1) = [] := by decide
    have hterms : (colors.map declaredAs).filter (propertyStart <+: ·.1) = colors.map declaredAs := by
      refine List.filter_eq_self.2 fun e he => decide_eq_true ?_
      obtain ⟨e, -, rfl⟩ := List.mem_map.1 he
      exact List.prefix_append _ _
    rw [termProperties, rootBlock?_layout title hbrace, Option.map_some, Option.getD_some,
      propertyLines_eq hnames, declarations_lines hreadable, hlast, List.append_nil,
      List.filter_append, hroot, hterms, List.nil_append]

end Html

end AnnotatedEquation
