/-
AnnotatedEquation/Proofs/Document/ColorNames.lean

The colors of the equation in the Typst document, where math is left in LaTeX
notation.  The equation is written with the literals of the colors, and then
the literals of one term after another are replaced by the name of its color,
in a text that holds such names already.

* `Latex.shownText` is the equation of an article with anything in place of
  the names of the colors;
* `ColorLiteral.shownBehind` is what stands for the color of a term when the
  literals of some terms are replaced: the name of the color of the first of
  them that has the same color, or the literal as it was.

Main statements: replacing the literals of one more term is one more step of
that (`ColorLiteral.nameTerm_shownText`), so that in the end the equation is
the one of the article, with the first term of each color in place of all
(`Typst.equation_shares_colors`).
-/
import AnnotatedEquation.Proofs.Document.Unconverted

namespace AnnotatedEquation

open Fragment (writeAll termsAll)

variable {fs : List Fragment} {term color name a b s : Text} {shown shown' : Text → Text}

theorem EquationSpan.not_mem_of_tagged {c : Char} {body : List Fragment}
    (h : c ∉ writeAll write (.tagged term body :: fs)) :
    c ∉ writeAll write body ∧ c ∉ writeAll write fs := by
  rw [Fragment.writeAll_tagged, List.mem_append, not_or, write] at h
  refine ⟨fun hmem => h.1 ?_, h.2⟩
  exact List.mem_append_left _ (List.mem_append_right _ hmem)

/-! ### Equations in shown colors -/

/-- A forest with every piece in what is shown for the color of its term. -/
def Latex.shownText (shown : Text → Text) (fs : List Fragment) : Text :=
  writeAll (fun term => colored (shown term)) fs

namespace ColorLiteral

open Latex (shownText colorCommand)

/-- What stands before a piece: a brace comes before the hash of a color. -/
theorem braceBeforeHash_header (h : '#' ∉ a ∨ IsExact a) :
    BraceBeforeHash (colorCommand ++ a ++ ['}', '{']) := by
  have hcommand : colorCommand = "\\textcolor".toList ++ ['{'] := by decide
  have hname : '#' ∉ "\\textcolor".toList := by decide
  have hend : BraceBeforeHash ['}', '{'] := braceBeforeHash_of_not_mem (by decide)
  refine BraceBeforeHash.append ?_ hend
  rcases h with h | h
  · have hfree : '#' ∉ colorCommand := by decide
    exact (braceBeforeHash_of_not_mem hfree).append (braceBeforeHash_of_not_mem h)
  · obtain ⟨digits, rfl, hdigits, -⟩ := h.exists_digits
    rw [hcommand]
    exact braceBeforeHash_of_brace hname hdigits

/-- A brace stands before every hash of such an equation, if no hash stands
outside the colors. -/
theorem braceBeforeHash_shownText (hplain : '#' ∉ writeAll EquationSpan.write fs)
    (hshown : ∀ term ∈ termsAll fs, '#' ∉ shown term ∨ IsExact (shown term)) :
    BraceBeforeHash (shownText shown fs) := by
  rw [shownText]
  induction fs using Fragment.forest_induction with
  | nil => exact braceBeforeHash_of_not_mem (by simp)
  | plain text fs ih =>
    rw [Fragment.writeAll_plain, List.mem_append, not_or] at hplain
    have hrest := ih hplain.2 fun t ht => hshown t (by simpa using ht)
    rw [Fragment.writeAll_plain]
    exact (braceBeforeHash_of_not_mem hplain.1).append hrest
  | tagged term body fs ihBody ihRest =>
    obtain ⟨hbody, hplain'⟩ := EquationSpan.not_mem_of_tagged hplain
    have hheader := braceBeforeHash_header (hshown term (by simp))
    have hinner := ihBody hbody fun t ht => hshown t (by simp [ht])
    have hrest := ihRest hplain' fun t ht => hshown t (by simp [ht])
    have hend : BraceBeforeHash ['}'] := braceBeforeHash_of_not_mem (by decide)
    rw [Fragment.writeAll_tagged, Latex.colored_split]
    exact (hheader.append (hinner.append hend)).append hrest

/-! ### One term after another -/

/-- What is shown becomes a name, if it is a color that is looked for, and
stays otherwise. -/
def Becomes (color name a b : Text) : Prop :=
  ('#' ∉ a ∧ b = a) ∨ (IsExact a ∧ b = if SameColor color a then name else a)

theorem replace_shown (h : Becomes color name a b) (hcolor : IsExact color) (v : Text) :
    replace (bare color.tail) (Template.literal name) (a ++ '}' :: v) =
      b ++ replace (bare color.tail) (Template.literal name) ('}' :: v) := by
  rcases h with ⟨hfree, rfl⟩ | ⟨hexact, rfl⟩
  · exact replace_bare_append hfree _
  · rw [replace_color hcolor hexact, Template.fill_literal]

/-- The colors of the pieces are gone through one after the other, and all
else stays as it is. -/
theorem replace_shownText_append (hcolor : IsExact color)
    (hplain : '#' ∉ writeAll EquationSpan.write fs)
    (h : ∀ term ∈ termsAll fs, Becomes color name (shown term) (shown' term)) (v : Text) :
    replace (bare color.tail) (Template.literal name) (shownText shown fs ++ v) =
      shownText shown' fs ++ replace (bare color.tail) (Template.literal name) v := by
  rw [shownText, shownText]
  induction fs using Fragment.forest_induction generalizing v with
  | nil => simp
  | plain text fs ih =>
    rw [Fragment.writeAll_plain, List.mem_append, not_or] at hplain
    have hrest := ih hplain.2 (fun t ht => h t (by simpa using ht)) v
    rw [Fragment.writeAll_plain, Fragment.writeAll_plain, List.append_assoc,
      replace_bare_append hplain.1, hrest, List.append_assoc]
  | tagged term body fs ihBody ihRest =>
    obtain ⟨hbody, hplain'⟩ := EquationSpan.not_mem_of_tagged hplain
    have hrest := ihRest hplain' (fun t ht => h t (by simp [ht])) v
    rw [Fragment.writeAll_tagged, Fragment.writeAll_tagged, Latex.colored_split,
      Latex.colored_split]
    -- the parts of the piece, and what stands behind it
    generalize hback : writeAll (fun term => Latex.colored (shown term)) fs ++ v = back
    have hinner := ihBody hbody (fun t ht => h t (by simp [ht])) (['}'] ++ back)
    have hfree : '#' ∉ colorCommand ∧ '#' ∉ ['}', '{'] ∧ '#' ∉ ['}'] := by decide
    have hassoc : ∀ x y w : Text, colorCommand ++ x ++ ['}', '{'] ++ (y ++ ['}']) ++ w ++ v =
        colorCommand ++ (x ++ '}' :: ('{' :: (y ++ (['}'] ++ (w ++ v))))) := by
      intro x y w
      simp
    have hbetween : ∀ x : Text, '}' :: '{' :: x = ['}', '{'] ++ x := fun _ => rfl
    rw [hassoc, hback, replace_bare_append hfree.1, replace_shown (h term (by simp)) hcolor,
      hbetween, replace_bare_append hfree.2.1, hinner, replace_bare_append hfree.2.2, ← hback,
      hrest]
    simp only [List.append_assoc]

/-- Replacing the literals of the color of a term changes what is shown, and
nothing else. -/
theorem nameTerm_shownText (hcolor : IsExact color)
    (hplain : '#' ∉ writeAll EquationSpan.write fs)
    (h : ∀ t ∈ termsAll fs, Becomes color (colorName term) (shown t) (shown' t)) :
    nameTerm true (shownText shown fs) term color = shownText shown' fs := by
  have hshown : ∀ t ∈ termsAll fs, '#' ∉ shown t ∨ IsExact (shown t) := fun t ht =>
    (h t ht).imp And.left And.left
  have hquoted : replace (quoted color.tail) (Template.literal (colorName term))
      (shownText shown fs) = shownText shown fs :=
    replace_quoted (braceBeforeHash_shownText hplain hshown)
  have hbare := replace_shownText_append hcolor hplain h []
  rw [List.append_nil, replace_nil, List.append_nil] at hbare
  rw [nameTerm_of_isExact hcolor, hquoted, hbare]

/-! ### All terms -/

variable (colorOf : Text → Text)

/-- What stands for the color of a term when the literals of some terms are
replaced: the name of the first of them with the same color, or the color as
it was. -/
def shownBehind (done : List Text) (term : Text) : Text :=
  match done.find? fun y => SameColor (colorOf y) (colorOf term) with
  | some y => colorName y
  | none => colorOf term

variable {colorOf}

theorem not_mem_colorName {y : Text} (h : '#' ∉ y) : '#' ∉ colorName y := by
  rw [colorName, List.mem_append, not_or]
  exact ⟨by decide, h⟩

/-- The literals of one more term are replaced where none of the terms before
has the same color. -/
theorem becomes_shownBehind {done : List Text} {y : Text} (hdone : ∀ z ∈ done, '#' ∉ z)
    (hterm : IsExact (colorOf term)) :
    Becomes (colorOf y) (colorName y) (shownBehind colorOf done term)
      (shownBehind colorOf (done ++ [y]) term) := by
  rw [shownBehind, shownBehind, List.find?_append]
  rcases hfind : done.find? fun y => decide (SameColor (colorOf y) (colorOf term)) with - | z
  · refine Or.inr ⟨hterm, ?_⟩
    rw [Option.none_or, List.find?_singleton]
    by_cases hsame : SameColor (colorOf y) (colorOf term)
    · simp [hsame]
    · simp [hsame]
  · exact Or.inl ⟨not_mem_colorName (hdone z (List.mem_of_find?_eq_some hfind)), rfl⟩

/-- Behind some terms the literals of further ones are replaced, one term
after another. -/
theorem named_shownText (hplain : '#' ∉ writeAll EquationSpan.write fs)
    (hterms : ∀ term ∈ termsAll fs, IsExact (colorOf term)) (todo done : List Text)
    (hnames : ∀ y ∈ done ++ todo, '#' ∉ y) (hcolors : ∀ y ∈ todo, IsExact (colorOf y)) :
    named true (todo.map fun y => (y, colorOf y)) (shownText (shownBehind colorOf done) fs) =
      shownText (shownBehind colorOf (done ++ todo)) fs := by
  induction todo generalizing done with
  | nil => simp [named]
  | cons y todo ih =>
    have hstep : nameTerm true (shownText (shownBehind colorOf done) fs) y (colorOf y) =
        shownText (shownBehind colorOf (done ++ [y])) fs := by
      refine nameTerm_shownText (hcolors y (by simp)) hplain fun t ht => ?_
      exact becomes_shownBehind (fun z hz => hnames z (by simp [hz])) (hterms t ht)
    have hrest := ih (done ++ [y]) (by simpa using hnames) fun z hz => hcolors z (by simp [hz])
    rw [List.append_assoc, List.singleton_append] at hrest
    rw [List.map_cons, named, List.foldl_cons, hstep]
    exact hrest

end ColorLiteral

/-! ### The equation of the Typst document -/

variable {c : Content} {p : Palette}

/-- The first term of the order that has the color of a term, letter case
aside. -/
def Content.sharedTerm (c : Content) (p : Palette) (term : Text) : Text :=
  (c.termOrder.find? fun y =>
    ColorLiteral.SameColor (p.color c.termOrder y) (p.color c.termOrder term)).getD term

theorem Content.find?_sharedTerm (h : term ∈ c.termOrder) :
    (c.termOrder.find? fun y =>
      ColorLiteral.SameColor (p.color c.termOrder y) (p.color c.termOrder term)) =
        some (c.sharedTerm p term) := by
  have hfind : (c.termOrder.find? fun y => ColorLiteral.SameColor
      (p.color c.termOrder y) (p.color c.termOrder term)).isSome :=
    List.find?_isSome.2 ⟨term, h, by simp [ColorLiteral.SameColor]⟩
  obtain ⟨y, hy⟩ := Option.isSome_iff_exists.1 hfind
  rw [sharedTerm, hy]
  rfl

/-- A term that shares its color with no other is the first of its color. -/
theorem Content.sharedTerm_eq_self (h : term ∈ c.termOrder)
    (hdifferent : ∀ y ∈ c.termOrder,
      ColorLiteral.SameColor (p.color c.termOrder y) (p.color c.termOrder term) → y = term) :
    c.sharedTerm p term = term := by
  have hfind := find?_sharedTerm (p := p) h
  exact hdifferent _ (List.mem_of_find?_eq_some hfind) (by simpa using List.find?_some hfind)

/-- Behind the whole order, the color of a known term goes by the name of the
first term that shares it. -/
theorem ColorLiteral.shownBehind_termOrder (h : term ∈ c.termOrder) :
    shownBehind (p.color c.termOrder) c.termOrder.eraseDups term =
      colorName (c.sharedTerm p term) := by
  rw [shownBehind, find?_eraseDups, Content.find?_sharedTerm h]

/-- The equation of an article in which the colors go by the names of other
terms. -/
def Latex.renamedText (rename : Text → Text) (c : Content) : Text :=
  Latex.shownText (fun term => colorName (rename term)) (EquationSpan.forest c.equation)

namespace Typst

open ColorLiteral (IsExact SameColor shownBehind named_shownText)
open Latex (shownText)

/-- What is left when the literals of all terms are replaced. -/
theorem named_coloredText (hequation : '#' ∉ c.equation)
    (hnames : ∀ term ∈ c.termOrder, '#' ∉ term)
    (hcolors : ∀ term ∈ c.termOrder, IsExact (p.color c.termOrder term))
    (hknown : ∀ term ∈ c.equationTerms, term ∈ c.termOrder) :
    ColorLiteral.named true (colorEntries c p) (coloredText c p) =
      Latex.renamedText (c.sharedTerm p) c := by
  have hplain : '#' ∉ writeAll EquationSpan.write (EquationSpan.forest c.equation) := by
    rwa [EquationSpan.forest, show EquationSpan.write = TagStyle.equationSpan.write from rfl,
      TagStyle.write_forest]
  have hfirst : coloredText c p =
      shownText (shownBehind (p.color c.termOrder) []) (EquationSpan.forest c.equation) := by
    refine Fragment.writeAll_congr fun term hterm => ?_
    rw [piece, if_pos (hknown term hterm)]
    rfl
  have hlast : shownText (shownBehind (p.color c.termOrder) c.termOrder.eraseDups)
      (EquationSpan.forest c.equation) = Latex.renamedText (c.sharedTerm p) c := by
    refine Fragment.writeAll_congr fun term hterm => ?_
    rw [ColorLiteral.shownBehind_termOrder (hknown term hterm)]
  rw [hfirst, ← hlast]
  exact named_shownText hplain (fun term hterm => hcolors term (hknown term hterm))
    c.termOrder.eraseDups [] (fun y hy => hnames y (List.mem_eraseDups.1 hy))
    fun y hy => hcolors y (List.mem_eraseDups.1 hy)

/-- **The colors of the Typst equation are those of the article**, one name
for all terms of a color.  If no hash stands in the equation or in a name, and
no backslash in a name, and the colors are nothing but a hash and digits,
then the Typst equation with math left as it is is the equation of the
article where the first term of the same color stands for each term; so it is
the same equation if the colors of different terms are different. -/
theorem equation_shares_colors (c : Content) (p : Palette) (colored : Text)
    (colors : Entries Text) (hequation : '#' ∉ c.equation)
    (hnames : ∀ term ∈ c.termOrder, '\\' ∉ term ∧ '#' ∉ term)
    (hexact : ∀ color ∈ p.colors, IsExact color) (hcolored : Latex.equation c p = .ok colored)
    (hcolors : p.termColors c.termOrder = .ok colors) :
    colored = Latex.renamedText id c ∧
      equation keepMath c p colors = .ok (Latex.renamedText (c.sharedTerm p) c) ∧
      ((∀ x ∈ c.termOrder, ∀ y ∈ c.termOrder,
          SameColor (p.color c.termOrder x) (p.color c.termOrder y) → x = y) →
        equation keepMath c p colors = .ok colored) := by
  rw [p.termColors_guarded] at hcolors
  rw [Latex.equation_guarded] at hcolored
  have hentries : colorEntries c p = colors := eq_of_guarded_eq_ok hcolors
  have htext : Latex.equationText c = colored := eq_of_guarded_eq_ok hcolored
  -- all terms of the order have colors, and so have those of the equation
  have horder : p.firstRefusal? c.termOrder c.termOrder = none := by
    rw [← p.firstRefusal?_eraseDups]
    exact exists_guarded_eq_ok_iff.1 ⟨_, hcolors⟩
  have hknown := (Palette.firstRefusal?_eq_none_iff_mem horder).1
    (exists_guarded_eq_ok_iff.1 ⟨_, hcolored⟩)
  have hexact' := Palette.forall_color hexact horder
  have hshared : equation keepMath c p colors = .ok (Latex.renamedText (c.sharedTerm p) c) := by
    rw [← hentries, equation_keepMath (fun term hterm => (hnames term hterm).1) horder,
      named_coloredText hequation (fun term hterm => (hnames term hterm).2) hexact' hknown]
  refine ⟨htext.symm, hshared, fun hdifferent => ?_⟩
  rw [hshared, ← htext]
  refine congrArg Except.ok (Fragment.writeAll_congr fun term hterm => ?_)
  have hmem := hknown term hterm
  have hself : c.sharedTerm p term = term :=
    Content.sharedTerm_eq_self hmem fun y hy => hdifferent y hy term hmem
  show Latex.colored (colorName (c.sharedTerm p term)) = _
  rw [hself]

/-- A content with a span inside a span and an order that repeats a term. -/
def tonedContent : Content where
  equation := ("\\htmlClass\x7bterm-x\x7d\x7ba + \\htmlClass\x7bterm-y\x7d\x7bb\x7d\x7d"
    ++ " = \\htmlClass\x7bterm-z\x7d\x7bc\x7d").toList
  termOrder := [['x'], ['y'], ['x'], ['z']]

/-- A palette in which one color begins as another does, and two are the
same. -/
def sharedTones : Palette :=
  ⟨"tones".toList, ["#abc", "#ABCdef", "#000", "#AbC"].map String.toList, by decide⟩

/-- A palette in which one color begins as another does, and none are the
same. -/
def differentTones : Palette :=
  ⟨"tones".toList, ["#abc", "#ABCdef", "#000", "#AbD"].map String.toList, by decide⟩

theorem equation_shares_colors_tonedContent :
    ('#' ∉ tonedContent.equation ∧ (∀ term ∈ tonedContent.termOrder, '\\' ∉ term ∧ '#' ∉ term) ∧
      (∀ color ∈ sharedTones.colors, IsExact color) ∧
      ∀ color ∈ differentTones.colors, IsExact color) ∧
    (∃ colors, sharedTones.termColors tonedContent.termOrder = .ok colors ∧
      equation keepMath tonedContent sharedTones colors =
        .ok ("\\textcolor\x7btermx\x7d\x7ba + \\textcolor\x7btermy\x7d\x7bb\x7d\x7d"
          ++ " = \\textcolor\x7btermx\x7d\x7bc\x7d").toList) ∧
    ∃ colored colors, Latex.equation tonedContent differentTones = .ok colored ∧
      differentTones.termColors tonedContent.termOrder = .ok colors ∧
      equation keepMath tonedContent differentTones colors = .ok colored := by
  have hequation : '#' ∉ tonedContent.equation := by decide
  have hnames : ∀ term ∈ tonedContent.termOrder, '\\' ∉ term ∧ '#' ∉ term := by decide
  have hshared : ∀ color ∈ sharedTones.colors, IsExact color := by decide
  have hdifferent : ∀ color ∈ differentTones.colors, IsExact color := by decide
  -- both palettes have colors for the terms of the order and of the equation
  have hrefusal : ∀ p ∈ [sharedTones, differentTones],
      p.firstRefusal? tonedContent.termOrder tonedContent.equationTerms = none ∧
        p.firstRefusal? tonedContent.termOrder tonedContent.termOrder.eraseDups = none := by
    decide +kernel
  have hcolored : ∀ p ∈ [sharedTones, differentTones], Latex.equation tonedContent p =
      .ok (Latex.equationText tonedContent) := by
    intro p hp
    rw [Latex.equation_guarded, (hrefusal p hp).1, guarded_none]
  have hcolors : ∀ p ∈ [sharedTones, differentTones], p.termColors tonedContent.termOrder =
      .ok (colorEntries tonedContent p) := by
    intro p hp
    rw [p.termColors_guarded, (hrefusal p hp).2, guarded_none]
    rfl
  have hsame : ∀ x ∈ tonedContent.termOrder, ∀ y ∈ tonedContent.termOrder,
      SameColor (differentTones.color tonedContent.termOrder x)
        (differentTones.color tonedContent.termOrder y) → x = y := by decide
  have htext : Latex.renamedText (tonedContent.sharedTerm sharedTones) tonedContent =
      ("\\textcolor\x7btermx\x7d\x7ba + \\textcolor\x7btermy\x7d\x7bb\x7d\x7d"
        ++ " = \\textcolor\x7btermx\x7d\x7bc\x7d").toList := by decide +kernel
  obtain ⟨-, hfirst, -⟩ := equation_shares_colors tonedContent sharedTones _ _ hequation hnames
    hshared (hcolored _ (by simp)) (hcolors _ (by simp))
  obtain ⟨-, -, hother⟩ := equation_shares_colors tonedContent differentTones _ _ hequation hnames
    hdifferent (hcolored _ (by simp)) (hcolors _ (by simp))
  exact ⟨⟨hequation, hnames, hshared, hdifferent⟩, ⟨_, hcolors _ (by simp), htext ▸ hfirst⟩,
    _, _, hcolored _ (by simp), hcolors _ (by simp), hother hsame⟩

end Typst

end AnnotatedEquation
