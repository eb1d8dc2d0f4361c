/-
AnnotatedEquation/Proofs/Document/ColorLiteral.lean

The replacement of color literals, for terms whose names hold no backslash,
so that the name of a color is a template without escapes.

* A stretch of text without a hash stays as it is;
* digits behind a hash are replaced if they are the digits of the literal,
  letter case aside, and no others (`isAt_bare_hash_iff`);
* a literal in quotes is found nowhere if a brace stands before every hash
  (`replace_quoted`).

Main statement: such a replacement is never refused, and gives
`ColorLiteral.named` (`ColorLiteral.replaceAll_eq_ok`).
-/
import AnnotatedEquation.Document.ColorLiteral
import AnnotatedEquation.Proofs.Text.Caseless
import Mathlib.Data.List.Basic

namespace AnnotatedEquation

variable {s u v term color digits : Text}

/-! ### Templates without escapes -/

/-- The template that stands for a text as it is. -/
def Template.literal (s : Text) : Template := s.map Template.Piece.char

theorem Template.read?_eq_literal (h : '\\' ∉ s) :
    Template.read? s = some (Template.literal s) := by
  induction s with
  | nil => simp [Template.read?, Template.literal]
  | cons c s ih =>
    simp only [List.mem_cons, not_or] at h
    have hc : c ≠ '\\' := Ne.symm h.1
    rw [Template.read?.eq_def]
    split
    all_goals simp_all [Template.literal]

@[simp] theorem Template.fill_literal (s t : Text) : (Template.literal s).fill t = s := by
  simp [Template.fill, Template.literal, List.flatMap_map]

/-! ### The replacement -/

namespace ColorLiteral

/-- The literals of the color of a term replaced by the name of the color. -/
def nameTerm (bare : Bool) (s term color : Text) : Text :=
  (patterns bare color).foldl (fun s p => replace p (Template.literal (colorName term)) s) s

/-- The literals of the colors of all terms replaced by the names of the
colors. -/
def named (bare : Bool) (colors : Entries Text) (s : Text) : Text :=
  colors.foldl (fun s e => nameTerm bare s e.1 e.2) s

/-- The name of the color of a term is a template without escapes. -/
def Plain (term : Text) : Prop :=
  Template.read? (colorName term) = some (Template.literal (colorName term))

theorem plain_of_not_mem (h : '\\' ∉ term) : Plain term :=
  Template.read?_eq_literal (by simp [colorName, h])

theorem replaceTerm_eq_ok (bare : Bool) (h : Plain term) (s color : Text) :
    replaceTerm bare s term color = .ok (nameTerm bare s term color) := by
  rw [replaceTerm, h]
  rfl

/-- The replacement is not refused if all names are templates without
escapes. -/
theorem replaceAll_of_plain (bare : Bool) {colors : Entries Text} (h : ∀ e ∈ colors, Plain e.1)
    (s : Text) : replaceAll bare colors s = .ok (named bare colors s) := by
  rw [replaceAll]
  induction colors generalizing s with
  | nil => rfl
  | cons e colors ih =>
    rw [List.foldlM_cons, replaceTerm_eq_ok bare (h e List.mem_cons_self)]
    exact ih (fun x hx => h x (List.mem_cons_of_mem e hx)) _

/-- **The replacement is not refused** if no name of a term holds a
backslash. -/
theorem replaceAll_eq_ok (bare : Bool) {colors : Entries Text} (h : ∀ e ∈ colors, '\\' ∉ e.1)
    (s : Text) : replaceAll bare colors s = .ok (named bare colors s) :=
  replaceAll_of_plain bare (fun e he => plain_of_not_mem (h e he)) s

/-! ### Going through a text -/

variable {pattern : Pattern} {template : Template} {c : Char}

theorem Pattern.isAt_iff :
    pattern.isAt s ↔ ∃ r, Text.afterCaseless? pattern.text s = some r ∧
      (pattern.barsDigit && r.head?.any isHexDigit) = false := by
  rw [Pattern.isAt]
  rcases Text.afterCaseless? pattern.text s with - | r
  · simp
  · simp only [Bool.not_eq_true', Option.some.injEq, exists_eq_left']

@[simp] theorem replace_nil : replace pattern template [] = [] := by simp [replace, replaceFrom]

theorem replace_cons (h : pattern.isAt (c :: s) = false) :
    replace pattern template (c :: s) = c :: replace pattern template s := by
  rw [replace, replaceFrom, if_neg (by simp [h]), replace]

/-- What belongs to a literal that is replaced already is left out. -/
theorem replaceFrom_append (u v : Text) :
    replaceFrom pattern template u.length (u ++ v) = replace pattern template v := by
  induction u with
  | nil => rfl
  | cons c u ih => exact ih

theorem replace_of_isAt (h : pattern.isAt (c :: (u ++ v)))
    (hlength : pattern.text.length = u.length + 1) :
    replace pattern template (c :: (u ++ v)) =
      template.fill (c :: u) ++ replace pattern template v := by
  have htake : (c :: (u ++ v)).take pattern.text.length = c :: u := by simp [hlength]
  rw [replace, replaceFrom, if_pos h, htake, hlength, Nat.add_sub_cancel, replaceFrom_append]

theorem replace_eq_self (h : ∀ w, w <:+ s → pattern.isAt w = false) :
    replace pattern template s = s := by
  induction s with
  | nil => simp
  | cons c s ih =>
    rw [replace_cons (h _ List.suffix_rfl), ih fun w hw => h w (hw.trans (List.suffix_cons c s))]

/-! ### Digits behind a hash -/

/-- A color without anything behind its digits. -/
def IsExact (color : Text) : Prop :=
  color.head? = some '#' ∧ (color.tail.length = 3 ∨ color.tail.length = 6) ∧
    ∀ d ∈ color.tail, isHexDigit d

instance : Decidable (IsExact color) := inferInstanceAs (Decidable (_ ∧ _))

theorem IsExact.exists_digits (h : IsExact color) :
    ∃ digits, color = '#' :: digits ∧ '#' ∉ digits ∧ ∀ d ∈ digits, isHexDigit d := by
  obtain ⟨hhash, -, hdigits⟩ := h
  obtain ⟨digits, rfl⟩ := List.head?_eq_some_iff.1 hhash
  exact ⟨digits, rfl, fun hmem => absurd (hdigits _ hmem) (by decide), hdigits⟩

/-- Two colors differ in letter case at most. -/
def SameColor (a b : Text) : Prop := a.map Char.toLower = b.map Char.toLower

instance {a b : Text} : Decidable (SameColor a b) := inferInstanceAs (Decidable (_ = _))

theorem sameColor_hash_iff {found : Text} :
    SameColor ('#' :: digits) ('#' :: found) ↔ SameColor digits found := by
  simp [SameColor]

/-- The literal that is given by digits behind a hash. -/
def bare (digits : Text) : Pattern := ⟨'#' :: digits, true⟩

theorem isAt_bare_of_ne (hc : c ≠ '#') : (bare digits).isAt (c :: s) = false := by
  have hkey : Text.caselessKey '#' ≠ Text.caselessKey c := fun h =>
    hc ((Text.caselessKey_eq_iff_of_lt (by decide)).1 h.symm)
  rw [Pattern.isAt, bare, Text.afterCaseless?, if_neg hkey]

/-- A stretch of text without a hash stays as it is. -/
theorem replace_bare_append (hu : '#' ∉ u) (v : Text) :
    replace (bare digits) template (u ++ v) = u ++ replace (bare digits) template v := by
  induction u with
  | nil => rfl
  | cons c u ih =>
    simp only [List.mem_cons, not_or] at hu
    rw [List.cons_append, replace_cons (isAt_bare_of_ne (Ne.symm hu.1)), ih hu.2,
      List.cons_append]

/-- Digits between a hash and a brace are the literal if they differ from its
digits in letter case at most. -/
theorem isAt_bare_hash_iff {found : Text} (hdigits : ∀ d ∈ digits, isHexDigit d)
    (hfound : ∀ d ∈ found, isHexDigit d) (v : Text) :
    (bare digits).isAt ('#' :: (found ++ '}' :: v)) ↔ SameColor digits found := by
  have hbrace : ¬ isHexDigit '}' := by decide
  have htake : (found ++ '}' :: v).takeWhile isHexDigit = found := by
    rw [List.takeWhile_append_of_pos hfound, List.takeWhile_cons_of_neg hbrace, List.append_nil]
  rw [Pattern.isAt_iff, bare, Text.afterCaseless?, if_pos rfl]
  simp only [Bool.true_and, Text.afterCaseless?_digits_iff hdigits, htake, SameColor]
  constructor
  · rintro ⟨r, hsame, -⟩
    exact hsame
  · exact fun hsame => ⟨_, hsame, rfl⟩

/-- **A color before a brace is replaced if it is the color that is looked
for, letter case aside**, and stays as it is if it is another. -/
theorem replace_color {shown : Text} (hcolor : IsExact color) (hshown : IsExact shown)
    (v : Text) :
    replace (bare color.tail) template (shown ++ '}' :: v) =
      (if SameColor color shown then template.fill shown else shown) ++
        replace (bare color.tail) template ('}' :: v) := by
  obtain ⟨digits, rfl, -, hdigits⟩ := hcolor.exists_digits
  obtain ⟨found, rfl, hfree, hfound⟩ := hshown.exists_digits
  rw [List.tail_cons]
  have hat := isAt_bare_hash_iff hdigits hfound v
  by_cases h : SameColor digits found
  · have hlength : digits.length = found.length := by simpa using congrArg List.length h
    rw [if_pos (sameColor_hash_iff.2 h), List.cons_append]
    exact replace_of_isAt (hat.2 h) (by simp [bare, hlength])
  · have hnot : (bare digits).isAt ('#' :: (found ++ '}' :: v)) = false := by
      rw [← Bool.not_eq_true]
      exact fun htrue => h (hat.1 htrue)
    rw [if_neg (fun hs => h (sameColor_hash_iff.1 hs)), List.cons_append, replace_cons hnot,
      replace_bare_append hfree, List.cons_append]

/-! ### Digits in quotes -/

/-- The literal of a color in quotes. -/
def quoted (digits : Text) : Pattern := ⟨"rgb(\"#".toList ++ digits ++ "\")".toList, false⟩

/-- A brace stands before every hash. -/
def BraceBeforeHash (s : Text) : Prop := ∀ u v, s = u ++ '#' :: v → u.getLast? = some '{'

theorem braceBeforeHash_of_not_mem (h : '#' ∉ s) : BraceBeforeHash s := by
  rintro u v rfl
  simp at h

theorem braceBeforeHash_of_brace (hu : '#' ∉ u) (hv : '#' ∉ v) :
    BraceBeforeHash (u ++ ['{'] ++ '#' :: v) := by
  intro a b hab
  have hu' : '#' ∉ u ++ ['{'] := by simp [hu]
  obtain ⟨rfl, -, -⟩ := (List.append_cons_inj_of_notMem hu' hv).1 hab
  simp

theorem BraceBeforeHash.append (hu : BraceBeforeHash u) (hv : BraceBeforeHash v) :
    BraceBeforeHash (u ++ v) := by
  intro a b hab
  rcases List.append_eq_append_iff.1 hab with ⟨w, rfl, hw⟩ | ⟨w, rfl, hw⟩
  · -- the hash stands in the second part
    have hlast := hv w b hw
    rw [List.getLast?_append, hlast]
    rfl
  · rcases w with - | ⟨x, w⟩
    · rw [List.nil_append] at hw
      exact absurd (hv [] b hw.symm) (by simp)
    · obtain ⟨rfl, -⟩ := List.cons.inj hw
      exact hu a w rfl

/-- A literal in quotes is found nowhere if a brace stands before every
hash. -/
theorem replace_quoted (h : BraceBeforeHash s) :
    replace (quoted digits) template s = s := by
  refine replace_eq_self fun w hw => ?_
  have hassoc : ∀ a b d : Text, a = b ++ ['"', '#'] →
      a ++ digits ++ d = b ++ '"' :: '#' :: (digits ++ d) := by
    rintro a b d rfl
    simp
  have hstart : "rgb(\"#".toList = "rgb(".toList ++ ['"', '#'] := by decide
  have htext : (quoted digits).text = "rgb(".toList ++ '"' :: '#' :: (digits ++ "\")".toList) :=
    hassoc _ _ _ hstart
  rw [Pattern.isAt]
  split
  · next rest hafter =>
    obtain ⟨u, rfl, hkeys⟩ := Text.afterCaseless?_eq_some_iff.1 hafter
    -- the quote of the literal would stand before a hash of the text
    rw [htext, List.map_append, List.map_eq_append_iff] at hkeys
    obtain ⟨u, more, rfl, -, hmore⟩ := hkeys
    obtain ⟨quote, more, rfl, hquote, hmore⟩ := List.map_eq_cons_iff.1 hmore
    obtain ⟨hash, more, rfl, hhash, -⟩ := List.map_eq_cons_iff.1 hmore
    obtain rfl := (Text.caselessKey_eq_iff_of_lt (by decide)).1 hquote
    obtain rfl := (Text.caselessKey_eq_iff_of_lt (by decide)).1 hhash
    obtain ⟨before, rfl⟩ := hw
    have hlast := h (before ++ u ++ ['"']) (more ++ rest) (by simp)
    simp at hlast
  · rfl

/-! ### The literals of a color -/

theorem patterns_of_isExact (bare : Bool) (h : IsExact color) :
    patterns bare color =
      quoted color.tail :: if bare then [ColorLiteral.bare color.tail] else [] := by
  obtain ⟨digits, rfl, -, hdigits⟩ := h.exists_digits
  have hne : digits ≠ [] := by
    rintro rfl
    exact absurd h (by decide)
  have hdrop := dropWhile_hash hdigits hne []
  rw [List.append_nil] at hdrop
  rw [patterns, hdrop]
  rfl

theorem nameTerm_of_isExact (h : IsExact color) (s term : Text) :
    nameTerm true s term color =
      replace (bare color.tail) (Template.literal (colorName term))
        (replace (quoted color.tail) (Template.literal (colorName term)) s) := by
  rw [nameTerm, patterns_of_isExact true h]
  rfl

end ColorLiteral

end AnnotatedEquation
