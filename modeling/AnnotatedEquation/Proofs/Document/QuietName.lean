/-
AnnotatedEquation/Proofs/Document/QuietName.lean

Names of terms that the replacement of color literals writes as they are, and
never takes for a literal.

* A name is `ColorLiteral.Quiet` if it is a template without escapes and no
  literal of a color begins in it, whatever follows.
* Most names are quiet: those without a backslash and without a hash, whose last
  character does not belong to the beginning of `rgb("`
  (`ColorLiteral.quiet_of_getLast?`).

Main statement: `ColorLiteral.replaceAll_one_pass`.  The replacement is refused
for exactly the names that are no template; with quiet names it is one pass over
the text, and no other names have that for all texts and colors.
-/
import AnnotatedEquation.Proofs.Document.Swapping
import AnnotatedEquation.Proofs.Markup.Reading

namespace AnnotatedEquation

variable {x y : Text}

/-! ### Templates that ignore the text they replace -/

namespace Template

theorem length_fill_le (template : Template) (h : x.length ≤ y.length) :
    (template.fill x).length ≤ (template.fill y).length := by
  induction template with
  | nil => exact Nat.le_refl _
  | cons piece template ih =>
    simp only [fill, List.flatMap_cons, List.length_append] at ih ⊢
    cases piece with
    | char c => exact Nat.add_le_add_left ih _
    | whole => exact Nat.add_le_add h ih

/-- A template that gives the same for texts of different lengths has no piece
but characters. -/
theorem eq_literal_of_fill {template : Template} (hlength : x.length < y.length)
    (h : template.fill x = template.fill y) : template = literal (template.fill x) := by
  induction template with
  | nil => rfl
  | cons piece template ih =>
    cases piece with
    | char c =>
      have hfill : ∀ z, fill (.char c :: template) z = c :: fill template z := fun z => rfl
      rw [hfill, hfill] at h
      rw [hfill, literal, List.map_cons, ← literal, ← ih (List.cons.inj h).2]
    | whole =>
      have hfill : ∀ z, fill (.whole :: template) z = z ++ fill template z := fun z => rfl
      have hle := length_fill_le template (Nat.le_of_lt hlength)
      have hsize := congrArg List.length h
      rw [hfill, hfill, List.length_append, List.length_append] at hsize
      omega

end Template

namespace ColorLiteral

open Text (Reader afterCaseless? caselessKey)

variable {s t r v w rest digits name term color : Text} {l : Literal} {colors : Entries Text}

/-! ### Quiet names -/

/-- A name that is written as it is, and in which no literal of a color begins,
whatever follows. -/
def Quiet (name : Text) : Prop :=
  Plain name ∧ ∀ v w l rest, v ≠ [] → v <:+ name → literals.read? (v ++ w) = some (l, rest) →
    l.digits.length ≠ 3 ∧ l.digits.length ≠ 6

/-- **Names that end in no beginning of a literal** are quiet. -/
theorem quiet_of_getLast? (hplain : '\\' ∉ name) (hhash : '#' ∉ name)
    (hlast : ∀ c, name.getLast? = some c →
      ∀ a ∈ "rgb(\"".toList, caselessKey a ≠ caselessKey c) : Quiet name := by
  refine ⟨plain_of_not_mem hplain, fun v w l rest hv hsuffix hread => ?_⟩
  have hfree : '#' ∉ v := fun hmem => hhash (hsuffix.subset hmem)
  obtain ⟨quoted, digits⟩ := l
  cases quoted with
  | false =>
    obtain ⟨t, heq, -⟩ := hashed?_eq_some_iff.1 (read?_hashed_iff.1 hread)
    obtain ⟨c, v, rfl⟩ := List.exists_cons_of_ne_nil hv
    rw [(List.cons.inj heq).1] at hfree
    exact absurd List.mem_cons_self hfree
  | true =>
    obtain ⟨t, u, ht, hu, -⟩ := quoted?_eq_some_iff.1 (read?_quoted_iff.1 hread)
    obtain ⟨t, rfl, -⟩ := hashed?_eq_some_iff.1 hu
    obtain ⟨front, hcut, hkeys⟩ := Text.afterCaseless?_eq_some_iff.1 ht
    -- the name ends before the hash
    have hbegins : v <+: front := by
      rcases List.append_eq_append_iff.1 hcut with ⟨more, rfl, -⟩ | ⟨more, rfl, hmore⟩
      · exact List.prefix_append v more
      · rcases more with - | ⟨c, more⟩
        · exact ⟨[], by simp⟩
        · rw [← (List.cons.inj hmore).1] at hfree
          exact absurd (List.mem_append_right front List.mem_cons_self) hfree
    have hname : name.getLast? = some (v.getLast hv) := by
      obtain ⟨before, rfl⟩ := hsuffix
      rw [List.getLast?_append_of_ne_nil _ hv, List.getLast?_eq_some_getLast hv]
    have hkey : caselessKey (v.getLast hv) ∈ "rgb(\"".toList.map caselessKey := by
      rw [← hkeys]
      exact List.mem_map_of_mem (hbegins.subset (List.getLast_mem hv))
    obtain ⟨a, ha, hkey⟩ := List.mem_map.1 hkey
    exact absurd hkey (hlast _ hname a ha)

theorem quiet_a : Quiet ['a'] :=
  quiet_of_getLast? (by decide) (by decide) fun c hc => by
    obtain rfl : 'a' = c := Option.some.inj hc
    decide

theorem exists_of_termOf? {bare : Bool} (h : termOf? bare colors l = some term) :
    ∃ e ∈ colors, e.1 = term ∧ SameColor e.2 ('#' :: l.digits) := by
  rw [termOf?, Option.ite_none_right_eq_some, Option.map_eq_some_iff] at h
  obtain ⟨-, e, hfind, hterm⟩ := h
  exact ⟨e, List.mem_of_find?_eq_some hfind, hterm, by simpa using List.find?_some hfind⟩

theorem IsExact.length_of_sameColor (h : IsExact color) (hsame : SameColor color ('#' :: digits)) :
    digits.length = 3 ∨ digits.length = 6 := by
  obtain ⟨-, hlength, -⟩ := h
  have hsize := congrArg List.length hsame
  rw [List.length_map, List.length_map, List.length_cons] at hsize
  rw [List.length_tail, hsize] at hlength
  exact hlength

/-- Quiet names leave every text undisturbed. -/
theorem undisturbed_of_quiet (bare : Bool) (hcolors : ∀ e ∈ colors, IsExact e.2)
    (hquiet : ∀ e ∈ colors, Quiet e.1) (s : Text) : Undisturbed bare colors s := by
  intro t l rest term _ _ hterm v l' rest' hv hsuffix hread
  rcases hnone : termOf? bare colors l' with - | term'
  · rfl
  · obtain ⟨e, he, rfl, -⟩ := exists_of_termOf? hterm
    obtain ⟨e', he', -, hsame⟩ := exists_of_termOf? hnone
    obtain ⟨hthree, hsix⟩ := (hquiet e he).2 v rest l' rest' hv hsuffix hread
    exact ((hcolors e' he').length_of_sameColor hsame).elim (absurd · hthree) (absurd · hsix)

theorem replaceAll_of_quiet (bare : Bool) (hcolors : ∀ e ∈ colors, IsExact e.2)
    (hquiet : ∀ e ∈ colors, Quiet e.1) (s : Text) :
    replaceAll bare colors s = .ok (swap bare colors s) :=
  replaceAll_eq_swap hcolors (fun e he => (hquiet e he).1)
    (undisturbed_of_quiet bare hcolors hquiet s)

/-! ### Literals in front of a text -/

theorem isHexDigit_of_read? (h : literals.read? s = some (l, rest)) :
    ∀ d ∈ l.digits, isHexDigit d := by
  have hhash : ∀ {t digits u}, hashed? t = some (digits, u) → ∀ d ∈ digits, isHexDigit d := by
    intro t digits u ht d hd
    obtain ⟨t, -, rfl, -⟩ := hashed?_eq_some_iff.1 ht
    exact List.all_eq_true.1 List.all_takeWhile d hd
  obtain ⟨quoted, digits⟩ := l
  cases quoted with
  | true =>
    obtain ⟨t, u, -, hu, -⟩ := quoted?_eq_some_iff.1 (read?_quoted_iff.1 h)
    exact hhash hu
  | false => exact hhash (read?_hashed_iff.1 h)

theorem quoted_text_append_ne_nil (digits w : Text) : (quoted digits).text ++ w ≠ [] := by
  simp [quoted_text]

theorem read?_quoted_text (hdigits : ∀ d ∈ digits, isHexDigit d) (w : Text) :
    literals.read? ((quoted digits).text ++ w) = some (⟨true, digits⟩, w) := by
  have htake : (digits ++ ("\")".toList ++ w)).takeWhile isHexDigit = digits := by
    rw [List.takeWhile_append_of_pos hdigits, quoteEnd_eq]
    simp [show isHexDigit '"' = false from rfl]
  have hdrop : (digits ++ ("\")".toList ++ w)).dropWhile isHexDigit = "\")".toList ++ w := by
    rw [List.dropWhile_append_of_pos hdigits, quoteEnd_eq]
    simp [show isHexDigit '"' = false from rfl]
  refine read?_quoted_iff.2 (quoted?_eq_some_iff.2
    ⟨'#' :: (digits ++ ("\")".toList ++ w)), "\")".toList ++ w, ?_, ?_,
      Text.afterCaseless?_self _ _⟩)
  · rw [quoted_text, List.append_assoc, List.append_assoc, Text.afterCaseless?_self,
      List.cons_append]
  · rw [hashed?, htake, hdrop]

/-- A literal in front of a text becomes the name of the first term, if it has
its color. -/
theorem swap_quoted_text (bare : Bool) (hdigits : ∀ d ∈ digits, isHexDigit d) (w : Text) :
    swap bare ((name, '#' :: digits) :: colors) ((quoted digits).text ++ w) =
      colorName name ++ swap bare ((name, '#' :: digits) :: colors) w := by
  have hterm : termOf? bare ((name, '#' :: digits) :: colors) ⟨true, digits⟩ = some name := by
    simp [termOf?, SameColor]
  have hread : (names bare ((name, '#' :: digits) :: colors)).read? ((quoted digits).text ++ w) =
      some (colorName name, w) :=
    Reader.choose_read?_eq_some_iff.2 ⟨_, read?_quoted_text hdigits w, by rw [hterm]; rfl⟩
  exact Reader.rewrite_of_read? (quoted_text_append_ne_nil digits w) hread

/-! ### Names that are not quiet -/

/-- A literal that begins in the name behind another one is taken by a later
pass of its color. -/
theorem not_prefix_run_run (other : Text) (hcolor : IsExact ('#' :: l.digits)) (hv : v ≠ [])
    (hsuffix : v <:+ name) (hread : literals.read? (v ++ w) = some (l, rest)) :
    ¬ colorName name <+: Pass.run (Pass.run ((quoted l.digits).text ++ w)
      ⟨true, name, '#' :: l.digits⟩) ⟨l.quoted, other, '#' :: l.digits⟩ := by
  have hfirst : (together [⟨true, name, '#' :: l.digits⟩]).read? ((quoted l.digits).text ++ w) =
      some (colorName name, w) :=
    together_singleton_read?_iff.2 ⟨rfl, _, read?_quoted_text (isHexDigit_of_read? hread) w,
      Pass.takes_iff.2 ⟨rfl, rfl⟩⟩
  rw [Pass.run_eq_rewrite hcolor, Pass.run_eq_rewrite hcolor,
    Reader.rewrite_of_read? (quoted_text_append_ne_nil _ w) hfirst]
  refine Reader.not_prefix_rewrite ?_ hv (hsuffix.trans (List.suffix_append _ name)) ?_
  · intro c s new r hnew
    obtain ⟨more, rfl⟩ := (marks_together _).written hnew
    refine ⟨'t', more, rfl, ?_⟩
    rintro rfl
    rcases (marks_together _).front hnew with hkey | hhash
    · exact absurd hkey (by decide)
    · exact absurd hhash (by decide)
  · have hhash : ∀ t u, hashed? t = some (l.digits, u) →
        (together [⟨true, name, '#' :: l.digits⟩]).read? t = none := by
      refine fun t u ht => together_read?_eq_none_iff.2 fun l' r hread' p hp htakes => ?_
      obtain rfl := List.mem_singleton.1 hp
      obtain rfl := eq_of_hashed? ht hread'
      exact Bool.false_ne_true (Pass.takes_iff.1 htakes).1
    obtain ⟨c, v, rfl⟩ := List.exists_cons_of_ne_nil hv
    obtain ⟨v', s', -, -, hafter⟩ := (marks_together _).read?_append_rewrite hread fun _ => hhash
    rw [List.cons_append, ne_eq, together_read?_eq_none_iff]
    exact fun hnone => hnone l _ hafter _ List.mem_cons_self (Pass.takes_iff.2 ⟨rfl, rfl⟩)

theorem replace_quoted_text (digits : Text) (template : Template) :
    replace (quoted digits) template (quoted digits).text = template.fill (quoted digits).text := by
  have hat : (quoted digits).isAt (quoted digits).text :=
    Pattern.isAt_iff.2 ⟨[], Text.afterCaseless?_eq_some_iff.2 ⟨_, by simp, rfl⟩, rfl⟩
  obtain ⟨c, u, htext⟩ : ∃ c u, (quoted digits).text = c :: (u ++ []) := by
    simpa using List.exists_cons_of_ne_nil (quoted_text_append_ne_nil digits [])
  rw [htext] at hat ⊢
  rw [replace_of_isAt hat (by simp [htext]), replace_nil, List.append_nil, List.append_nil]

/-- A name whose template gives the name for colors of three and of six digits
is written as it is. -/
theorem plain_of_swaps (h : ∀ digits, IsExact ('#' :: digits) →
    replaceAll false [(name, '#' :: digits)] (quoted digits).text =
      .ok (swap false [(name, '#' :: digits)] (quoted digits).text)) : Plain name := by
  have hfill : ∀ digits, IsExact ('#' :: digits) → ∃ template,
      Template.read? (colorName name) = some template ∧
        template.fill (quoted digits).text = colorName name := by
    intro digits hcolor
    have hswap : swap false [(name, '#' :: digits)] (quoted digits).text = colorName name := by
      have hfront : swap false [(name, '#' :: digits)] ((quoted digits).text ++ []) =
          colorName name ++ [] := swap_quoted_text false hcolor.2.2 []
      rwa [List.append_nil, List.append_nil] at hfront
    have hname := h digits hcolor
    rw [hswap, replaceAll, List.foldlM_cons, replaceTerm, patterns_of_isExact false hcolor] at hname
    rcases hread : Template.read? (colorName name) with - | template
    · rw [hread] at hname
      cases hname
    · rw [hread] at hname
      refine ⟨template, rfl, ?_⟩
      rw [← replace_quoted_text]
      exact Except.ok.inj hname
  obtain ⟨template, hread, hthree⟩ := hfill "abc".toList (by decide)
  obtain ⟨template', hread', hsix⟩ := hfill "aabbcc".toList (by decide)
  obtain rfl := Option.some.inj (hread.symm.trans hread')
  have hlength : (quoted "abc".toList).text.length < (quoted "aabbcc".toList).text.length := by
    decide
  rw [Plain, hread, Template.eq_literal_of_fill hlength (hthree.trans hsix.symm), hthree]

/-- **Quiet names are those that are safe in every text**, with any colors, alone
and beside another name. -/
theorem quiet_iff :
    Quiet name ↔ ∀ bare (colors : Entries Text) s, (colors.map Prod.fst).Nodup →
      (∀ e ∈ colors, IsExact e.2 ∧ (e.1 = name ∨ e.1 = ['a'])) →
      replaceAll bare colors s = .ok (swap bare colors s) := by
  constructor
  · intro hquiet bare colors s _ hcolors
    refine replaceAll_of_quiet bare (fun e he => (hcolors e he).1) (fun e he => ?_) s
    rcases (hcolors e he).2 with hname | hname
    · rw [hname]
      exact hquiet
    · rw [hname]
      exact quiet_a
  · intro h
    by_cases hname : name = ['a']
    · rw [hname]
      exact quiet_a
    have hplain : Plain name := plain_of_swaps fun digits hcolor =>
      h false _ _ (by simp) (by simp [hcolor])
    refine ⟨hplain, fun v w l rest hv hsuffix hread => ?_⟩
    -- otherwise the literal has a color, and is replaced where it begins in the name
    by_contra hlength
    have hcolor : IsExact ('#' :: l.digits) :=
      ⟨rfl, by simpa [or_iff_not_imp_left] using hlength, isHexDigit_of_read? hread⟩
    obtain ⟨bare, more, other, hnodup, hcolors, hruns⟩ :
        ∃ bare more other, (((name, '#' :: l.digits) :: more).map Prod.fst).Nodup ∧
          (∀ e ∈ (name, '#' :: l.digits) :: more, IsExact e.2 ∧ (e.1 = name ∨ e.1 = ['a'])) ∧
          passes bare ((name, '#' :: l.digits) :: more) =
            [⟨true, name, '#' :: l.digits⟩, ⟨l.quoted, other, '#' :: l.digits⟩] := by
      rcases hquoted : l.quoted with - | -
      · exact ⟨true, [], name, by simp, by simp [hcolor], rfl⟩
      · exact ⟨false, [(['a'], '#' :: l.digits)], ['a'], by simp [hname], by simp [hcolor], rfl⟩
    have hplains : ∀ e ∈ (name, '#' :: l.digits) :: more, Plain e.1 := fun e he => by
      rcases (hcolors e he).2 with hname | hname
      · rw [hname]
        exact hplain
      · rw [hname]
        exact quiet_a.1
    have heq := h bare _ ((quoted l.digits).text ++ w) hnodup hcolors
    rw [replaceAll_of_plain bare hplains, named_eq_foldl bare fun e he => (hcolors e he).1, hruns,
      swap_quoted_text bare (isHexDigit_of_read? hread)] at heq
    exact not_prefix_run_run other hcolor hv hsuffix hread ⟨_, (Except.ok.inj heq).symm⟩

theorem replaceAll_eq_error_iff (bare : Bool) (colors : Entries Text) (s : Text) :
    (∃ failure, replaceAll bare colors s = .error failure) ↔
      ∃ e ∈ colors, Template.read? (colorName e.1) = none := by
  induction colors generalizing s with
  | nil => simp [replaceAll, pure, Except.pure]
  | cons e colors ih =>
    rw [replaceAll, List.foldlM_cons, replaceTerm]
    rcases hread : Template.read? (colorName e.1) with - | template
    · exact iff_of_true ⟨_, rfl⟩ ⟨e, List.mem_cons_self, hread⟩
    · rw [List.exists_mem_cons_iff, hread, or_iff_right (Option.some_ne_none template)]
      exact ih _

/-- **The replacement of color literals is one pass over the text.**  It is
refused for exactly the names that are no template.  With names that are
templates without escapes, and no literal of a color beginning in a name that is
written, every literal of the color of a term becomes the name of the first such
term, and nothing else changes.  Quiet names give that in every text, and are
all the names that do. -/
theorem replaceAll_one_pass {bare : Bool} (hcolors : ∀ e ∈ colors, IsExact e.2) (s : Text) :
    ((∃ failure, replaceAll bare colors s = .error failure) ↔
        ∃ e ∈ colors, Template.read? (colorName e.1) = none) ∧
      ((∀ e ∈ colors, Plain e.1) → Undisturbed bare colors s →
        replaceAll bare colors s = .ok (swap bare colors s)) ∧
      ((∀ e ∈ colors, Quiet e.1) → replaceAll bare colors s = .ok (swap bare colors s)) ∧
      ∀ name, Quiet name ↔ ∀ bare (colors : Entries Text) s, (colors.map Prod.fst).Nodup →
        (∀ e ∈ colors, IsExact e.2 ∧ (e.1 = name ∨ e.1 = ['a'])) →
        replaceAll bare colors s = .ok (swap bare colors s) :=
  ⟨replaceAll_eq_error_iff bare colors s, replaceAll_eq_swap hcolors,
    fun hquiet => replaceAll_of_quiet bare hcolors hquiet s, fun _ => quiet_iff⟩

/-- Two terms that share a color, and a third one whose color begins like
theirs. -/
def meanColors : Entries Text :=
  [("mean".toList, "#3B82F6".toList), ("rate".toList, "#3b8".toList),
    ("size".toList, "#3b82f6".toList)]

theorem replaceAll_one_pass_mean :
    (∀ e ∈ meanColors, IsExact e.2) ∧ (∀ e ∈ meanColors, Quiet e.1) ∧
      replaceAll true meanColors "rgb(\"#3b82f6\")#3B8 #3b82f6a#3b82F6".toList =
        .ok "termmeantermrate #3b82f6atermmean".toList ∧
      replaceAll false meanColors "rgb(\"#3b8\")#3B8".toList = .ok "termrate#3B8".toList := by
  have hcolors : ∀ e ∈ meanColors, IsExact e.2 := by decide
  have hquiet : ∀ e ∈ meanColors, Quiet e.1 := by
    have hfree : ∀ e ∈ meanColors, '\\' ∉ e.1 ∧ '#' ∉ e.1 ∧
        ∀ a ∈ "rgb(\"".toList, ∀ c ∈ e.1.getLast?, caselessKey a ≠ caselessKey c := by
      decide
    intro e he
    obtain ⟨hplain, hhash, hlast⟩ := hfree e he
    exact quiet_of_getLast? hplain hhash fun c hc a ha => hlast a ha c hc
  refine ⟨hcolors, hquiet, ?_, ?_⟩
  · rw [(replaceAll_one_pass hcolors _).2.2.1 hquiet]
    exact congrArg Except.ok (by decide)
  · rw [(replaceAll_one_pass hcolors _).2.1 (fun e he => (hquiet e he).1)
      (undisturbed_of_quiet false hcolors hquiet _)]
    exact congrArg Except.ok (by decide)

/-- The name of a term with a backslash is no template, and a name with a hash in
it is taken for a literal by a later pass. -/
theorem names_are_no_mere_text :
    Mark.IsTermName ['\\', 'q'] ∧ IsExact "#abc".toList ∧
      (∃ failure, replaceAll false [(['\\', 'q'], "#abc".toList)] [] = .error failure) ∧
      Mark.IsTermName "#def".toList ∧ IsExact "#def".toList ∧
      replaceAll true [("#def".toList, "#abc".toList), (['b'], "#def".toList)] "#abc".toList =
        .ok "termtermb".toList ∧
      swap true [("#def".toList, "#abc".toList), (['b'], "#def".toList)] "#abc".toList =
        "term#def".toList := by
  have hnone : Template.read? (colorName ['\\', 'q']) = none := by
    rw [colorName_eq]
    simp [Template.read?, Template.isDigit, Template.escape?]
  have hplain : ∀ e ∈ [("#def".toList, "#abc".toList), (['b'], "#def".toList)], Plain e.1 :=
    fun e he => plain_of_not_mem ((by decide :
      ∀ e ∈ [("#def".toList, "#abc".toList), (['b'], "#def".toList)], '\\' ∉ e.1) e he)
  refine ⟨by decide, by decide, ?_, by decide, by decide, ?_,
    by decide⟩
  · exact (replaceAll_eq_error_iff _ _ _).2 ⟨_, List.mem_singleton_self _, hnone⟩
  · rw [replaceAll_of_plain true hplain]
    exact congrArg Except.ok (by decide)

end ColorLiteral

end AnnotatedEquation
