/-
AnnotatedEquation/Proofs/Document/Swapping.lean

The names of colors in place of their literals, in one pass.

* `ColorLiteral.swap` reads a text once: a literal of the color of some term
  becomes the name of the first such term, and everything else stays;
* a `ColorLiteral.Pass` is what the replacement does for one color and one way
  of writing it, and `ColorLiteral.together` is what several passes do if each
  sees the text as it was.

One pass after the other is all of them together unless a literal begins in a
name that was written (`ColorLiteral.Undisturbed`): the later passes would take
it for one of the text.

Main statement: `ColorLiteral.replaceAll_eq_swap`.
-/
import AnnotatedEquation.Proofs.Document.Literal
import Mathlib.Data.List.Induction

namespace AnnotatedEquation.ColorLiteral

open Text (Reader afterCaseless? caselessKey)

variable {s t r v rest digits found term color : Text} {l : Literal} {colors : Entries Text}

/-! ### Names in place of literals -/

/-- The first term whose color is written by a literal, where literals like it
count. -/
def termOf? (bare : Bool) (colors : Entries Text) (l : Literal) : Option Text :=
  if l.quoted || bare then
    (colors.find? fun e => SameColor e.2 ('#' :: l.digits)).map Prod.fst
  else none

/-- The names that the literals at the front of a text stand for. -/
def names (bare : Bool) (colors : Entries Text) : Reader Text :=
  literals.choose fun l => (termOf? bare colors l).map colorName

/-- The text with the names of colors in place of their literals, and everything
else as it is. -/
def swap (bare : Bool) (colors : Entries Text) (s : Text) : Text := (names bare colors).rewrite s

/-- No literal of a color begins in a name that is written in place of another
literal. -/
def Undisturbed (bare : Bool) (colors : Entries Text) (s : Text) : Prop :=
  ∀ t l rest term, t <:+ s → literals.read? t = some (l, rest) →
    termOf? bare colors l = some term →
    ∀ v l' rest', v ≠ [] → v <:+ term → literals.read? (v ++ rest) = some (l', rest') →
      termOf? bare colors l' = none

/-! ### Passes -/

/-- One pass of the replacement: a color, whether its literals are in quotes, and
the term whose name they become. -/
structure Pass where
  quoted : Bool
  term : Text
  color : Text

/-- The literal is one of the pass. -/
def Pass.takes (p : Pass) (l : Literal) : Bool :=
  l.quoted = p.quoted ∧ SameColor p.color ('#' :: l.digits)

/-- The text that the pass looks for. -/
def Pass.pattern (p : Pass) : Pattern :=
  if p.quoted then ColorLiteral.quoted p.color.tail else ColorLiteral.bare p.color.tail

/-- What the pass makes of a text. -/
def Pass.run (s : Text) (p : Pass) : Text :=
  replace p.pattern (Template.literal (colorName p.term)) s

/-- The passes for the color of a term. -/
def passesFor (bare : Bool) (term color : Text) : List Pass :=
  ⟨true, term, color⟩ :: if bare then [⟨false, term, color⟩] else []

/-- The passes of the replacement, in order. -/
def passes (bare : Bool) (colors : Entries Text) : List Pass :=
  colors.flatMap fun e => passesFor bare e.1 e.2

/-- All passes in one: a literal becomes what its first pass writes. -/
def together (ps : List Pass) : Reader Text :=
  literals.choose fun l => (ps.find? (·.takes l)).map fun p => colorName p.term

variable {p : Pass} {ps qs : List Pass}

theorem Pass.takes_iff :
    p.takes l ↔ l.quoted = p.quoted ∧ SameColor p.color ('#' :: l.digits) := decide_eq_true_iff

theorem passes_cons (bare : Bool) (e : Text × Text) (colors : Entries Text) :
    passes bare (e :: colors) = passesFor bare e.1 e.2 ++ passes bare colors :=
  List.flatMap_cons

theorem nameTerm_eq_foldl (bare : Bool) (hcolor : IsExact color) (s term : Text) :
    nameTerm bare s term color = (passesFor bare term color).foldl Pass.run s := by
  rw [nameTerm, patterns_of_isExact bare hcolor]
  cases bare <;> rfl

/-- The replacement makes the passes one after the other. -/
theorem named_eq_foldl (bare : Bool) (hcolors : ∀ e ∈ colors, IsExact e.2) (s : Text) :
    named bare colors s = (passes bare colors).foldl Pass.run s := by
  induction colors generalizing s with
  | nil => rfl
  | cons e colors ih =>
    obtain ⟨he, hcolors⟩ := List.forall_mem_cons.1 hcolors
    rw [named, List.foldl_cons, nameTerm_eq_foldl bare he, ← named, ih hcolors, passes_cons,
      List.foldl_append]

theorem color_of_mem_passesFor {bare : Bool} (h : p ∈ passesFor bare term color) :
    p.color = color := by
  rcases List.mem_cons.1 h with rfl | h
  · rfl
  · cases bare with
    | false => cases h
    | true => rw [List.mem_singleton.1 h]

theorem isExact_of_mem_passes {bare : Bool} (hcolors : ∀ e ∈ colors, IsExact e.2)
    (h : p ∈ passes bare colors) : IsExact p.color := by
  obtain ⟨e, he, hp⟩ := List.mem_flatMap.1 h
  rw [color_of_mem_passesFor hp]
  exact hcolors e he

theorem find?_passesFor (bare : Bool) (term color : Text) (l : Literal) :
    ((passesFor bare term color).find? (·.takes l)).map Pass.term =
      if (l.quoted || bare) ∧ SameColor color ('#' :: l.digits) then some term else none := by
  obtain ⟨quoted, digits⟩ := l
  by_cases hsame : SameColor color ('#' :: digits)
  all_goals cases bare <;> cases quoted <;> simp [passesFor, Pass.takes, hsame]

/-- The first pass of a literal is one of the first term with its color. -/
theorem find?_passes (bare : Bool) (colors : Entries Text) (l : Literal) :
    ((passes bare colors).find? (·.takes l)).map Pass.term = termOf? bare colors l := by
  induction colors with
  | nil => simp [passes, termOf?]
  | cons e colors ih =>
    rw [passes_cons, List.find?_append, Option.map_or, ih, find?_passesFor]
    by_cases hcount : (l.quoted || bare) = true
    · by_cases hsame : SameColor e.2 ('#' :: l.digits)
      · simp [termOf?, hcount, hsame]
      · simp [termOf?, hcount, hsame]
    · simp [termOf?, hcount]

/-- A bare literal has its pass behind that of the same color in quotes. -/
theorem quoted_of_prefix_passes {bare : Bool} (h : qs ++ [p] <+: passes bare colors)
    (hp : p.quoted = false) : ∃ q ∈ qs, q.quoted = true ∧ q.color = p.color := by
  induction colors generalizing qs with
  | nil => exact absurd (List.prefix_nil.1 h) (by simp)
  | cons e colors ih =>
    rw [passes_cons, passesFor, List.cons_append] at h
    rcases qs with - | ⟨q, qs⟩
    · rw [(List.cons_prefix_cons.1 h).1] at hp
      cases hp
    · rw [List.cons_append, List.cons_prefix_cons] at h
      obtain ⟨rfl, hrest⟩ := h
      cases bare with
      | false =>
        obtain ⟨q, hq, hquoted⟩ := ih hrest
        exact ⟨q, List.mem_cons_of_mem _ hq, hquoted⟩
      | true =>
        rw [if_pos rfl, List.singleton_append] at hrest
        rcases qs with - | ⟨q, qs⟩
        · rw [(List.cons_prefix_cons.1 hrest).1]
          exact ⟨_, List.mem_cons_self, rfl, rfl⟩
        · rw [List.cons_append, List.cons_prefix_cons] at hrest
          obtain ⟨q', hq', hquoted⟩ := ih hrest.2
          exact ⟨q', List.mem_cons_of_mem _ (List.mem_cons_of_mem _ hq'), hquoted⟩

/-! ### What one pass reads -/

/-- Digits behind a hash are those of a color if no others follow. -/
theorem afterCaseless?_hash_iff (hdigits : ∀ d ∈ digits, isHexDigit d) :
    (afterCaseless? ('#' :: digits) s = some r ∧ r.head?.any isHexDigit = false) ↔
      ∃ found, hashed? s = some (found, r) ∧ SameColor digits found := by
  rcases s with - | ⟨c, s⟩
  · simp [afterCaseless?, hashed?]
  · by_cases hc : c = '#'
    · subst hc
      rw [afterCaseless?, if_pos rfl, Text.afterCaseless?_digits_iff hdigits, hashed?]
      constructor
      · rintro ⟨hsame, rfl⟩
        exact ⟨_, rfl, hsame⟩
      · rintro ⟨found, heq, hsame⟩
        obtain ⟨rfl, rfl⟩ := Prod.mk.inj (Option.some.inj heq)
        exact ⟨hsame, rfl⟩
    · have hkey : caselessKey '#' ≠ caselessKey c := fun h =>
        hc ((Text.caselessKey_eq_iff_of_lt (by decide)).1 h.symm)
      rw [afterCaseless?, if_neg hkey]
      refine iff_of_false (by simp) ?_
      rintro ⟨found, h, -⟩
      obtain ⟨t, heq, -⟩ := hashed?_eq_some_iff.1 h
      exact hc (List.cons.inj heq).1

theorem quoted_text (digits : Text) :
    (quoted digits).text = "rgb(\"".toList ++ ('#' :: digits) ++ "\")".toList := by
  have hassoc : ∀ a b d : Text, a = b ++ ['#'] → a ++ digits ++ d = b ++ ('#' :: digits) ++ d := by
    rintro a b d rfl
    simp
  exact hassoc _ _ _ (by decide)

theorem afterCaseless?_quoted_iff (hdigits : ∀ d ∈ digits, isHexDigit d) :
    afterCaseless? (quoted digits).text s = some r ↔
      ∃ found, quoted? s = some (found, r) ∧ SameColor digits found := by
  rw [quoted_text]
  simp only [Text.afterCaseless?_append, Option.bind_eq_some_iff, quoted?_eq_some_iff]
  constructor
  · rintro ⟨u, ⟨t, ht, hu⟩, hr⟩
    -- the quote behind the digits is none of them
    have hquote : u.head?.any isHexDigit = false := by
      rcases u with - | ⟨c, u⟩
      · rfl
      · rw [quoteEnd_eq, afterCaseless?] at hr
        have hkey := (Option.ite_none_right_eq_some.1 hr).1
        obtain rfl := (Text.caselessKey_eq_iff_of_lt (by decide)).1 hkey.symm
        rfl
    obtain ⟨found, hfound, hsame⟩ := (afterCaseless?_hash_iff hdigits).1 ⟨hu, hquote⟩
    exact ⟨found, ⟨t, u, ht, hfound, hr⟩, hsame⟩
  · rintro ⟨found, ⟨t, u, ht, hfound, hr⟩, hsame⟩
    exact ⟨u, ⟨t, ht, ((afterCaseless?_hash_iff hdigits).2 ⟨found, hfound, hsame⟩).1⟩, hr⟩

/-- **What a pass replaces** are the literals that it takes. -/
theorem Pass.reads_iff (hp : IsExact p.color) :
    (afterCaseless? p.pattern.text s = some r ∧
        (p.pattern.barsDigit && r.head?.any isHexDigit) = false) ↔
      ∃ l, literals.read? s = some (l, r) ∧ p.takes l := by
  obtain ⟨quoted, term, color⟩ := p
  obtain ⟨digits, rfl, -, hdigits⟩ := hp.exists_digits
  have htakes : ∀ l : Literal, Pass.takes ⟨quoted, term, '#' :: digits⟩ l ↔
      ∃ found, l = ⟨quoted, found⟩ ∧ SameColor digits found := by
    rintro ⟨q, found⟩
    rw [Pass.takes_iff, sameColor_hash_iff]
    simp
  have hliteral : (∃ l, literals.read? s = some (l, r) ∧
        Pass.takes ⟨quoted, term, '#' :: digits⟩ l) ↔
      ∃ found, literals.read? s = some (⟨quoted, found⟩, r) ∧ SameColor digits found := by
    simp only [htakes]
    constructor
    · rintro ⟨-, hread, found, rfl, hsame⟩
      exact ⟨found, hread, hsame⟩
    · rintro ⟨found, hread, hsame⟩
      exact ⟨_, hread, found, rfl, hsame⟩
  rw [hliteral]
  cases quoted with
  | true =>
    simp only [read?_quoted_iff, ← afterCaseless?_quoted_iff hdigits]
    exact and_iff_left rfl
  | false =>
    simp only [read?_hashed_iff, ← afterCaseless?_hash_iff hdigits]
    exact Iff.rfl

theorem together_read?_iff {new : Text} :
    (together ps).read? s = some (new, r) ↔
      ∃ l p, literals.read? s = some (l, r) ∧ ps.find? (·.takes l) = some p ∧
        new = colorName p.term := by
  simp only [together, Reader.choose_read?_eq_some_iff, Option.map_eq_some_iff]
  constructor
  · rintro ⟨l, hread, p, hfind, rfl⟩
    exact ⟨l, p, hread, hfind, rfl⟩
  · rintro ⟨l, p, hread, hfind, rfl⟩
    exact ⟨l, hread, p, hfind, rfl⟩

theorem together_read?_eq_none_iff :
    (together ps).read? s = none ↔
      ∀ l rest, literals.read? s = some (l, rest) → ∀ p ∈ ps, ¬ p.takes l := by
  simp only [together, Reader.choose_read?_eq_none_iff, Option.map_eq_none_iff, List.find?_eq_none]

theorem together_singleton_read?_iff {new : Text} :
    (together [p]).read? s = some (new, r) ↔
      new = colorName p.term ∧ ∃ l, literals.read? s = some (l, r) ∧ p.takes l := by
  rw [together_read?_iff]
  constructor
  · rintro ⟨l, q, hread, hfind, rfl⟩
    obtain rfl := List.mem_singleton.1 (List.mem_of_find?_eq_some hfind)
    exact ⟨rfl, l, hread, by simpa using List.find?_some hfind⟩
  · rintro ⟨rfl, l, hread, htakes⟩
    exact ⟨l, p, hread, List.find?_cons_of_pos htakes, rfl⟩

/-- **A pass goes along the text once.** -/
theorem Pass.run_eq_rewrite (hp : IsExact p.color) (s : Text) :
    Pass.run s p = (together [p]).rewrite s := by
  rw [Pass.run]
  induction s using Reader.rewrite_induction (together [p]) with
  | nil => rfl
  | kept c s hnone ih =>
    have hnot : p.pattern.isAt (c :: s) = false := by
      rw [← Bool.not_eq_true, Pattern.isAt_iff]
      rintro ⟨r, hr⟩
      have hread := together_singleton_read?_iff.2 ⟨rfl, (Pass.reads_iff hp).1 hr⟩
      rw [hnone] at hread
      cases hread
    rw [replace_cons hnot, Reader.rewrite_of_none hnone, ih]
  | replaced c s new rest hsome ih =>
    obtain ⟨rfl, hread⟩ := together_singleton_read?_iff.1 hsome
    have hat := (Pass.reads_iff hp).2 hread
    obtain ⟨u, rfl⟩ := (together [p]).suffix hsome
    have hlength : p.pattern.text.length = u.length + 1 := by
      obtain ⟨w, hw, hkeys⟩ := Text.afterCaseless?_eq_some_iff.1 hat.1
      have hcut := congrArg List.length hw
      have hsize := congrArg List.length hkeys
      simp only [List.length_cons, List.length_append, List.length_map] at hcut hsize
      omega
    rw [replace_of_isAt (Pattern.isAt_iff.2 ⟨rest, hat⟩) hlength, Template.fill_literal, ih,
      Reader.rewrite_of_some hsome]

/-! ### One pass after the other -/

theorem colorName_eq (term : Text) : colorName term = 't' :: 'e' :: 'r' :: 'm' :: term := by
  have hname : "term".toList = ['t', 'e', 'r', 'm'] := by decide
  rw [colorName, hname]
  rfl

theorem together_append (ps qs : List Pass) :
    together (ps ++ qs) = (together ps).orElse (together qs) := by
  rw [together, together, together, Reader.orElse_choose]
  congr 1
  funext l
  rw [List.find?_append, Option.map_or]

theorem marks_together (ps : List Pass) : Marks (together ps) where
  front h := by
    obtain ⟨l, p, hread, -⟩ := together_read?_iff.1 h
    exact front_of_read? hread
  written h := by
    obtain ⟨l, p, -, -, rfl⟩ := together_read?_iff.1 h
    exact ⟨_, colorName_eq p.term⟩

/-- No literal begins in what stands before the name of a term. -/
theorem suffix_of_read?_colorName (hv : v ≠ []) (hsuffix : v <:+ colorName term)
    (hread : literals.read? (v ++ s) = some (l, r)) : v <:+ term := by
  have hfront : ∀ c u, v = c :: u → caselessKey 'r' ≠ caselessKey c → c ≠ '#' → False := by
    rintro c u rfl hr hc
    exact (front_of_read? hread).elim hr hc
  rw [colorName_eq] at hsuffix
  rcases List.suffix_cons_iff.1 hsuffix with hv | hsuffix
  · exact (hfront 't' _ hv (by decide) (by decide)).elim
  rcases List.suffix_cons_iff.1 hsuffix with hv | hsuffix
  · exact (hfront 'e' _ hv (by decide) (by decide)).elim
  rcases List.suffix_cons_iff.1 hsuffix with rfl | hsuffix
  · -- an `m` stands behind the `r`
    obtain ⟨quoted, digits⟩ := l
    cases quoted with
    | true =>
      obtain ⟨-, t, u, ht, -⟩ := exists_of_quoted?_cons (read?_quoted_iff.1 hread)
      have hfront : "gb(\"".toList = 'g' :: "b(\"".toList := by decide
      rw [hfront, List.append_eq, List.cons_append, afterCaseless?] at ht
      exact absurd (Option.ite_none_right_eq_some.1 ht).1 (by decide)
    | false =>
      obtain ⟨t, heq, -⟩ := hashed?_eq_some_iff.1 (read?_hashed_iff.1 hread)
      exact absurd (List.cons.inj heq).1 (by decide)
  rcases List.suffix_cons_iff.1 hsuffix with hv | hsuffix
  · exact (hfront 'm' _ hv (by decide) (by decide)).elim
  · exact hsuffix

/-- **A pass behind others is one more of them**, if no literal that it takes
begins in a name that they write. -/
theorem run_together (hp : IsExact p.color)
    (hclosed : ∀ q ∈ ps, q.quoted = false → ∃ q' ∈ ps, q'.quoted = true ∧ q'.color = q.color)
    (hnew : ∀ t l rest q, t <:+ s → literals.read? t = some (l, rest) →
      ps.find? (·.takes l) = some q → ∀ v l' rest', v ≠ [] → v <:+ q.term →
      literals.read? (v ++ rest) = some (l', rest') → ¬ p.takes l') :
    Pass.run ((together ps).rewrite s) p = (together (ps ++ [p])).rewrite s := by
  rw [Pass.run_eq_rewrite hp, together_append]
  refine Reader.rewrite_rewrite s ?_ ?_
  · intro t new rest ht hwritten v hv hsuffix
    obtain ⟨l, q, hread, hfind, rfl⟩ := together_read?_iff.1 hwritten
    refine together_read?_eq_none_iff.2 fun l' r hread' p' hp' => ?_
    obtain rfl := List.mem_singleton.1 hp'
    obtain ⟨v', s', -, hbefore⟩ := (marks_together ps).read?_of_read?_rewrite hread'
    have hterm := suffix_of_read?_colorName hv hsuffix hbefore
    exact hnew t l rest q ht hread hfind v l' _ hv hterm hbefore
  · intro c t hnone
    refine Reader.choose_read?_map _ _ ((marks_together ps).read?_cons_rewrite ?_)
    intro digits rest hquoted t' u hhash
    refine together_read?_eq_none_iff.2 fun l r hread q hq htakes => ?_
    -- the pass of the same color in quotes would have taken the literal
    obtain rfl := eq_of_hashed? hhash hread
    obtain ⟨hquote, hsame⟩ := Pass.takes_iff.1 htakes
    obtain ⟨q', hq', hquote', hcolor⟩ := hclosed q hq hquote.symm
    have htakes' : q'.takes ⟨true, digits⟩ := Pass.takes_iff.2 ⟨hquote'.symm, hcolor ▸ hsame⟩
    exact together_read?_eq_none_iff.1 hnone _ _ hquoted q' hq' htakes'

theorem together_nil_rewrite (s : Text) : (together []).rewrite s = s :=
  Reader.rewrite_eq_self fun _ _ _ =>
    together_read?_eq_none_iff.2 fun _ _ _ _ hp => absurd hp List.not_mem_nil

/-- Some of the passes, each on the text that the ones before it left, are these
passes together. -/
theorem foldl_run {bare : Bool} (hcolors : ∀ e ∈ colors, IsExact e.2)
    (hundisturbed : Undisturbed bare colors s) (hps : ps <+: passes bare colors) :
    ps.foldl Pass.run s = (together ps).rewrite s := by
  -- along the passes, the last one behind the others
  induction ps using List.reverseRecOn with
  | nil => exact (together_nil_rewrite s).symm
  | append_singleton ps p ih =>
    have hbefore : ps <+: passes bare colors := (List.prefix_append ps [p]).trans hps
    have hmem : p ∈ passes bare colors := hps.subset List.mem_concat_self
    rw [List.foldl_append, ih hbefore, List.foldl_cons, List.foldl_nil]
    refine run_together (isExact_of_mem_passes hcolors hmem) ?_ ?_
    · intro q hq hquoted
      obtain ⟨qs, rs, rfl⟩ := List.append_of_mem hq
      have hbegins : qs ++ [q] <+: passes bare colors :=
        List.IsPrefix.trans ⟨rs, by simp⟩ hbefore
      obtain ⟨q', hq', hquoted'⟩ := quoted_of_prefix_passes hbegins hquoted
      exact ⟨q', List.mem_append_left _ hq', hquoted'⟩
    · intro t l rest q ht hread hfind v l' rest' hv hsuffix hread' htakes
      have hterm : termOf? bare colors l = some q.term := by
        rw [← find?_passes, hbefore.find?_eq_some hfind, Option.map_some]
      have hnone := hundisturbed t l rest q.term ht hread hterm v l' rest' hv hsuffix hread'
      rw [← find?_passes, Option.map_eq_none_iff, List.find?_eq_none] at hnone
      exact hnone p hmem htakes

theorem together_passes_rewrite (bare : Bool) (colors : Entries Text) (s : Text) :
    (together (passes bare colors)).rewrite s = swap bare colors s := by
  have hname : ∀ l, ((passes bare colors).find? (·.takes l)).map (fun p => colorName p.term) =
      (termOf? bare colors l).map colorName := fun l => by
    rw [← find?_passes, Option.map_map]
    rfl
  rw [together, swap, names, funext hname]

/-- **The replacement is one pass over the text** if the names are templates
without escapes and no literal of a color begins in a name that is written. -/
theorem replaceAll_eq_swap {bare : Bool} (hcolors : ∀ e ∈ colors, IsExact e.2)
    (hplain : ∀ e ∈ colors, Plain e.1) (hundisturbed : Undisturbed bare colors s) :
    replaceAll bare colors s = .ok (swap bare colors s) := by
  rw [replaceAll_of_plain bare hplain, named_eq_foldl bare hcolors,
    foldl_run hcolors hundisturbed List.prefix_rfl, together_passes_rewrite]

end AnnotatedEquation.ColorLiteral
