/-
AnnotatedEquation/Proofs/Markup/Found.lean

Which of the spans that were written into an equation are found again.  A
backslash at the end of a name escapes the brace behind it as long as the
span is matched inside another one, so that the other one may never be
closed; what is not found stays as it is in every document.

* A text is `Found` if a span is recognised wherever the opening of one
  stands.
* `Headed` tells that the opening of a span is followed by the name of a
  term and the beginning of its piece, as it is in every text that spans were
  written into.

Main statements: a written forest is headed
(`EquationSpan.headed_writeAll_append`), and a writing of the pieces that were
found shows the opening of a span exactly if not all of them were
(`EquationSpan.infix_writeAllFrom_forest_iff`).
-/
import AnnotatedEquation.Proofs.Markup.ReadBack

namespace AnnotatedEquation.EquationSpan

open Delimiters (braces)
open Fragment (EveryAll writeAll writeAllFrom)

variable {s t term content rest v : Text} {fs : List Fragment} {m n : Nat} {e e' : Bool}

/-! ### Openings and spans -/

/-- Wherever the opening of a span stands, a span is recognised. -/
def Found (s : Text) : Prop :=
  Text.Wherever opening (fun t => ∃ term content rest, read? t = some (.tagged term content, rest)) s

/-- Wherever the opening of a span stands, the name of a term and the
beginning of a piece follow. -/
def Headed (s : Text) : Prop :=
  Text.Wherever opening (fun t => ∃ name rest, Mark.IsTermName name ∧
    t = opening ++ (classStart ++ (name ++ '}' :: '{' :: rest))) s

/-- The class names of terms hold no opening brace. -/
def Named (s : Text) : Prop :=
  ∀ name, '}' ∉ name → opening ++ (classStart ++ (name ++ ['}'])) <:+: s → '{' ∉ name

theorem Named.of_infix (h : Named s) (ht : t <:+: s) : Named t := fun name hname hin =>
  h name hname (hin.trans ht)

theorem Headed.named (h : Headed s) : Named s := by
  rintro name hname ⟨u, v, rfl⟩
  have hsuffix : opening ++ (classStart ++ (name ++ '}' :: v)) <:+
      u ++ (opening ++ (classStart ++ (name ++ ['}']))) ++ v :=
    ⟨u, by simp⟩
  obtain ⟨name', rest, hname', heq⟩ := h _ hsuffix (List.prefix_append _ _)
  have htail : name ++ '}' :: v = name' ++ '}' :: '{' :: rest :=
    List.append_cancel_left (List.append_cancel_left heq)
  -- both names end at the first closing brace
  have hbrace' : '}' ∉ name' := fun hc => hname'.2 _ hc (by simp)
  have hcut : Text.cutAt? ['}'] (name ++ '}' :: v) = some (name, v) :=
    Text.cutAt?_singleton_eq_some_iff.2 ⟨rfl, hname⟩
  have hcut' := Text.cutAt?_singleton_eq_some_iff.2 ⟨htail, hbrace'⟩
  obtain ⟨rfl, -⟩ : name = name' ∧ v = '{' :: rest := by
    simpa using hcut.symm.trans hcut'
  exact fun hc => hname'.2 _ hc (by simp)

/-! ### Openings in a span -/

/-- No span opens between the first character of a span and its content. -/
theorem bars_header (hopen : '{' ∉ term) :
    Text.Bars opening ("htmlClass\x7b".toList ++ (classStart ++ (term ++ ['}'])) ++ ['{']) := by
  have hnamed : ¬ opening <:+: classStart ++ (term ++ ['}']) := by
    intro h
    have hbrace : '{' ∈ classStart ++ (term ++ ['}']) := h.mem (by decide)
    have hclass : '{' ∉ classStart := by decide
    simp [hclass, hopen] at hbrace
  have hclosed := Text.bars_concat (p := opening) (u := "htmlClass\x7b".toList ++ (classStart ++ term))
    (c := '}') (by decide) (by
      rw [List.append_assoc, List.append_assoc, Text.infix_append_of_bars (by decide)]
      exact hnamed)
  simp only [List.append_assoc] at hclosed ⊢
  simpa using hclosed.append (v := ['{']) (by decide)

/-- An opening in a text that begins with a span is that of the span, or
stands in its content or behind it. -/
theorem suffix_write_cases (hopen : '{' ∉ term) (ht : t <:+ write term content ++ rest)
    (hopening : opening <+: t) :
    t = write term content ++ rest ∨ t <:+ rest ∨
      ∃ u, u <:+ content ∧ opening <+: u ∧ t = u ++ '}' :: rest := by
  have hwrite : write term content ++ rest =
      '\\' :: (("htmlClass\x7b".toList ++ (classStart ++ (term ++ ['}'])) ++ ['{']) ++
        (content ++ '}' :: rest)) := by
    have hfirst : opening = '\\' :: "htmlClass\x7b".toList := rfl
    rw [write, hfirst]
    simp only [List.append_assoc, List.cons_append, List.nil_append]
  rw [hwrite] at ht ⊢
  rcases List.suffix_cons_iff.1 ht with h | h
  · exact Or.inl h
  · rcases Text.suffix_append_cases h with h | ⟨w, hw, hne, rfl⟩
    · rcases Text.suffix_append_cases h with h | ⟨u, hu, hne, rfl⟩
      · rcases List.suffix_cons_iff.1 h with rfl | h
        · have hclosing : Text.Bars opening ['}'] := by decide
          exact absurd hopening (hclosing.not_prefix_append (by simp))
        · exact Or.inr (Or.inl h)
      · exact Or.inr (Or.inr ⟨u, hu, (Text.prefix_append_cons_iff (by decide)).1 hopening, rfl⟩)
    · exact absurd hopening (((bars_header hopen).of_suffix hw).not_prefix_append hne)

/-- A span up to the end of its name opens one level. -/
theorem exists_level?_name (hopen : '{' ∉ term) (hclose : '}' ∉ term) (m : Nat) (e : Bool) :
    ∃ b, braces.level? m e (opening ++ (classStart ++ term)) = some (m + 1, b) := by
  have hopening : braces.level? m e opening = some (m + 1, false) := rfl
  have hclass : ∀ c ∈ classStart, c ≠ '{' ∧ c ≠ '}' := by decide
  have hnamed : ∀ c ∈ classStart ++ term, c ≠ '{' ∧ c ≠ '}' := by
    intro c hc
    rcases List.mem_append.1 hc with hc | hc
    · exact hclass c hc
    · exact ⟨fun h => hopen (h ▸ hc), fun h => hclose (h ▸ hc)⟩
  obtain ⟨b, hb⟩ := Delimiters.exists_level?_of_no_delimiter (d := braces) hnamed (m + 1) false
  refine ⟨b, ?_⟩
  rw [Delimiters.level?_append, hopening, Option.bind_some, hb]

/-- A span is recognised inside the content of another if it is recognised
in the whole text. -/
theorem exists_read?_of_append (ht : braces.level? m e t = some (0, e')) (hopen : '{' ∉ term)
    (h : read? (t ++ '}' :: rest) = some (.tagged term content, v)) :
    ∃ content v, read? t = some (.tagged term content, v) := by
  obtain ⟨heq, hclose, -⟩ := read?_eq_some_tagged_iff.1 h
  -- the span up to the end of its name lies inside
  have hbrace : '}' ∉ opening ++ (classStart ++ term) := by
    have hconstants : '}' ∉ opening ∧ '}' ∉ classStart := by decide
    simp [hconstants.1, hconstants.2, hclose]
  have hname : opening ++ (classStart ++ term) <+: t ++ '}' :: rest :=
    ⟨'}' :: '{' :: (content ++ '}' :: v), by simp [heq, write]⟩
  obtain ⟨t, rfl⟩ := (Text.prefix_append_cons_iff hbrace).1 hname
  have hwhole : (opening ++ (classStart ++ term)) ++ (t ++ '}' :: rest) =
      (opening ++ (classStart ++ term)) ++ '}' :: '{' :: (content ++ '}' :: v) := by
    rw [← List.append_assoc, heq]
    simp [write]
  have htail : t ++ '}' :: rest = '}' :: '{' :: (content ++ '}' :: v) :=
    List.append_cancel_left hwhole
  obtain ⟨b, hb⟩ := exists_level?_name hopen hclose m e
  rw [Delimiters.level?_append, hb, Option.bind_some] at ht
  rcases t with - | ⟨c, - | ⟨c', t⟩⟩
  · -- a level would stay open
    cases ht
  · have hrest := (List.cons.inj htail).2
    exact absurd (List.cons.inj hrest).1 (by decide)
  · obtain ⟨rfl, htail₁⟩ := List.cons.inj htail
    obtain ⟨rfl, htail₂⟩ := List.cons.inj htail₁
    -- the content is entered one level further in, or two if the brace is escaped
    obtain ⟨k, hk⟩ : ∃ k, braces.level? (k + 1) false t = some (0, e') := by
      cases b with
      | false => exact ⟨m, ht⟩
      | true => exact ⟨m + 1, ht⟩
    obtain ⟨inside, rest', hinside⟩ := Delimiters.exists_content?_of_level? hk (Nat.zero_le k)
    obtain ⟨rfl, hclosed⟩ := braces_content?_eq_some_iff.1 hinside
    refine ⟨inside, rest', read?_eq_some_tagged_iff.2 ⟨?_, hclose, hclosed⟩⟩
    simp [write]

/-- A span that is recognised is recognised whatever follows. -/
theorem read?_append (h : read? t = some (.tagged term content, v)) (w : Text) :
    read? (t ++ w) = some (.tagged term content, v ++ w) := by
  obtain ⟨rfl, hclose, hclosed⟩ := read?_eq_some_tagged_iff.1 h
  exact read?_eq_some_tagged_iff.2 ⟨List.append_assoc _ _ _, hclose, hclosed⟩

/-- All spans of a text that begins with a span are found if they are in its
content and behind it. -/
theorem found_write_append (hopen : '{' ∉ term) (hclose : '}' ∉ term)
    (hclosed : braces.Closed content) (hnamed : Named (write term content ++ rest)) :
    Found (write term content ++ rest) ↔ Found content ∧ Found rest := by
  constructor
  · intro h
    refine ⟨fun t ht hopening => ?_, Text.Wherever.of_suffix h (List.suffix_append _ _)⟩
    have hwhole : t ++ '}' :: rest <:+ write term content ++ rest := by
      obtain ⟨u, rfl⟩ := ht
      exact ⟨opening ++ (classStart ++ (term ++ '}' :: '{' :: u)), by simp [write]⟩
    obtain ⟨name, inner, v, hread⟩ := h _ hwhole (hopening.trans (List.prefix_append _ _))
    -- the level that the content leaves behind is told from its end
    obtain ⟨u, rfl⟩ := ht
    have hlevel := hclosed
    rw [Delimiters.Closed, Delimiters.level?_append, Option.bind_eq_some_iff] at hlevel
    obtain ⟨⟨m, e⟩, -, hlevel⟩ := hlevel
    obtain ⟨heq, hbrace, -⟩ := read?_eq_some_tagged_iff.1 hread
    have hname : '{' ∉ name := by
      apply hnamed name hbrace
      refine List.IsInfix.trans ?_ hwhole.isInfix
      rw [heq]
      exact ⟨[], '{' :: (inner ++ '}' :: v), by simp [write]⟩
    obtain ⟨inner', v', hread'⟩ := exists_read?_of_append hlevel hname hread
    exact ⟨name, inner', v', hread'⟩
  · rintro ⟨hcontent, hrest⟩ t ht hopening
    rcases suffix_write_cases hopen ht hopening with rfl | h | ⟨u, hu, hopening', rfl⟩
    · exact ⟨term, content, rest, read?_eq_some_tagged_iff.2 ⟨rfl, hclose, hclosed⟩⟩
    · exact hrest t h hopening
    · obtain ⟨name, inner, v, hread⟩ := hcontent u hu hopening'
      exact ⟨name, inner, v ++ '}' :: rest, read?_append hread _⟩

/-! ### Written forests -/

theorem headed_cons {c : Char} (hc : c ≠ '\\') (h : Headed s) : Headed (c :: s) := by
  refine Text.wherever_cons_iff.2 ⟨fun hopening => ?_, h⟩
  have hfirst : opening = '\\' :: "htmlClass\x7b".toList := rfl
  rw [hfirst] at hopening
  exact absurd (List.cons_prefix_cons.1 hopening).1.symm hc

/-- **A written forest is headed**, if the author wrote no opening of a
span. -/
theorem headed_writeAll_append (hfs : EveryAll (fun term _ => Mark.IsTermName term) fs)
    (hclean : ¬ opening <:+: writeAll Mark.write fs) (hv : Headed v)
    (hstops : Text.Stops opening v) : Headed (writeAll write fs ++ v) := by
  induction fs using Fragment.forest_induction generalizing v with
  | nil => simpa using hv
  | plain text fs ih =>
    rw [Fragment.writeAll_plain] at hclean ⊢
    have hrest := ih (Fragment.everyAll_plain.1 hfs)
      (fun h => hclean (h.trans (List.suffix_append _ _).isInfix)) hv hstops
    rw [List.append_assoc]
    intro t ht hopening
    rcases Text.suffix_append_cases ht with h | ⟨w, hw, hne, rfl⟩
    · exact hrest t h hopening
    · exact absurd hopening (Fragment.not_prefix_of_clean halts_write hclean hw hne hstops)
  | tagged term body fs ihBody ihRest =>
    obtain ⟨⟨hname, hbody⟩, hrest⟩ := Fragment.everyAll_tagged.1 hfs
    obtain ⟨hcleanBody, hcleanRest⟩ := Mark.not_infix_of_tagged hclean
    have hopen : '{' ∉ term := fun hc => hname.2 _ hc (by simp)
    have hrest' := ihRest hrest hcleanRest hv hstops
    have hbody' := ihBody hbody hcleanBody (headed_cons (c := '}') (by decide) hrest')
      (Text.stops_cons.2 (by decide))
    rw [Fragment.writeAll_tagged, List.append_assoc]
    intro t ht hopening
    rcases suffix_write_cases hopen ht hopening with rfl | h | ⟨u, hu, -, rfl⟩
    · exact ⟨term, writeAll write body ++ '}' :: (writeAll write fs ++ v), hname, by simp [write]⟩
    · exact hrest' t h hopening
    · refine hbody' _ ?_ hopening
      obtain ⟨w, hw⟩ := hu
      exact ⟨w, by simp [← hw]⟩

theorem named_writeAll (hfs : EveryAll (fun term _ => Mark.IsTermName term) fs)
    (hclean : ¬ opening <:+: writeAll Mark.write fs) : Named (writeAll write fs) := by
  have hnil : Headed [] := Text.wherever_nil (by decide)
  have h := headed_writeAll_append hfs hclean hnil Text.stops_nil
  rw [List.append_nil] at h
  exact h.named

/-! ### What a writing of the found spans shows -/

variable {w : Nat → Text → Text → Text}

theorem writeAllFrom_forest (s : Text) : writeAllFrom (fun _ => write) n (forest s) = s := by
  rw [← Fragment.writeAll_eq_writeAllFrom]
  exact TagStyle.write_forest TagStyle.equationSpan s

/-- **A writing of the found spans shows the opening of a span exactly if not
all spans are found**, where the writing itself neither makes nor breaks an
opening. -/
theorem infix_writeAllFrom_forest_iff (hhalts : Fragment.Halts opening w)
    (hframes : Fragment.Frames opening w) (hnamed : Named s) (n : Nat) :
    opening <:+: writeAllFrom w n (forest s) ↔ ¬ Found s := by
  induction s using TagStyle.reading_induction TagStyle.equationSpan generalizing n with
  | nil =>
    have hnil : Found [] := Text.wherever_nil (by decide)
    have hopening : ¬ opening <:+: [] := by decide
    simp [forest, hnil, hopening]
  | skip c s h ih =>
    have ih' := ih (hnamed.of_infix (List.suffix_cons c s).isInfix) n
    have hforest : forest (c :: s) = (Fragment.plain [c]).before (forest s) :=
      TagStyle.forest_cons _ h
    -- at the front, the opening sees the same text in both writings
    have hfront : opening <+: c :: writeAllFrom w n (forest s) ↔ opening <+: c :: s := by
      have hsame : opening <+: [c] ++ writeAllFrom w n (forest s) ↔
          opening <+: [c] ++ writeAllFrom (fun _ => write) 0 (forest s) :=
        Fragment.prefix_writeAllFrom_congr hhalts halts_write (by simp) n 0
      rwa [writeAllFrom_forest] at hsame
    have hnone : ¬ ∃ term content rest, read? (c :: s) = some (.tagged term content, rest) := by
      rintro ⟨term, content, rest, hread⟩
      exact absurd (h.symm.trans hread) (by simp)
    have hfound : Found (c :: s) ↔ ¬ opening <+: c :: s ∧ Found s := by
      rw [Found, Text.wherever_cons_iff, imp_iff_not hnone]
      rfl
    rw [hforest, Fragment.writeAllFrom_before_plain, List.singleton_append, List.infix_cons_iff,
      hfront, ih', hfound, Classical.not_and_iff_not_or_not, Classical.not_not]
  | plain s text rest h ih =>
    have hforest : forest s = (Fragment.plain text).before (forest rest) :=
      TagStyle.forest_of_plain _ h
    have hopening : opening <+: text := prefix_of_read?_plain h
    -- a foreign class begins with an opening that is no span of a term
    have hnot : ¬ Found s := by
      intro hf
      obtain ⟨term, content, rest', hread⟩ := hf s List.suffix_rfl (prefix_of_read? h)
      have := Option.some.inj (hread.symm.trans h)
      simp at this
    rw [hforest, Fragment.writeAllFrom_before_plain]
    exact iff_of_true (hopening.isInfix.trans (List.prefix_append _ _).isInfix) hnot
  | tagged s term content rest h ihContent ihRest =>
    have hforest : forest s = .tagged term (forest content) :: forest rest :=
      TagStyle.forest_of_tagged _ h
    obtain ⟨rfl, hclose, hclosed⟩ := read?_eq_some_tagged_iff.1 h
    have hopen : '{' ∉ term := by
      apply hnamed term hclose
      exact ⟨[], '{' :: (content ++ '}' :: rest), by simp [write]⟩
    have hterm : ¬ opening <:+: term := fun hin => hopen (hin.mem (by decide))
    have hcontent := ihContent (hnamed.of_infix
      ⟨opening ++ (classStart ++ (term ++ ['}', '{'])), '}' :: rest, by simp [write]⟩) (n + 1)
    have hrest := ihRest (hnamed.of_infix (List.suffix_append _ _).isInfix)
      (n + 1 + (Fragment.termsAll (forest content)).length)
    have hpieces := hframes n term (writeAllFrom w (n + 1) (forest content)) []
      (writeAllFrom w (n + 1 + (Fragment.termsAll (forest content)).length) (forest rest))
    have hnil : ¬ opening <:+: [] := by decide
    rw [List.nil_append] at hpieces
    rw [hforest, Fragment.writeAllFrom_tagged, hpieces, hcontent, hrest,
      found_write_append hopen hclose hclosed hnamed, Classical.not_and_iff_not_or_not]
    simp [hnil, hterm]

end AnnotatedEquation.EquationSpan
