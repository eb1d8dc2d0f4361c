/-
AnnotatedEquation/Proofs/Markup/ReadBack.lean

From marks to equation spans and back.  The marks of a line are found by
matching braces in the line; the spans that take their place are found by
matching braces again, in a text whose braces are others.

* A tagged piece in either writing leaves the levels as they were, as long
  as no backslash ends the name and escapes the brace behind it
  (`level?_write`); all writings of a forest that do so go through the same
  levels (`Fragment.level?_writeAll_congr`).
* `TagStyle.rewrite` writes the tagged runs of a text, nested ones included,
  in another way.

Main statements: the spans written for a forest are read back as that forest
(`EquationSpan.forest_writeAll`), and the recursive replacement of tagged
runs is the rewriting of the forest (`TagStyle.rewrite_eq_replaceM`).
-/
import AnnotatedEquation.Proofs.Markup.Layout
import AnnotatedEquation.Proofs.Markup.Site

namespace AnnotatedEquation

open Delimiters (braces)
open Fragment (EveryAll writeAll tidyAll termsAll)

variable {s u v text term content inner : Text} {fs body : List Fragment} {m n : Nat} {e : Bool}

/-! ### Writings that leave the levels -/

namespace Fragment

variable {P : Text → Prop} {w w' : Text → Text → Text}

/-- A writing of tagged pieces that leaves the levels as they were, for terms
with a property and contents that leave them, too. -/
def Steady (P : Text → Prop) (w : Text → Text → Text) : Prop :=
  ∀ term inner, P term → braces.Closed inner →
    ∀ m e, braces.level? m e (w term inner) = some (m, false)

/-- All such writings of a forest go through the same levels. -/
theorem level?_writeAll_congr (hw : Steady P w) (hw' : Steady P w')
    (hfs : EveryAll (fun term body => P term ∧ braces.Closed (writeAll w body)) fs) (m : Nat)
    (e : Bool) : braces.level? m e (writeAll w' fs) = braces.level? m e (writeAll w fs) := by
  induction fs using forest_induction generalizing m e with
  | nil => simp
  | plain text fs ih =>
    have ih' := ih (everyAll_plain.1 hfs)
    simp only [writeAll_plain, Delimiters.level?_append, ih']
  | tagged term body fs ihBody ihRest =>
    obtain ⟨⟨⟨hterm, hclosed⟩, hbody⟩, hrest⟩ := everyAll_tagged.1 hfs
    -- the content goes through the same levels in the other writing
    have hclosed' : braces.Closed (writeAll w' body) := by
      rw [Delimiters.Closed, ihBody hbody, hclosed]
    simp only [writeAll_tagged, Delimiters.level?_append, hw' term _ hterm hclosed',
      hw term _ hterm hclosed, Option.bind_some, ihRest hrest]

/-- The contents leave the levels in all such writings, if they do in one. -/
theorem everyAll_closed_congr (hw : Steady P w) (hw' : Steady P w')
    (hfs : EveryAll (fun term body => P term ∧ braces.Closed (writeAll w body)) fs) :
    EveryAll (fun term body => P term ∧ braces.Closed (writeAll w' body)) fs := by
  induction fs using forest_induction with
  | nil => simp
  | plain text fs ih => exact everyAll_plain.2 (ih (everyAll_plain.1 hfs))
  | tagged term body fs ihBody ihRest =>
    obtain ⟨⟨⟨hterm, hclosed⟩, hbody⟩, hrest⟩ := everyAll_tagged.1 hfs
    have hclosed' : braces.Closed (writeAll w' body) := by
      rw [Delimiters.Closed, level?_writeAll_congr hw hw' hbody, hclosed]
    exact everyAll_tagged.2 ⟨⟨⟨hterm, hclosed'⟩, ihBody hbody⟩, ihRest hrest⟩

end Fragment

/-! ### The forest of marks -/

namespace Mark

/-- Every mark in the forest of a text has the name of a term, and a content
that leaves the levels as they were. -/
theorem everyAll_forest (s : Text) :
    EveryAll (fun term body => IsTermName term ∧ braces.Closed (writeAll write body))
      (TagStyle.mark.forest s) := by
  induction s using TagStyle.reading_induction TagStyle.mark with
  | nil => simp
  | skip c s h ih =>
    rw [TagStyle.forest_cons _ h]
    exact Fragment.everyAll_before_plain.2 ih
  | plain s text rest h ih =>
    obtain ⟨name, content, hrun, -⟩ := read?_eq_some_iff.1 h
    cases hrun
  | tagged s term content rest h ihContent ihRest =>
    obtain ⟨name, inner, hrun, -, hname, hclosed⟩ := read?_eq_some_iff.1 h
    obtain ⟨rfl, rfl⟩ := Run.tagged.inj hrun
    have hwritten : writeAll write (TagStyle.mark.forest content) = content :=
      TagStyle.write_forest TagStyle.mark content
    rw [TagStyle.forest_of_tagged _ h, Fragment.everyAll_tagged, hwritten]
    exact ⟨⟨⟨hname, hclosed⟩, ihContent⟩, ihRest⟩

theorem level?_write (hname : IsTermName term) (hclosed : braces.Closed content) (m : Nat)
    (e : Bool) : braces.level? m e (write term content) = some (m, false) := by
  have hwrite : write term content = (opening ++ term ++ [']', '{']) ++ (content ++ ['}']) := by
    simp [write]
  rw [hwrite, Delimiters.level?_append, level?_header hname, Option.bind_some,
    Delimiters.level?_append, hclosed.level?]
  rfl

theorem infix_write (term content : Text) : content <:+: write term content :=
  ⟨opening ++ term ++ [']', '{'], ['}'], by simp [write]⟩

/-- What does not occur in the author's writing of a piece and of what follows
occurs neither inside the piece nor behind it. -/
theorem not_infix_of_tagged {p : Text}
    (h : ¬ p <:+: writeAll write (.tagged term body :: fs)) :
    ¬ p <:+: writeAll write body ∧ ¬ p <:+: writeAll write fs := by
  rw [Fragment.writeAll_tagged] at h
  constructor
  · intro hbody
    exact h ((hbody.trans (infix_write term _)).trans (List.prefix_append _ _).isInfix)
  · intro hrest
    exact h (hrest.trans (List.suffix_append _ _).isInfix)

theorem solid_write : Fragment.Solid write := fun term inner =>
  ⟨'\\', "mark[".toList ++ term ++ [']', '{'] ++ inner, '}', by simp [write]; rfl,
    by decide, by decide⟩

end Mark

/-! ### Levels of equation spans -/

namespace EquationSpan

/-- An equation span up to its content opens one level, unless a backslash
at the end of the name escapes the brace behind it. -/
theorem level?_header (hname : Mark.IsTermName term) (hlast : term.getLast? ≠ some '\\') (m : Nat)
    (e : Bool) :
    braces.level? m e (opening ++ classStart ++ term ++ ['}', '{']) = some (m + 1, false) := by
  obtain ⟨name, c, rfl⟩ := (List.eq_nil_or_concat' term).resolve_left hname.1
  have hopening : braces.level? m e opening = some (m + 1, false) := rfl
  have hclass : ∀ x ∈ classStart, x ≠ '{' ∧ x ≠ '}' := by decide
  have hnamed : ∀ x ∈ (classStart ++ name) ++ [c], x ≠ '{' ∧ x ≠ '}' := by
    intro x hx
    rw [List.append_assoc] at hx
    rcases List.mem_append.1 hx with hx | hx
    · exact hclass x hx
    · exact ⟨fun h => hname.2 x hx (by simp [h]), fun h => hname.2 x hx (by simp [h])⟩
  have hlevel := Delimiters.level?_concat_of_no_delimiter (d := braces) hnamed (m + 1) false
  have hc : decide (c = '\\') = false := by simpa using hlast
  have hheader : opening ++ classStart ++ (name ++ [c]) ++ ['}', '{'] =
      opening ++ ((classStart ++ name) ++ [c] ++ ['}', '{']) := by simp
  rw [hheader, Delimiters.level?_append, hopening, Option.bind_some, Delimiters.level?_append,
    hlevel, Option.bind_some, hc]
  rfl

theorem level?_write (hname : Mark.IsTermName term) (hlast : term.getLast? ≠ some '\\')
    (hclosed : braces.Closed content) (m : Nat) (e : Bool) :
    braces.level? m e (write term content) = some (m, false) := by
  have hwrite : write term content =
      (opening ++ classStart ++ term ++ ['}', '{']) ++ (content ++ ['}']) := by
    simp [write]
  rw [hwrite, Delimiters.level?_append, level?_header hname hlast, Option.bind_some,
    Delimiters.level?_append, hclosed.level?]
  rfl

theorem solid_write : Fragment.Solid write := fun term inner =>
  ⟨'\\', "htmlClass\x7b".toList ++ classStart ++ term ++ ['}', '{'] ++ inner, '}',
    by simp [write]; rfl, by decide, by decide⟩

/-- What a span of a forest must be to be read back: its name holds no
closing brace, and its content leaves the levels as they were. -/
theorem everyAll_closed (hfs : EveryAll (fun term body =>
      (Mark.IsTermName term ∧ term.getLast? ≠ some '\\') ∧ braces.Closed (writeAll Mark.write body))
      fs) :
    EveryAll (fun term body => '}' ∉ term ∧ braces.Closed (writeAll write body)) fs := by
  -- the content goes through the levels that the author's content goes through
  have hmark : Fragment.Steady (fun term => Mark.IsTermName term ∧ term.getLast? ≠ some '\\')
      Mark.write := fun _ _ hterm hclosed m e => Mark.level?_write hterm.1 hclosed m e
  have hspan : Fragment.Steady (fun term => Mark.IsTermName term ∧ term.getLast? ≠ some '\\')
      write := fun _ _ hterm hclosed m e => level?_write hterm.1 hterm.2 hclosed m e
  refine (Fragment.everyAll_closed_congr hmark hspan hfs).mono fun term body h => ⟨?_, h.2⟩
  exact fun hc => h.1.1.2 _ hc (by simp)

/-! ### Reading back -/

/-- No occurrence of the opening of a span runs into a span. -/
theorem halts_write : Fragment.Halts opening fun _ => write := by
  refine Fragment.halts_of_front (u := opening) (by decide) (by decide) ?_
  intro n term inner
  exact ⟨classStart ++ term ++ ['}', '{'] ++ inner ++ ['}'], by simp [write]⟩

/-- **The spans written for a forest are read back as that forest**, if the
author wrote no opening of a span in it. -/
theorem forest_writeAll
    (hfs : EveryAll (fun term body => '}' ∉ term ∧ braces.Closed (writeAll write body)) fs)
    (hclean : ¬ opening <:+: writeAll Mark.write fs) :
    forest (writeAll write fs) = tidyAll fs := by
  induction fs using Fragment.forest_induction with
  | nil => simp [forest]
  | plain text fs ih =>
    rw [Fragment.writeAll_plain] at hclean ⊢
    have hrest := ih (Fragment.everyAll_plain.1 hfs) fun h =>
      hclean (h.trans (List.suffix_append _ _).isInfix)
    -- an opening that begins in plain text would stand in what the author wrote
    have hread : ∀ w, w <:+ text → w ≠ [] → read? (w ++ writeAll write fs) = none := by
      intro w hw hne
      apply read?_eq_none_of_not_prefix
      exact Fragment.not_prefix_append_writeAll halts_write hclean hw hne
    rw [forest, TagStyle.forest_append _ hread, Fragment.tidyAll_plain, ← hrest, forest]
  | tagged term body fs ihBody ihRest =>
    obtain ⟨⟨⟨hbrace, hclosed⟩, hbody⟩, hrest⟩ := Fragment.everyAll_tagged.1 hfs
    obtain ⟨hcleanBody, hcleanRest⟩ := Mark.not_infix_of_tagged hclean
    rw [Fragment.writeAll_tagged]
    -- the content leaves the levels as they were, so the span ends where it was written to end
    have hread : read? (write term (writeAll write body) ++ writeAll write fs) =
        some (.tagged term (writeAll write body), writeAll write fs) :=
      read?_eq_some_tagged_iff.2 ⟨rfl, hbrace, hclosed⟩
    have hbody' := ihBody hbody hcleanBody
    have hrest' := ihRest hrest hcleanRest
    rw [forest, TagStyle.forest_of_tagged _ hread, Fragment.tidyAll_tagged, ← hbody', ← hrest']
    rfl

end EquationSpan

/-! ### Rewriting -/

namespace TagStyle

variable (style : TagStyle)

/-- The text with its tagged runs, nested ones included, in another
writing. -/
def rewrite (w : Text → Text → Text) (s : Text) : Text := writeAll w (style.forest s)

/-- The tagged runs of a text, each rewritten with those inside it. -/
def rewriteRun (w : Text → Text → Text) (_index : Nat) (term content : Text) : Id (Option Text) :=
  some (w term (style.rewrite w content))

theorem writeAll_map_grow (w : Text → Text → Text) (rs : List Run) (index : Nat) :
    writeAll w (rs.map style.grow) = Id.run (style.replaceRunsM (style.rewriteRun w) index rs) := by
  induction rs generalizing index with
  | nil => simp [replaceRunsM]
  | cons run rs ih =>
    cases run with
    | plain text => simp [grow, replaceRunsM, ih index]
    | tagged term content =>
      have hnew : Id.run (style.rewriteRun w index term content) =
          some (w term (writeAll w (style.forest content))) := rfl
      simp [grow, replaceRunsM, ih (index + 1), hnew]

/-- **Rewriting a text is replacing its tagged runs, their contents rewritten
in the same way.** -/
theorem rewrite_eq_replaceM (w : Text → Text → Text) (s : Text) :
    style.rewrite w s = Id.run (style.replaceM (style.rewriteRun w) s) := by
  rw [rewrite, forest_eq, writeAll_map_grow style w _ 0, replaceM]

end TagStyle

end AnnotatedEquation
