/-
AnnotatedEquation/Proofs/Markup/ProseBack.lean

From references to prose spans and back.  A span ends at the first closing
tag, which may stand in the displayed text itself; what is left of the text
is plain then, so that the spans of a description are no longer those that
were written, but they still carry the same terms.

* `Run.leaf` takes a run as a fragment with nothing but plain text in it, so
  that what is known of forests holds of runs.

Main statement: the terms of the spans written for some references are read
back (`ProseSpan.terms_writeAll`).
-/
import AnnotatedEquation.Proofs.Markup.Layout
import AnnotatedEquation.Proofs.Markup.Decomposition
import AnnotatedEquation.Proofs.Markup.Reading

namespace AnnotatedEquation

open Fragment (EveryAll writeAll termsAll)

variable {s text term : Text} {fs : List Fragment}

/-! ### Runs as fragments -/

/-- A run as a fragment, its content not looked into. -/
def Run.leaf : Run → Fragment
  | plain text => .plain text
  | tagged term content => .tagged term [.plain content]

theorem writeAll_map_leaf (w : Text → Text → Text) (rs : List Run) :
    writeAll w (rs.map Run.leaf) = rs.flatMap (Run.written w) := by
  induction rs with
  | nil => simp
  | cons run rs ih => cases run <;> simp [Run.leaf, Run.written, ih]

theorem termsAll_map_leaf (rs : List Run) :
    termsAll (rs.map Run.leaf) = rs.filterMap Run.term? := by
  induction rs with
  | nil => simp
  | cons run rs ih => cases run <;> simp [Run.leaf, Run.term?, List.filterMap_cons, ih]

/-- The tagged pieces among some runs have a property, told of their terms
and contents. -/
theorem everyAll_map_leaf {P : Text → List Fragment → Prop} {rs : List Run}
    (h : ∀ term content, Run.tagged term content ∈ rs → P term [.plain content]) :
    EveryAll P (rs.map Run.leaf) := by
  induction rs with
  | nil => simp
  | cons run rs ih =>
    have hrest := ih fun term content hmem => h term content (List.mem_cons_of_mem _ hmem)
    cases run with
    | plain text => simpa [Run.leaf] using hrest
    | tagged term content => simpa [Run.leaf, hrest] using h term content List.mem_cons_self

/-! ### References and spans -/

theorem Reference.solid_write : Fragment.Solid Reference.write := by
  intro term display
  refine ⟨'[', display ++ [']', '{', '.'] ++ term, '}', ?_, by decide, by decide⟩
  simp [Reference.write]

/-- A pattern that does not occur behind the beginning of a reference does
not occur in the text that it displays. -/
theorem Reference.not_infix_display {p display v : Text}
    (h : ¬ p <:+: Reference.write term display ++ v) : ¬ p <:+: display := by
  intro hin
  apply h
  refine (hin.trans ?_).trans (List.prefix_append _ _).isInfix
  exact ⟨['['], [']', '{', '.'] ++ term ++ ['}'], by simp [Reference.write]⟩

namespace ProseSpan

theorem solid_write : Fragment.Solid write := by
  intro term text
  refine ⟨'<', "span class=\"term-".toList ++ term ++ middle ++ text ++ "</span".toList, '>', ?_,
    by decide, by decide⟩
  have hopening : opening = '<' :: "span class=\"term-".toList := rfl
  have hclosing : closing = "</span".toList ++ ['>'] := rfl
  rw [write, hopening, hclosing]
  simp only [List.append_assoc, List.cons_append]

/-- No occurrence of the opening of a span runs into a span. -/
theorem halts_write : Fragment.Halts opening fun _ => write := by
  refine Fragment.halts_of_front (u := opening) (by decide) (by decide) ?_
  intro n term inner
  exact ⟨term ++ middle ++ inner ++ closing, by simp [write]⟩

/-- A displayed text without the opening of a span bars it together with the
closing tag behind it. -/
theorem bars_append_closing (h : ¬ opening <:+: text) : Text.Bars opening (text ++ closing) := by
  have hclosing : text ++ closing = (text ++ "</span".toList) ++ ['>'] := by
    have : closing = "</span".toList ++ ['>'] := rfl
    rw [this, List.append_assoc]
  rw [hclosing]
  apply Text.bars_concat (by decide)
  intro hin
  rw [List.append_assoc, Text.infix_append_of_stops (by decide) (by decide)] at hin
  rcases hin with hin | hin
  · exact h hin
  · exact absurd hin (by decide)

/-- A written span is read up to the first closing tag, and the opening of a
span begins nowhere in what is left of its text. -/
theorem exists_read?_write (hterm : ∀ c ∈ term, isNameChar c) (htext : ¬ opening <:+: text)
    (v : Text) :
    ∃ before w, read? (write term text ++ v) = some (.tagged term before, w ++ v) ∧
      before <+: text ∧ Text.Bars opening w := by
  obtain ⟨before, w, hcut, hbefore, hw⟩ :=
    Text.exists_cutAt?_append (p := closing) (by decide) text v
  obtain ⟨hsplit, hfirst⟩ := (Text.cutAt?_eq_some_iff (by decide)).1 hcut
  refine ⟨before, w, ?_, hbefore, (bars_append_closing htext).of_suffix hw⟩
  refine read?_eq_some_iff.2 ⟨term, before, rfl, ?_, hterm, hfirst⟩
  simp only [write, List.append_assoc] at hsplit ⊢
  rw [hsplit]

/-- **The terms of the spans written for some references are read back**, if
the author wrote no opening of a span and the names fit into spans. -/
theorem terms_writeAll
    (hfs : EveryAll (fun term body => (∀ c ∈ term, isNameChar c) ∧ ∃ text, body = [.plain text]) fs)
    (hclean : ¬ opening <:+: writeAll Reference.write fs) :
    TagStyle.proseSpan.terms (writeAll write fs) = termsAll fs := by
  induction fs using Fragment.forest_induction with
  | nil => simp [TagStyle.terms]
  | plain text fs ih =>
    rw [Fragment.writeAll_plain] at hclean ⊢
    have hrest := ih (Fragment.everyAll_plain.1 hfs) fun h =>
      hclean (h.trans (List.suffix_append _ _).isInfix)
    have hread : ∀ w, w <:+ text → w ≠ [] → read? (w ++ writeAll write fs) = none := by
      intro w hw hne
      apply read?_eq_none_of_not_prefix
      exact Fragment.not_prefix_append_writeAll halts_write hclean hw hne
    rw [TagStyle.terms_append _ hread, hrest, Fragment.termsAll_plain]
  | tagged term body fs ihBody ihRest =>
    obtain ⟨⟨⟨hterm, text, rfl⟩, -⟩, hrest⟩ := Fragment.everyAll_tagged.1 hfs
    rw [Fragment.writeAll_tagged] at hclean ⊢
    have hdisplay : writeAll Reference.write [.plain text] = text := by simp
    rw [hdisplay] at hclean
    have htext := Reference.not_infix_display hclean
    have hrest' := ihRest hrest fun h => hclean (h.trans (List.suffix_append _ _).isInfix)
    -- the span may end early, and what is left of its text is plain then
    obtain ⟨before, w, hread, -, hbars⟩ := exists_read?_write hterm htext (writeAll write fs)
    have hnone : ∀ t, t <:+ w → t ≠ [] → read? (t ++ writeAll write fs) = none := by
      intro t ht hne
      apply read?_eq_none_of_not_prefix
      exact (hbars.of_suffix ht).not_prefix_append hne
    have hwritten : writeAll write [.plain text] = text := by simp
    rw [hwritten, TagStyle.terms_of_tagged _ hread, TagStyle.terms_append _ hnone, hrest',
      Fragment.termsAll_tagged]
    simp

end ProseSpan

end AnnotatedEquation
