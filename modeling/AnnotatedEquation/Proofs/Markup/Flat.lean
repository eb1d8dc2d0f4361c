/-
AnnotatedEquation/Proofs/Markup/Flat.lean

Which of the spans that were written into a description are found again, and
leave nothing of the markup behind.  Spans do not nest here: the text of a
span ends at the first closing tag, and the opening of a span that stands in
it is not looked at.

* A text is `Flat` if a span is recognised wherever the opening of one
  stands, with no further opening in its text.
* `Run.Apart` tells of some runs that no two neighbours are plain, so that
  no opening lies across the seam of two runs.

Main statements: a text is flat exactly if no run of it holds the opening of
a span (`ProseSpan.flat_iff`), and the spans written for references are flat
if the author wrote no opening and the names fit into spans
(`ProseSpan.flat_writeAll`).
-/
import AnnotatedEquation.Proofs.Markup.ProseBack
import Mathlib.Data.List.Chain

namespace AnnotatedEquation

open Fragment (EveryAll writeAll)

variable {p s t text term rest v : Text} {run : Run} {rs : List Run} {fs : List Fragment}

/-! ### Runs side by side -/

namespace Run

/-- The text of a plain run, or the piece of a tagged one. -/
def content : Run → Text
  | plain text => text
  | tagged _ content => content

/-- Of two neighbouring runs, one is tagged. -/
def Apart (rs : List Run) : Prop := rs.IsChain fun a b => a.term?.isSome ∨ b.term?.isSome

theorem apart_cons :
    Apart (run :: rs) ↔ (∀ next ∈ rs.head?, run.term?.isSome ∨ next.term?.isSome) ∧ Apart rs :=
  List.isChain_cons

theorem Apart.before (h : Apart rs) (run : Run) : Apart (run.before rs) := by
  rcases run with text | ⟨term, content⟩
  · rcases rs with - | ⟨more | ⟨term, content⟩, rs⟩
    · exact apart_cons.2 ⟨by simp, h⟩
    · -- the next run keeps its neighbour
      obtain ⟨hnext, hrest⟩ := apart_cons.1 h
      exact apart_cons.2 ⟨hnext, hrest⟩
    · exact apart_cons.2 ⟨by simp [term?], h⟩
  · exact apart_cons.2 ⟨by simp [term?], h⟩

end Run

theorem TagStyle.apart_runs (style : TagStyle) (s : Text) : Run.Apart (style.runs s) := by
  fun_induction style.runs s with
  | case1 => exact List.isChain_nil
  | case2 c s run rest h ih => exact ih.before run
  | case3 c s h ih => exact ih.before (.plain [c])

/-- Behind a plain run there is nothing, or what a tagged run is written
as. -/
theorem Run.Apart.stops {written : Run → Text} (h : Apart (.plain text :: rs))
    (hw : ∀ term content rest, Text.Stops p (written (.tagged term content) ++ rest)) :
    Text.Stops p (rs.flatMap written) := by
  rcases rs with - | ⟨more | ⟨term, content⟩, rs⟩
  · exact Text.stops_nil
  · simpa [Run.term?] using (Run.apart_cons.1 h).1 (.plain more) rfl
  · exact hw term content _

namespace ProseSpan

/-! ### Flat texts -/

/-- Wherever the opening of a span stands, a span is recognised, and no
opening stands in its text. -/
def Flat (s : Text) : Prop :=
  Text.Wherever opening (fun t =>
    ∃ term text rest, read? t = some (.tagged term text, rest) ∧ ¬ opening <:+: text) s

/-- No span opens between the first character of a span and its end, unless
one opens in its text. -/
theorem bars_span (hterm : ∀ c ∈ term, isNameChar c) (htext : ¬ opening <:+: text) :
    Text.Bars opening
      ("span class=\"term-".toList ++ (term ++ '"' :: '>' :: (text ++ "</span".toList)) ++ ['>']) := by
  apply Text.bars_concat (by decide)
  rw [List.append_assoc, Text.infix_append_of_bars (by decide)]
  have hassoc : term ++ '"' :: '>' :: (text ++ "</span".toList) ++ ['>'] =
      (term ++ ['"']) ++ '>' :: (text ++ closing) := by
    have : closing = "</span".toList ++ ['>'] := rfl
    simp [this]
  rw [hassoc, Text.infix_append_cons_iff (by decide) (by decide), not_or]
  constructor
  · -- an opening holds a quote, and does not end in one
    have hquote : '"' ∉ term := fun hc => by simpa [isNameChar] using hterm _ hc
    rw [List.infix_concat_iff, not_or]
    refine ⟨fun h => ?_, fun h => hquote (h.mem (by decide))⟩
    have hlast := h.getLast (by decide)
    rw [List.getLast_append_singleton] at hlast
    exact absurd hlast (by decide)
  · intro h
    rw [Text.infix_append_of_stops (by decide) (by decide)] at h
    exact h.elim htext (by decide)

/-- An opening in a text that begins with a span is that of the span, or
stands behind it, unless one opens in its text. -/
theorem suffix_write_cases (hterm : ∀ c ∈ term, isNameChar c) (htext : ¬ opening <:+: text)
    (ht : t <:+ write term text ++ rest) (hopening : opening <+: t) :
    t = write term text ++ rest ∨ t <:+ rest := by
  have hwrite : write term text ++ rest =
      '<' :: (("span class=\"term-".toList ++ (term ++ '"' :: '>' :: (text ++ "</span".toList))
        ++ ['>']) ++ rest) := by
    have hfirst : opening = '<' :: "span class=\"term-".toList := rfl
    have hclosing : closing = "</span".toList ++ ['>'] := rfl
    rw [write, hfirst, hclosing, middle]
    simp only [List.append_assoc, List.cons_append, List.nil_append]
  rw [hwrite] at ht ⊢
  rcases List.suffix_cons_iff.1 ht with h | h
  · exact Or.inl h
  · rcases Text.suffix_append_cases h with h | ⟨w, hw, hne, rfl⟩
    · exact Or.inr h
    · exact absurd hopening (((bars_span hterm htext).of_suffix hw).not_prefix_append hne)

theorem flat_write_append_iff (hterm : ∀ c ∈ term, isNameChar c)
    (hread : read? (write term text ++ rest) = some (.tagged term text, rest)) :
    Flat (write term text ++ rest) ↔ ¬ opening <:+: text ∧ Flat rest := by
  constructor
  · intro h
    refine ⟨?_, Text.Wherever.of_suffix h (List.suffix_append _ _)⟩
    obtain ⟨term', text', rest', hread', htext⟩ := h _ List.suffix_rfl (prefix_of_read? hread)
    obtain ⟨⟨rfl, rfl⟩, rfl⟩ : (term = term' ∧ text = text') ∧ rest = rest' := by
      simpa using hread.symm.trans hread'
    exact htext
  · rintro ⟨htext, hrest⟩ t ht hopening
    rcases suffix_write_cases hterm htext ht hopening with rfl | h
    · exact ⟨term, text, rest, hread, htext⟩
    · exact hrest t h hopening

/-! ### Flat texts and their runs -/

/-- The plain text in front of some runs. -/
def lead : List Run → Text
  | .plain text :: _ => text
  | _ => []

/-- A character more in front of some runs: an opening begins there, or
stands in one of the runs. -/
theorem exists_mem_before_plain (c : Char) (rs : List Run) :
    (∃ run ∈ (Run.plain [c]).before rs, opening <:+: run.content) ↔
      opening <+: c :: lead rs ∨ ∃ run ∈ rs, opening <:+: run.content := by
  have hnil : ¬ opening <:+: [] := by decide
  rcases rs with - | ⟨more | ⟨term, content⟩, rs⟩
  · simp [Run.before, Run.content, lead, List.infix_cons_iff, hnil]
  · simp [Run.before, Run.content, lead, List.infix_cons_iff, or_assoc]
  · simp [Run.before, Run.content, lead, List.infix_cons_iff, hnil]

theorem prefix_cons_lead_iff (c : Char) (h : Run.Apart rs) :
    opening <+: c :: TagStyle.proseSpan.written rs ↔ opening <+: c :: lead rs := by
  rcases rs with - | ⟨more | ⟨term, content⟩, rs⟩
  · rfl
  · have hstops : Text.Stops opening (TagStyle.proseSpan.written rs) :=
      h.stops fun term content rest => halts_write 0 term content rest
    constructor
    · intro hp
      exact Text.prefix_of_stops (u := c :: more) hstops (by simp) hp
    · intro hp
      exact hp.trans (List.prefix_append (c :: more) _)
  · have hstops : Text.Stops opening (TagStyle.proseSpan.written (.tagged term content :: rs)) :=
      halts_write 0 term content _
    constructor
    · intro hp
      exact Text.prefix_of_stops (u := [c]) hstops (by simp) hp
    · intro hp
      exact hp.trans (List.prefix_append [c] _)

/-- **A text is flat exactly if no run of it holds the opening of a span.** -/
theorem flat_iff (s : Text) :
    Flat s ↔ ∀ run ∈ TagStyle.proseSpan.runs s, ¬ opening <:+: run.content := by
  induction s using TagStyle.reading_induction TagStyle.proseSpan with
  | nil =>
    have hnil : Flat [] := Text.wherever_nil (by decide)
    simp [hnil]
  | skip c s h ih =>
    have hfront := prefix_cons_lead_iff c (TagStyle.proseSpan.apart_runs s)
    rw [TagStyle.written_runs] at hfront
    have hnone : ¬ ∃ term text rest,
        read? (c :: s) = some (.tagged term text, rest) ∧ ¬ opening <:+: text := by
      rintro ⟨term, text, rest, hread, -⟩
      exact absurd (h.symm.trans hread) (by simp)
    have hflat : Flat (c :: s) ↔ ¬ opening <+: c :: s ∧ Flat s := by
      rw [Flat, Text.wherever_cons_iff, imp_iff_not hnone]
      rfl
    have hbefore := exists_mem_before_plain c (TagStyle.proseSpan.runs s)
    rw [hflat, hfront, ih, TagStyle.runs_cons _ h]
    rw [← not_iff_not] at hbefore
    simpa using hbefore.symm
  | plain s text rest h ih =>
    -- spans are never read as plain text
    obtain ⟨term, text', hrun, -⟩ := read?_eq_some_iff.1 h
    cases hrun
  | tagged s term text rest h ihText ihRest =>
    have hruns := TagStyle.runs_of_read? _ h
    have h' : read? s = some (.tagged term text, rest) := h
    obtain ⟨term', text', hrun, rfl, hterm, -⟩ := read?_eq_some_iff.1 h'
    obtain ⟨rfl, rfl⟩ := Run.tagged.inj hrun
    rw [flat_write_append_iff hterm h', ihRest, hruns]
    simp [Run.before, Run.content]

/-! ### Written spans -/

/-- **The spans written for some references are flat**, if the author wrote
no opening of a span and the names fit into spans. -/
theorem flat_writeAll
    (hfs : EveryAll (fun term body => (∀ c ∈ term, isNameChar c) ∧ ∃ text, body = [.plain text]) fs)
    (hclean : ¬ opening <:+: writeAll Reference.write fs) : Flat (writeAll write fs) := by
  induction fs using Fragment.forest_induction with
  | nil =>
    rw [Fragment.writeAll_nil]
    exact Text.wherever_nil (by decide)
  | plain text fs ih =>
    rw [Fragment.writeAll_plain] at hclean ⊢
    have hrest := ih (Fragment.everyAll_plain.1 hfs) fun h =>
      hclean (h.trans (List.suffix_append _ _).isInfix)
    intro t ht hopening
    rcases Text.suffix_append_cases ht with h | ⟨w, hw, hne, rfl⟩
    · exact hrest t h hopening
    · exact absurd hopening (Fragment.not_prefix_append_writeAll halts_write hclean hw hne)
  | tagged term body fs ihBody ihRest =>
    obtain ⟨⟨⟨hterm, text, rfl⟩, -⟩, hrest⟩ := Fragment.everyAll_tagged.1 hfs
    rw [Fragment.writeAll_tagged] at hclean ⊢
    have hwritten : writeAll Reference.write [.plain text] = text := by simp
    have hwritten' : writeAll write [.plain text] = text := by simp
    rw [hwritten] at hclean
    rw [hwritten']
    have htext := Reference.not_infix_display hclean
    have hrest' := ihRest hrest fun h => hclean (h.trans (List.suffix_append _ _).isInfix)
    intro t ht hopening
    rcases suffix_write_cases hterm htext ht hopening with rfl | h
    · obtain ⟨before, w, hread, hbefore, -⟩ := exists_read?_write hterm htext (writeAll write fs)
      exact ⟨term, before, _, hread, fun h => htext (h.trans hbefore.isInfix)⟩
    · exact hrest' t h hopening

end ProseSpan

end AnnotatedEquation
