/-
AnnotatedEquation/Proofs/Markup/Visiting.lean

Visiting the runs of a description from left to right, told in positions.

* `ProseSpan.IsSpan` says what a span of a description is, judged by the
  whole text;
* `ProseSpan.visitFrom` goes along the text with two positions: where the text
  behind the last span begins, and where to look for the next opening.  An
  opening that begins no span moves the second one only, so that it gets into
  the run of text around it.

Main statement: this visits the runs of the text, which are the text cut at the
spans that are picked from left to right, each the first one behind the one
before it (`ProseSpan.visiting_tiles_description`).
-/
import AnnotatedEquation.Proofs.Markup.Place
import AnnotatedEquation.Proofs.Markup.Reading

namespace AnnotatedEquation

open TagPlace (First From Leftmost)

namespace ProseSpan

variable {s t term text rest : Text} {f g : TagPlace} {fs : List TagPlace} {pos start textFrom : Nat}

/-! ### Spans -/

/-- What a span begins with, up to its text. -/
def header (term : Text) : Text := opening ++ term ++ middle

/-- The position behind the header of a span. -/
def contentFrom (f : TagPlace) : Nat := f.start + (header f.term).length

/-- A name that holds no quote and no `>`. -/
abbrev IsName (term : Text) : Prop := '"' ∉ term ∧ '>' ∉ term

/-- A span: its header stands there, with the name of a term, and its text ends
at the first closing tag. -/
def IsSpan (s : Text) (f : TagPlace) : Prop :=
  (IsName f.term ∧ header f.term <+: s.drop f.start) ∧
    (Text.find? closing s (contentFrom f)).map (· + closing.length) = some f.stop ∧
    f.content = s.extract (contentFrom f) (f.stop - closing.length)

instance : Decidable (IsSpan s f) := inferInstanceAs (Decidable (_ ∧ _))

theorem write_eq_header (term text : Text) :
    write term text = header term ++ (text ++ closing) := by
  simp [write, header]

theorem forall_isNameChar_iff : (∀ c ∈ term, isNameChar c) ↔ IsName term := by
  constructor
  · intro h
    exact ⟨fun hq => absurd (h _ hq) (by decide), fun hg => absurd (h _ hg) (by decide)⟩
  · rintro ⟨hquote, hangle⟩ c hc
    have hq : c ≠ '"' := fun e => hquote (e ▸ hc)
    have ha : c ≠ '>' := fun e => hangle (e ▸ hc)
    simp [isNameChar, hq, ha]

/-- The first closing tag behind a position is that of the text that stands
there. -/
theorem find?_closing_iff {k stop : Nat} :
    ((Text.find? closing s k).map (· + closing.length) = some stop ∧
        text = s.extract k (stop - closing.length)) ↔
      Text.cutAt? closing (s.drop k) = some (text, s.drop stop) ∧
        stop = k + (text ++ closing).length := by
  constructor
  · rintro ⟨hfind, htext⟩
    simp only [Text.find?, Option.map_map, Option.map_eq_some_iff, Prod.exists,
      Function.comp_apply] at hfind
    obtain ⟨inside, rest, hcut, hstop⟩ := hfind
    have hs : s.drop k = inside ++ (closing ++ rest) := by
      simpa using Text.eq_of_cutAt? hcut
    obtain rfl : text = inside := by
      rw [htext, ← hstop, Nat.add_sub_cancel]
      exact (Text.eq_of_drop_eq_append hs).1
    have hstop : stop = k + (text ++ closing).length := by
      rw [← hstop, List.length_append, Nat.add_assoc]
    have hrest : s.drop stop = rest := by
      rw [hstop]
      exact (Text.eq_of_drop_eq_append (by rw [hs, List.append_assoc])).2
    exact ⟨by rw [hcut, hrest], hstop⟩
  · rintro ⟨hcut, hstop⟩
    have hs : s.drop k = text ++ (closing ++ s.drop stop) := by
      simpa using Text.eq_of_cutAt? hcut
    have hlast : stop - closing.length = k + text.length := by
      rw [hstop, List.length_append]
      omega
    refine ⟨?_, ?_⟩
    · rw [Text.find?, hcut, hstop]
      simp [Nat.add_assoc]
    · rw [hlast]
      exact (Text.eq_of_drop_eq_append hs).1.symm

/-- **A span is what is read at its position.** -/
theorem reads_iff : TagStyle.proseSpan.Reads s f ↔ IsSpan s f := by
  rw [IsSpan, find?_closing_iff, ← forall_isNameChar_iff]
  constructor
  · rintro ⟨hread, hstop⟩
    obtain ⟨term, text, hrun, hs, hterm, htext⟩ := read?_eq_some_iff.1 hread
    obtain ⟨hterm', htext'⟩ := Run.tagged.inj hrun
    rw [← hterm', ← htext', write_eq_header, List.append_assoc, List.append_assoc] at hs
    have hdrop := (Text.eq_of_drop_eq_append hs).2
    refine ⟨⟨hterm' ▸ hterm, _, hs.symm⟩, ?_, ?_⟩
    · rw [contentFrom, hdrop]
      exact (Text.cutAt?_eq_some_iff (by decide)).2 ⟨rfl, htext' ▸ htext⟩
    · change f.stop = f.start + (write f.term f.content).length at hstop
      rw [hstop, write_eq_header, List.length_append, contentFrom, Nat.add_assoc]
  · rintro ⟨⟨hterm, t, ht⟩, hcut, hstop⟩
    have hdrop : s.drop (contentFrom f) = t := (Text.eq_of_drop_eq_append ht.symm).2
    obtain ⟨hs, htext⟩ := (Text.cutAt?_eq_some_iff (by decide)).1 hcut
    refine ⟨read?_eq_some_iff.2 ⟨f.term, f.content, rfl, ?_, hterm, htext⟩, ?_⟩
    · rw [← ht, ← hdrop, hs, write_eq_header]
      simp
    · change f.stop = f.start + (write f.term f.content).length
      simp only [hstop, write_eq_header, contentFrom, List.length_append, Nat.add_assoc]

theorem read?_ne_plain : read? t ≠ some (.plain text, rest) := by
  intro h
  obtain ⟨_, _, hrun, -⟩ := read?_eq_some_iff.1 h
  cases hrun

/-! ### Spans found by position -/

theorem IsSpan.prefix_opening (h : IsSpan s f) : opening <+: s.drop f.start := by
  obtain ⟨⟨-, t, ht⟩, -⟩ := h
  exact ⟨f.term ++ (middle ++ t), by rw [← ht, header]; simp⟩

/-- The name of a span ends where `">` stands next. -/
theorem IsSpan.find?_middle (h : IsSpan s f) :
    Text.find? middle s (f.start + opening.length) =
      some (f.start + opening.length + f.term.length) := by
  obtain ⟨⟨⟨hquote, -⟩, t, ht⟩, -⟩ := h
  have hs : s.drop f.start = opening ++ (f.term ++ (middle ++ t)) := by
    rw [← ht, header]
    simp
  have hcut : Text.cutAt? middle (f.term ++ (middle ++ t)) = some (f.term, t) := by
    refine (Text.cutAt?_eq_some_iff (by decide)).2 ⟨rfl, fun w hw hne hin => ?_⟩
    obtain ⟨c, w, rfl⟩ := List.exists_cons_of_ne_nil hne
    obtain rfl : '"' = c := (List.cons_prefix_cons.1 hin).1
    exact hquote (hw.mem List.mem_cons_self)
  rw [Text.find?, (Text.eq_of_drop_eq_append hs).2, hcut]
  rfl

/-- What the next `">` behind an opening tells of a span that begins there. -/
theorem IsSpan.eq_of_find?_middle {tagEnd : Nat} (h : IsSpan s f)
    (hmiddle : Text.find? middle s (f.start + opening.length) = some tagEnd) :
    s.extract (f.start + opening.length) tagEnd = f.term ∧
      contentFrom f = tagEnd + middle.length := by
  obtain rfl : f.start + opening.length + f.term.length = tagEnd :=
    Option.some.inj (h.find?_middle.symm.trans hmiddle)
  obtain ⟨⟨-, t, ht⟩, -⟩ := h
  have hs : s.drop f.start = opening ++ (f.term ++ (middle ++ t)) := by
    rw [← ht, header]
    simp
  have hdrop := (Text.eq_of_drop_eq_append hs).2
  refine ⟨(Text.eq_of_drop_eq_append hdrop).1, ?_⟩
  simp [contentFrom, header, Nat.add_assoc]

/-- An opening with a name, the end of its tag and a closing tag behind it
begins a span. -/
theorem isSpan_of_find? {tagEnd close : Nat} (hopening : opening <+: s.drop start)
    (hmiddle : Text.find? middle s (start + opening.length) = some tagEnd)
    (hclosing : Text.find? closing s (tagEnd + middle.length) = some close)
    (hterm : s.extract (start + opening.length) tagEnd = term)
    (hname : IsName term) :
    IsSpan s ⟨start, close + closing.length, term, s.extract (tagEnd + middle.length) close⟩ := by
  obtain ⟨t, ht⟩ := hopening
  have hdrop := Text.eq_of_find? hmiddle
  have hheader : header term ++ s.drop (tagEnd + middle.length) = s.drop start := by
    rw [header, List.append_assoc, List.append_assoc, ← hterm, ← hdrop, ← ht,
      (Text.eq_of_drop_eq_append ht.symm).2]
  have hcontent : start + (header term).length = tagEnd + middle.length := by
    have hle := Text.le_of_find? hmiddle
    have hlt := Text.lt_length_of_find? (by decide) hmiddle
    rw [header, ← hterm, List.length_append, List.length_append,
      Text.length_extract (Nat.le_of_lt hlt)]
    omega
  refine ⟨⟨hname, _, hheader⟩, ?_, ?_⟩
  · rw [contentFrom, hcontent, hclosing]
    rfl
  · rw [contentFrom, hcontent, Nat.add_sub_cancel]

/-! ### Going along the text -/

section

variable {m : Type → Type} [Monad m] (onText : Text → m Text) (onSpan : Text → Text → m Text)

/-- Visits the stretch of a text as one run, if there is any text in it. -/
def visitText (s : Text) (i j : Nat) : m Text :=
  if i < j then onText (s.extract i j) else pure []

/-- Visits the text from `textFrom` on, where no span begins before `pos`. -/
def visitFrom (s : Text) (textFrom pos : Nat) : m Text :=
  match _hstart : Text.find? opening s pos with
  | none => visitText onText s textFrom s.length
  | some start =>
    match _hmiddle : Text.find? middle s (start + opening.length) with
    | none => visitText onText s textFrom s.length
    | some tagEnd =>
      match _hclosing : Text.find? closing s (tagEnd + middle.length) with
      | none => visitFrom s textFrom (start + 1)
      | some close =>
        if IsName (s.extract (start + opening.length) tagEnd) then do
          let before ← visitText onText s textFrom start
          let new ← onSpan (s.extract (start + opening.length) tagEnd)
            (s.extract (tagEnd + middle.length) close)
          let after ← visitFrom s (close + closing.length) (close + closing.length)
          return before ++ new ++ after
        else visitFrom s textFrom (start + 1)
termination_by s.length - pos
decreasing_by
  all_goals
    have hpos := Text.le_of_find? _hstart
    have hlength := Text.lt_length_of_find? (by decide) _hstart
  · omega
  · have hmiddle := Text.le_of_find? _hmiddle
    have hclosing := Text.le_of_find? _hclosing
    have : 0 < closing.length := by decide
    omega
  · omega

/-- Visits a run. -/
def visitRun : Run → m Text
  | .plain text => onText text
  | .tagged term text => onSpan term text

/-- No span begins before the next opening. -/
theorem start_le_of_from (hstart : Text.find? opening s pos = some start)
    (h : From (IsSpan s) pos f) : start ≤ f.start :=
  Text.find?_le_of_prefix hstart h.1 h.2.prefix_opening

/-- An opening that begins no span is passed over. -/
theorem from_iff_of_no_span (hstart : Text.find? opening s pos = some start)
    (h : ∀ g, IsSpan s g → g.start ≠ start) :
    From (IsSpan s) pos f ↔ From (IsSpan s) (start + 1) f := by
  refine TagPlace.from_iff_of_passed (Nat.le_succ_of_le (Text.le_of_find? hstart)) fun g hg => ?_
  have hle := start_le_of_from hstart hg
  have hne := h g hg.2
  omega

theorem visitText_bind [LawfulMonad m] {i j : Nat} (hj : j ≤ s.length) (rs : List Run) :
    (do
      let before ← visitText onText s i j
      let after ← List.flatten <$> rs.mapM (visitRun onText onSpan)
      return before ++ after) =
    List.flatten <$> (plainRuns (s.extract i j) ++ rs).mapM (visitRun onText onSpan) := by
  by_cases h : i < j
  · have hne : s.extract i j ≠ [] := by
      rw [ne_eq, Text.extract_eq_nil_iff hj]
      omega
    simp [visitText, plainRuns, h, hne, visitRun]
  · have hnil : s.extract i j = [] := (Text.extract_eq_nil_iff hj).2 (by omega)
    simp [visitText, plainRuns, h, hnil]

theorem visitText_length [LawfulMonad m] (s : Text) (i : Nat) :
    visitText onText s i s.length =
      List.flatten <$> (cutFrom s i []).mapM (visitRun onText onSpan) := by
  have hall : s.extract i s.length = s.drop i := by
    rw [List.extract, List.take_of_length_le (by simp)]
  have h := visitText_bind onText onSpan (i := i) (Nat.le_refl s.length) []
  rw [List.append_nil, hall] at h
  simpa [cutFrom] using h

/-- **Going along a text visits the runs between its spans, and these.** -/
theorem visitFrom_eq [LawfulMonad m] (hfs : Leftmost (From (IsSpan s)) pos fs) :
    visitFrom onText onSpan s textFrom pos =
      List.flatten <$> (cutFrom s textFrom fs).mapM (visitRun onText onSpan) := by
  fun_induction visitFrom onText onSpan s textFrom pos generalizing fs with
  | case1 textFrom pos hstart =>
    cases fs with
    | nil => exact visitText_length onText onSpan s textFrom
    | cons f fs =>
      obtain ⟨hf, -⟩ := hfs.1
      exact absurd hf.2.prefix_opening (Text.not_prefix_of_find?_eq_none hstart hf.1)
  | case2 textFrom pos start hstart hmiddle =>
    cases fs with
    | nil => exact visitText_length onText onSpan s textFrom
    | cons f fs =>
      -- behind the opening of a span its tag would end
      obtain ⟨hf, -⟩ := hfs.1
      have hle := start_le_of_from hstart hf
      have hin := Text.prefix_of_find? hf.2.find?_middle
      exact absurd hin (Text.not_prefix_of_find?_eq_none hmiddle (by omega))
  | case3 textFrom pos start hstart tagEnd hmiddle hclosing ih =>
    refine ih (hfs.congr fun f => from_iff_of_no_span hstart fun g hg hstart => ?_)
    -- a span would have a closing tag behind it
    subst hstart
    have hclose := hg.2.1
    rw [(hg.eq_of_find?_middle hmiddle).2, hclosing] at hclose
    cases hclose
  | case4 textFrom pos start hstart tagEnd hmiddle close hclosing hname ih =>
    have hspan := isSpan_of_find? (Text.prefix_of_find? hstart) hmiddle hclosing rfl hname
    have hfirst : First (From (IsSpan s) pos) ⟨start, close + closing.length, _, _⟩ :=
      ⟨⟨Text.le_of_find? hstart, hspan⟩, fun g hg => start_le_of_from hstart hg⟩
    obtain ⟨fs, rfl, hrest⟩ := hfs.exists_eq_cons
      (fun hf hg => TagStyle.Reads.unique (reads_iff.2 hf.2) (reads_iff.2 hg.2)) hfirst
    have hlength := Nat.le_of_lt (reads_iff.2 hspan).start_lt_length
    rw [cutFrom, ← visitText_bind onText onSpan hlength, ih hrest]
    simp [visitRun]
  | case5 textFrom pos start hstart tagEnd hmiddle close hclosing hname ih =>
    refine ih (hfs.congr fun f => from_iff_of_no_span hstart fun g hg hstart => ?_)
    -- a span would have this name
    subst hstart
    rw [(hg.eq_of_find?_middle hmiddle).1] at hname
    exact hname hg.1.1

end

/-! ### The tiling -/

theorem leftmost_places (s : Text) :
    Leftmost (From (IsSpan s)) 0 (TagStyle.proseSpan.places s) := by
  have hreads : TagStyle.proseSpan.Reads s = IsSpan s := funext fun f => propext reads_iff
  rw [← hreads]
  exact TagStyle.leftmost_places_of_tagged read?_ne_plain s

/-- **Going along a description tiles it with the runs that are visited.**
The runs are visited from left to right, and what the visits give is put
together in that order; the runs, as they are written, are the text, those
without a term are not empty, and no two of them are side by side.  The runs
with a term are the spans that are picked from left to right, each the first
one behind the one before it. -/
theorem visiting_tiles_description {m : Type → Type} [Monad m] [LawfulMonad m]
    (onText : Text → m Text) (onSpan : Text → Text → m Text) (s : Text) :
    visitFrom onText onSpan s 0 0 =
      List.flatten <$> (TagStyle.proseSpan.runs s).mapM (visitRun onText onSpan) ∧
    ((TagStyle.proseSpan.runs s).flatMap (Run.written write) = s ∧
      (∀ text, .plain text ∈ TagStyle.proseSpan.runs s → text ≠ []) ∧
      Run.Apart (TagStyle.proseSpan.runs s)) ∧
    TagStyle.proseSpan.runs s = cutFrom s 0 (TagStyle.proseSpan.places s) ∧
    Leftmost (fun pos f => pos ≤ f.start ∧ IsSpan s f) 0 (TagStyle.proseSpan.places s) ∧
    TagStyle.proseSpan.terms s = (TagStyle.proseSpan.places s).map TagPlace.term := by
  have hruns := TagStyle.runs_eq_cut .proseSpan s
  refine ⟨?_, ⟨TagStyle.written_runs .proseSpan s, fun text htext => ?_,
    TagStyle.apart_runs .proseSpan s⟩, hruns, leftmost_places s,
    TagStyle.terms_eq_map_places .proseSpan s⟩
  · rw [hruns]
    exact visitFrom_eq onText onSpan (leftmost_places s)
  · exact TagStyle.plain_ne_nil_of_mem_runs .proseSpan htext

/-- An opening in front of a span gets into the text before it. -/
theorem visiting_broken_opening :
    let s := "<span class=\"term-<span class=\"term-b\">x</span> <span class=\"term-".toList
    visitFrom (m := Id) (fun text => pure ('(' :: text ++ [')']))
        (fun term text => pure ('<' :: term ++ ':' :: text ++ ['>'])) s 0 0 =
      "(<span class=\"term-)<b:x>( <span class=\"term-)".toList := by
  intro s
  obtain ⟨hvisit, -⟩ := visiting_tiles_description (m := Id)
    (fun text => pure ('(' :: text ++ [')'])) (fun term text =>
      pure ('<' :: term ++ ':' :: text ++ ['>'])) s
  have hruns : TagStyle.proseSpan.runs s = [.plain "<span class=\"term-".toList,
      .tagged ['b'] ['x'], .plain " <span class=\"term-".toList] := by decide +kernel
  rw [hvisit, hruns]
  rfl

end ProseSpan

end AnnotatedEquation
