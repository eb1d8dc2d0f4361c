/-
AnnotatedEquation/Proofs/Source/Scanning.lean

Scanning a line of the description for references, told in positions.

* `Reference.IsReference` says what a reference is, judged by the whole line;
* `Reference.scanFrom` goes along the line from bracket to bracket.  A bracket
  that begins no reference is copied, and the search goes on right behind it,
  whatever is missing;
* `Reference.pattern` is the grammar of references as a pattern.

Main statement: scanning puts a span in place of each reference that is picked
from left to right, and gives their names, which is what one pass with the
pattern does (`Reference.scanning_substitutes_pattern`).
-/
import AnnotatedEquation.Proofs.Markup.Place
import AnnotatedEquation.Proofs.Source.References
import AnnotatedEquation.Proofs.Text.Pattern

namespace AnnotatedEquation

open TagPlace (First From Leftmost)

namespace Reference

variable {line s t term display text rest : Text} {gs : List Text} {f g : TagPlace}
  {fs : List TagPlace} {pos start : Nat}

/-! ### References -/

/-- A reference: its writing stands there, with a name and a text that are not
empty and end at the first closing delimiters. -/
def IsReference (line : Text) (f : TagPlace) : Prop :=
  (write f.term f.content <+: line.drop f.start ∧
      f.stop = f.start + (write f.term f.content).length) ∧
    (f.content ≠ [] ∧ ']' ∉ f.content) ∧ f.term ≠ [] ∧ '}' ∉ f.term

instance : Decidable (IsReference line f) := inferInstanceAs (Decidable (_ ∧ _))

theorem read?_eq_some_tagged_iff :
    read? s = some (.tagged term display, rest) ↔
      s = write term display ++ rest ∧ (display ≠ [] ∧ ']' ∉ display) ∧ term ≠ [] ∧ '}' ∉ term := by
  rw [read?_eq_some_iff]
  constructor
  · rintro ⟨term', display', hrun, h⟩
    obtain ⟨rfl, rfl⟩ := Run.tagged.inj hrun
    exact h
  · exact fun h => ⟨term, display, rfl, h⟩

theorem read?_ne_plain : read? t ≠ some (.plain text, rest) := by
  intro h
  obtain ⟨_, _, hrun, -⟩ := read?_eq_some_iff.1 h
  cases hrun

/-- **A reference is what is read at its position.** -/
theorem reads_iff : TagStyle.reference.Reads line f ↔ IsReference line f := by
  constructor
  · rintro ⟨hread, hstop⟩
    obtain ⟨hs, hparts⟩ := read?_eq_some_tagged_iff.1 hread
    exact ⟨⟨⟨_, hs.symm⟩, hstop⟩, hparts⟩
  · rintro ⟨⟨⟨rest, hs⟩, hstop⟩, hparts⟩
    have hrest : line.drop f.stop = rest := by
      rw [hstop]
      exact (Text.eq_of_drop_eq_append hs.symm).2
    exact ⟨read?_eq_some_tagged_iff.2 ⟨by rw [hrest, hs], hparts⟩, hstop⟩

/-! ### Scanning from bracket to bracket -/

/-- The reference that begins with the bracket at a position. -/
def reference? (line : Text) (start : Nat) : Option TagPlace :=
  match Text.find? [']'] line (start + 1) with
  | none => none
  | some displayEnd =>
    if line.extract (displayEnd + 1) (displayEnd + 3) = ['{', '.'] then
      match Text.find? ['}'] line (displayEnd + 3) with
      | none => none
      | some termEnd =>
        let display := line.extract (start + 1) displayEnd
        let term := line.extract (displayEnd + 3) termEnd
        if display = [] ∨ term = [] then none else some ⟨start, termEnd + 1, term, display⟩
    else none

theorem reference?_of_isReference (h : IsReference line f) :
    reference? line f.start = some f := by
  obtain ⟨⟨⟨rest, hs⟩, hstop⟩, ⟨hdisplay, hbracket⟩, hterm, hbrace⟩ := h
  have hfront : line.drop f.start =
      ['['] ++ (f.content ++ ']' :: (['{', '.'] ++ (f.term ++ '}' :: rest))) := by
    rw [← hs, write]
    simp
  have hs₁ : line.drop (f.start + 1) =
      f.content ++ ']' :: (['{', '.'] ++ (f.term ++ '}' :: rest)) :=
    (Text.eq_of_drop_eq_append hfront).2
  have hs₂ : line.drop (f.start + 1 + f.content.length + 1) =
      ['{', '.'] ++ (f.term ++ '}' :: rest) := by
    rw [← List.drop_drop, (Text.eq_of_drop_eq_append hs₁).2]
    rfl
  obtain ⟨hopening, hs₃⟩ := Text.eq_of_drop_eq_append hs₂
  have hopening : line.extract (f.start + 1 + f.content.length + 1)
      (f.start + 1 + f.content.length + 3) = ['{', '.'] := hopening
  have hs₃ : line.drop (f.start + 1 + f.content.length + 3) = f.term ++ '}' :: rest := hs₃
  have hlength : f.start + 1 + f.content.length + 3 + f.term.length + 1 = f.stop := by
    rw [hstop, write]
    simp
    omega
  rw [reference?, Text.find?_singleton_of_drop hs₁ hbracket]
  simp only [hopening, if_true, Text.find?_singleton_of_drop hs₃ hbrace,
    (Text.eq_of_drop_eq_append hs₁).1, (Text.eq_of_drop_eq_append hs₃).1, hdisplay, hterm,
    or_self, if_false, hlength]

theorem isReference_of_reference? (hstart : ['['] <+: line.drop start)
    (h : reference? line start = some f) : f.start = start ∧ IsReference line f := by
  obtain ⟨s₁, hs₁⟩ := hstart
  rw [reference?] at h
  split at h
  · cases h
  next displayEnd hdisplay =>
  split at h
  · next hopening =>
    split at h
    · cases h
    next termEnd hterm =>
    dsimp only at h
    split at h
    · cases h
    next hne =>
    obtain rfl := Option.some.inj h
    obtain ⟨hs₂, hbracket⟩ := Text.eq_of_find?_singleton hdisplay
    have hs₃ := Text.extract_append_drop (s := line) (i := displayEnd + 1) (j := displayEnd + 3)
      (by omega)
    rw [hopening] at hs₃
    obtain ⟨hs₄, hbrace⟩ := Text.eq_of_find?_singleton hterm
    -- where the parts end is where they are found to end
    have hend := Option.some.inj (hdisplay.symm.trans (Text.find?_singleton_of_drop hs₂ hbracket))
    have hend' := Option.some.inj (hterm.symm.trans (Text.find?_singleton_of_drop hs₄ hbrace))
    rw [not_or] at hne
    refine ⟨rfl, ⟨⟨line.drop (termEnd + 1), ?_⟩, ?_⟩, ⟨hne.1, hbracket⟩, hne.2, hbrace⟩
    · have hrest : line.drop (start + 1) = s₁ := (Text.eq_of_drop_eq_append hs₁.symm).2
      rw [write, ← hs₁, ← hrest, hs₂, ← hs₃, hs₄]
      simp
    · simp only [write, List.length_append, List.length_cons, List.length_nil]
      omega
  · cases h

/-- Scans the line from `pos` on: what is written for it, and the names of the
references. -/
def scanFrom (line : Text) (pos : Nat) : Text × List Text :=
  match _hstart : Text.find? ['['] line pos with
  | none => (line.drop pos, [])
  | some start =>
    match _href : reference? line start with
    | none => (scanFrom line (start + 1)).map (line.extract pos start ++ ['['] ++ ·) id
    | some f =>
      (scanFrom line f.stop).map
        (line.extract pos start ++ ProseSpan.write f.term f.content ++ ·) (f.term :: ·)
termination_by line.length - pos
decreasing_by
  all_goals
    have hpos := Text.le_of_find? _hstart
    have hlength := Text.lt_length_of_find? (by decide) _hstart
  · omega
  · obtain ⟨rfl, href⟩ := isReference_of_reference? (Text.prefix_of_find? _hstart) _href
    have hstop := (reads_iff.2 href).start_lt_stop
    omega

theorem IsReference.bracket (h : IsReference line f) : ['['] <+: line.drop f.start := by
  obtain ⟨⟨⟨rest, hs⟩, -⟩, -⟩ := h
  rw [← hs, write]
  simp

/-- No reference begins before the next bracket. -/
theorem start_le_of_from (hstart : Text.find? ['['] line pos = some start)
    (h : From (IsReference line) pos f) : start ≤ f.start :=
  Text.find?_le_of_prefix hstart h.1 h.2.bracket

/-- A bracket that begins no reference is passed over. -/
theorem from_iff_of_no_reference (hstart : Text.find? ['['] line pos = some start)
    (href : reference? line start = none) :
    From (IsReference line) pos f ↔ From (IsReference line) (start + 1) f := by
  refine TagPlace.from_iff_of_passed (Nat.le_succ_of_le (Text.le_of_find? hstart)) fun g hg => ?_
  have hle := start_le_of_from hstart hg
  have hne : g.start ≠ start := by
    rintro rfl
    cases href.symm.trans (reference?_of_isReference hg.2)
  omega

/-- **Scanning puts spans in place of the references** that are picked from
left to right. -/
theorem scanFrom_eq (hfs : Leftmost (From (IsReference line)) pos fs) :
    scanFrom line pos =
      (weaveFrom line pos (fs.map fun f => (f, ProseSpan.write f.term f.content)),
        fs.map TagPlace.term) := by
  fun_induction scanFrom line pos generalizing fs with
  | case1 pos hstart =>
    cases fs with
    | nil => rfl
    | cons f fs =>
      obtain ⟨hf, -⟩ := hfs.1
      exact absurd hf.2.bracket (Text.not_prefix_of_find?_eq_none hstart hf.1)
  | case2 pos start hstart href ih =>
    have hrest := hfs.congr fun f => from_iff_of_no_reference hstart href
    have hle := Text.le_of_find? hstart
    obtain ⟨t, ht⟩ := Text.prefix_of_find? hstart
    have hbracket : line.extract start (start + 1) = ['['] :=
      (Text.eq_of_drop_eq_append ht.symm).1
    have hextract : line.extract pos (start + 1) = line.extract pos start ++ ['['] := by
      rw [← hbracket, Text.extract_append_extract hle (Nat.le_succ start)]
    have hhead : ∀ f ∈ ((fs.map fun f => (f, ProseSpan.write f.term f.content)).map
        Prod.fst).head?, start + 1 ≤ f.start := by
      rcases fs with - | ⟨f, fs⟩
      · simp
      · simpa using hrest.1.1.1
    rw [ih hrest, weaveFrom_eq_append (Nat.le_succ_of_le hle) hhead, hextract]
    rfl
  | case3 pos start hstart f href ih =>
    obtain ⟨rfl, hspan⟩ := isReference_of_reference? (Text.prefix_of_find? hstart) href
    have hfirst : First (From (IsReference line) pos) f :=
      ⟨⟨Text.le_of_find? hstart, hspan⟩, fun g hg => start_le_of_from hstart hg⟩
    obtain ⟨fs, rfl, hrest⟩ := hfs.exists_eq_cons
      (fun hf hg => TagStyle.Reads.unique (reads_iff.2 hf.2) (reads_iff.2 hg.2)) hfirst
    rw [ih hrest]
    simp [weaveFrom]

/-! ### The grammar of references -/

/-- A reference as a pattern: `\[([^\]]+)\]\{\.([^}]+)\}`. -/
def pattern : Pattern :=
  .next (.one (· = '[')) <| .next (.group (.many (· ≠ ']'))) <| .next (.one (· = ']')) <|
    .next (.one (· = '{')) <| .next (.one (· = '.')) <| .next (.group (.many (· ≠ '}'))) <|
      .one (· = '}')

/-- The span in place of a reference, from the groups of the pattern. -/
def replacement : List Text → Text
  | [display, term] => ProseSpan.write term display
  | _ => []

theorem fits_pattern_iff :
    pattern.Fits t gs ↔ ∃ term display, t = write term display ∧ gs = [display, term] ∧
      (display ≠ [] ∧ ']' ∉ display) ∧ term ≠ [] ∧ '}' ∉ term := by
  rw [pattern]
  simp only [Pattern.fits_one_next_iff, Pattern.fits_group_many_next_iff, Pattern.fits_one_iff]
  constructor
  · rintro ⟨_, rfl, display, _, _, rfl, rfl, hdisplay, _, rfl, _, rfl, _, rfl, term, _, _, rfl,
      rfl, hterm, rfl, rfl⟩
    exact ⟨term, display, by simp [write], rfl, hdisplay, hterm⟩
  · rintro ⟨term, display, rfl, rfl, hdisplay, hterm⟩
    exact ⟨_, by simp [write], display, _, _, rfl, rfl, hdisplay, _, rfl, _, rfl, _, rfl, term, _,
      _, rfl, rfl, hterm, rfl, rfl⟩

theorem mem_ways_pattern_iff {w : Pattern.Way} :
    w ∈ pattern.ways s ↔ ∃ term display, read? s = some (.tagged term display, w.rest) ∧
      w.taken = write term display ∧ w.groups = [display, term] := by
  rw [Pattern.mem_ways_iff, fits_pattern_iff]
  constructor
  · rintro ⟨⟨term, display, htaken, hgroups, hparts⟩, hs⟩
    exact ⟨term, display, read?_eq_some_tagged_iff.2 ⟨by rw [hs, htaken], hparts⟩, htaken, hgroups⟩
  · rintro ⟨term, display, hread, htaken, hgroups⟩
    obtain ⟨hs, hparts⟩ := read?_eq_some_tagged_iff.1 hread
    exact ⟨⟨term, display, htaken, hgroups, hparts⟩, by rw [hs, htaken]⟩

/-- The pattern fits where a reference is read, and there in one way only. -/
theorem first?_eq_some (h : read? s = some (.tagged term display, rest)) :
    pattern.first? s = some ⟨write term display, [display, term], rest⟩ := by
  have hmem : ⟨write term display, [display, term], rest⟩ ∈ pattern.ways s :=
    mem_ways_pattern_iff.2 ⟨term, display, h, rfl, rfl⟩
  rcases hfirst : pattern.first? s with - | w
  · rw [Pattern.first?, List.head?_eq_none_iff] at hfirst
    rw [hfirst] at hmem
    cases hmem
  · obtain ⟨term', display', hread, htaken, hgroups⟩ :=
      mem_ways_pattern_iff.1 (Pattern.mem_ways_of_first? hfirst)
    obtain ⟨hrun, hrest⟩ := Prod.mk.inj (Option.some.inj (h.symm.trans hread))
    obtain ⟨rfl, rfl⟩ := Run.tagged.inj hrun
    rw [← htaken, ← hgroups, hrest]

theorem first?_eq_none (h : read? s = none) : pattern.first? s = none := by
  rw [Option.eq_none_iff_forall_ne_some]
  intro w hfirst
  obtain ⟨term, display, hread, -⟩ := mem_ways_pattern_iff.1 (Pattern.mem_ways_of_first? hfirst)
  cases h.symm.trans hread

theorem written_eq_substitute (line : Text) :
    TagStyle.proseSpan.written (TagStyle.reference.runs line) =
      pattern.substitute replacement line := by
  change TagStyle.reference.rewriteRuns ProseSpan.write line = _
  induction line using TagStyle.reading_induction TagStyle.reference with
  | nil => simp [Pattern.substitute]
  | skip c s h ih =>
    rw [TagStyle.rewriteRuns_cons _ h, ih, Pattern.substitute, Pattern.substitute,
      Pattern.pieces_cons (first?_eq_none h)]
    rfl
  | plain s text rest h ih => exact absurd h read?_ne_plain
  | tagged s term content rest h _ ih =>
    rw [TagStyle.rewriteRuns_of_tagged _ h, ih, Pattern.substitute, Pattern.substitute,
      Pattern.pieces_of_first? (first?_eq_some h)]
    rfl

theorem terms_eq_findAll (line : Text) :
    TagStyle.reference.terms line = (pattern.findAll line).filterMap (·[1]?) := by
  induction line using TagStyle.reading_induction TagStyle.reference with
  | nil => simp [Pattern.findAll, TagStyle.terms]
  | skip c s h ih =>
    rw [TagStyle.terms_cons _ h, ih, Pattern.findAll, Pattern.findAll,
      Pattern.pieces_cons (first?_eq_none h)]
    rfl
  | plain s text rest h ih => exact absurd h read?_ne_plain
  | tagged s term content rest h _ ih =>
    rw [TagStyle.terms_of_tagged _ h, ih, Pattern.findAll, Pattern.findAll,
      Pattern.pieces_of_first? (first?_eq_some h)]
    rfl

/-! ### The scan of a line -/

theorem leftmost_places (line : Text) :
    Leftmost (From (IsReference line)) 0 (TagStyle.reference.places line) := by
  have hreads : TagStyle.reference.Reads line = IsReference line :=
    funext fun f => propext reads_iff
  rw [← hreads]
  exact TagStyle.leftmost_places_of_tagged read?_ne_plain line

theorem written_eq_weaveFrom (line : Text) :
    TagStyle.proseSpan.written (TagStyle.reference.runs line) =
      weaveFrom line 0 ((TagStyle.reference.places line).map fun f =>
        (f, ProseSpan.write f.term f.content)) := by
  rw [TagStyle.written, TagStyle.runs_eq_cut .reference line, flatMap_written_cutFrom]
  rfl

/-- The scan of a whole line. -/
theorem scanFrom_zero (line : Text) :
    scanFrom line 0 = (TagStyle.proseSpan.written (TagStyle.reference.runs line),
      TagStyle.reference.terms line) := by
  rw [scanFrom_eq (leftmost_places line), written_eq_weaveFrom,
    TagStyle.terms_eq_map_places .reference line]

/-- **Scanning a line is one pass with the pattern of references.**  It puts a
span in place of each reference that is picked from left to right, each the
first one behind the one before it, and all else stays; the names are those of
these references, in order, and the description refers to them from then
on. -/
theorem scanning_substitutes_pattern (line : Text) :
    scanFrom line 0 = (TagStyle.proseSpan.written (TagStyle.reference.runs line),
      TagStyle.reference.terms line) ∧
    (Leftmost (fun pos f => pos ≤ f.start ∧ IsReference line f) 0
        (TagStyle.reference.places line) ∧
      TagStyle.proseSpan.written (TagStyle.reference.runs line) =
        weaveFrom line 0 ((TagStyle.reference.places line).map fun f =>
          (f, ProseSpan.write f.term f.content)) ∧
      TagStyle.reference.terms line = (TagStyle.reference.places line).map TagPlace.term) ∧
    (TagStyle.proseSpan.written (TagStyle.reference.runs line) =
        pattern.substitute replacement line ∧
      TagStyle.reference.terms line = (pattern.findAll line).filterMap (·[1]?)) ∧
    ∀ d : Draft, Draft.referredTerms
        { d with description := d.description ++ [TagStyle.reference.runs line] } =
      d.referredTerms ++ TagStyle.reference.terms line := by
  refine ⟨scanFrom_zero line, ⟨leftmost_places line, written_eq_weaveFrom line,
    TagStyle.terms_eq_map_places .reference line⟩,
    ⟨written_eq_substitute line, terms_eq_findAll line⟩, fun d => ?_⟩
  simp [Draft.referredTerms, TagStyle.terms]

/-- A bracket may stand in the text of a reference, and empty parts make none. -/
example : pattern.substitute replacement
      (write ['b'] "[a".toList ++ write [] ['c'] ++ write ['d'] [] ++ ['[', 'e', ']']) =
    ProseSpan.write ['b'] "[a".toList ++ write [] ['c'] ++ write ['d'] [] ++ ['[', 'e', ']'] := by
  decide +kernel

end Reference

end AnnotatedEquation
