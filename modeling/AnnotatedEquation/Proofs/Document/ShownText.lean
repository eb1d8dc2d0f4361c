/-
AnnotatedEquation/Proofs/Document/ShownText.lean

What the page shows of the author's prose.  No author text becomes markup: all
tags in the description and in the definitions are those of math and of terms,
and what stands between the tags shows the text that the author wrote.

* `Html.IsChunk`, `Html.IsProse` and `Html.IsDescription` are the grammar of
  what prose may be written as;
* `Html.shown` is what a browser shows of it: the tags left out, and the
  entities decoded.

Main statement: prose in a page is in this grammar and shows the author's text,
with spans left out and math taken out of its dollar signs
(`Html.shown_document`).
-/
import AnnotatedEquation.Palette.Builtin
import AnnotatedEquation.Proofs.Document.Lookup
import AnnotatedEquation.Proofs.Escape.Pairing
import AnnotatedEquation.Proofs.Markup.Flat

namespace AnnotatedEquation

/-- The text with each math taken out of its dollar signs. -/
def InlineMath.undelimited (s : Text) : Text :=
  (between s 0 (delimiters false s)).render id id

namespace Html

variable {s t m : Text} {c : Char} {quotes : Bool}

/-! ### The grammar of prose -/

/-- What reserved characters are written as. -/
def entities : List Text :=
  ["&amp;".toList, "&lt;".toList, "&gt;".toList, "&quot;".toList, "&#x27;".toList]

/-- What math begins with. -/
def mathOpening : Text := "<span class=\"math math-inline\">".toList

/-- What the text of a term begins with, up to the name. -/
def termOpening : Text := "<span class=\"term-".toList

/-- What follows the name. -/
def openingEnd : Text := ['"', '>']

/-- What ends math, and the text of a term. -/
def spanEnd : Text := "</span>".toList

/-- Text without angle brackets, in which every ampersand begins an entity.  It
has no quotes either, unless `quotes` permits them. -/
inductive IsChunk (quotes : Bool) : Text → Prop
  | nil : IsChunk quotes []
  | char (c : Char) {s : Text} (hc : c ∉ ['&', '<', '>']) (hquote : quotes ∨ c ∉ ['"', '\''])
      (rest : IsChunk quotes s) : IsChunk quotes (c :: s)
  | entity (e : Text) {s : Text} (he : e ∈ entities) (rest : IsChunk quotes s) :
      IsChunk quotes (e ++ s)

/-- Text and math. -/
inductive IsProse : Text → Prop
  | nil : IsProse []
  | text {s t : Text} (hs : IsChunk false s) (rest : IsProse t) : IsProse (s ++ t)
  | math {m t : Text} (hm : IsChunk true m) (rest : IsProse t) :
      IsProse (mathOpening ++ m ++ spanEnd ++ t)

/-- Prose, and prose that belongs to a term. -/
inductive IsDescription : Text → Prop
  | nil : IsDescription []
  | prose {s t : Text} (hs : IsProse s) (rest : IsDescription t) : IsDescription (s ++ t)
  | term {name s t : Text} (hname : IsChunk false name) (hs : IsProse s) (rest : IsDescription t) :
      IsDescription (termOpening ++ name ++ openingEnd ++ s ++ spanEnd ++ t)

/-! ### What is shown -/

/-- The text without its tags; `inTag` tells that a tag is open. -/
def dropTags (inTag : Bool) : Text → Text
  | [] => []
  | c :: s =>
    if inTag then dropTags (c ≠ '>') s
    else if c = '<' then dropTags true s
    else c :: dropTags false s

/-- The text with its entities decoded. -/
def decode : Text → Text
  | [] => []
  | '&' :: 'a' :: 'm' :: 'p' :: ';' :: s => '&' :: decode s
  | '&' :: 'l' :: 't' :: ';' :: s => '<' :: decode s
  | '&' :: 'g' :: 't' :: ';' :: s => '>' :: decode s
  | '&' :: 'q' :: 'u' :: 'o' :: 't' :: ';' :: s => '"' :: decode s
  | '&' :: '#' :: 'x' :: '2' :: '7' :: ';' :: s => '\'' :: decode s
  | c :: s => c :: decode s

/-- What is shown of an element's content. -/
def shown (html : Text) : Text := decode (dropTags false html)

/-! ### Escaped text -/

theorem decode_cons (h : c ≠ '&') (s : Text) : decode (c :: s) = c :: decode s := by
  rw [decode] <;> simp [h]

/-- A writing of characters that may stand in a chunk: each is written as itself
or as an entity of it. -/
structure Writes (quotes : Bool) (write : Char → Text) : Prop where
  isChunk : ∀ c {s}, IsChunk quotes s → IsChunk quotes (write c ++ s)
  decode : ∀ c s, Html.decode (write c ++ s) = c :: Html.decode s

theorem entity_of_not_mem {other : Char → Text} (h : c ∉ ['&', '<', '>']) :
    entity other c = other c := by
  simp only [List.mem_cons, List.not_mem_nil, or_false, not_or] at h
  unfold entity
  rw [if_neg h.1, if_neg h.2.1, if_neg h.2.2]

/-- The ampersand and the angle brackets are written as entities, whatever is
done with the other characters. -/
theorem writes_entity {other : Char → Text}
    (hchunk : ∀ c ∉ ['&', '<', '>'], ∀ {s}, IsChunk quotes s → IsChunk quotes (other c ++ s))
    (hdecode : ∀ c ∉ ['&', '<', '>'], ∀ s, decode (other c ++ s) = c :: decode s) :
    Writes quotes (entity other) where
  isChunk c s hs := by
    by_cases hc : c ∈ ['&', '<', '>']
    · have hentity : entity other c ∈ entities := by
        simp only [List.mem_cons, List.not_mem_nil, or_false] at hc
        rcases hc with rfl | rfl | rfl
        · exact (by decide : "&amp;".toList ∈ entities)
        · exact (by decide : "&lt;".toList ∈ entities)
        · exact (by decide : "&gt;".toList ∈ entities)
      exact .entity _ hentity hs
    · rw [entity_of_not_mem hc]
      exact hchunk c hc hs
  decode c s := by
    by_cases hc : c ∈ ['&', '<', '>']
    · simp only [List.mem_cons, List.not_mem_nil, or_false] at hc
      rcases hc with rfl | rfl | rfl <;> rfl
    · rw [entity_of_not_mem hc]
      exact hdecode c hc s

theorem writes_content : Writes true (entity fun c => [c]) :=
  writes_entity (fun c hc _ hs => .char c hc (Or.inl rfl) hs)
    fun c hc s => decode_cons (fun h => hc (by simp [h])) s

theorem namedQuote_of_not_mem (h : c ∉ ['"', '\'']) : namedQuote c = [c] := by
  simp only [List.mem_cons, List.not_mem_nil, or_false, not_or] at h
  unfold namedQuote
  rw [if_neg h.1, if_neg h.2]

theorem writes_quotes : Writes false (entity namedQuote) := by
  refine writes_entity (fun c hc s hs => ?_) fun c hc s => ?_
  · by_cases hquote : c ∈ ['"', '\'']
    · have hentity : namedQuote c ∈ entities := by
        simp only [List.mem_cons, List.not_mem_nil, or_false] at hquote
        rcases hquote with rfl | rfl <;> decide
      exact .entity _ hentity hs
    · rw [namedQuote_of_not_mem hquote]
      exact .char c hc (Or.inr hquote) hs
  · by_cases hquote : c ∈ ['"', '\'']
    · simp only [List.mem_cons, List.not_mem_nil, or_false] at hquote
      rcases hquote with rfl | rfl <;> rfl
    · rw [namedQuote_of_not_mem hquote]
      exact decode_cons (fun h => hc (by simp [h])) s

theorem Writes.isChunk_flatMap {write : Char → Text} (h : Writes quotes write) (s : Text) :
    IsChunk quotes (s.flatMap write) := by
  induction s with
  | nil => exact .nil
  | cons c s ih => exact h.isChunk c ih

theorem Writes.decode_flatMap {write : Char → Text} (h : Writes quotes write) (s t : Text) :
    Html.decode (s.flatMap write ++ t) = s ++ Html.decode t := by
  induction s with
  | nil => rfl
  | cons c s ih => rw [List.flatMap_cons, List.append_assoc, h.decode, ih, List.cons_append]

theorem isChunk_escape (s : Text) : IsChunk false (escape s) := writes_quotes.isChunk_flatMap s

theorem isChunk_escapeContent (s : Text) : IsChunk true (escapeContent s) :=
  writes_content.isChunk_flatMap s

/-! ### Tags -/

theorem IsChunk.forall_ne (h : IsChunk quotes s) : ∀ c ∈ s, c ≠ '<' ∧ c ≠ '>' := by
  have hentities : ∀ e ∈ entities, ∀ c ∈ e, c ≠ '<' ∧ c ≠ '>' := by decide
  induction h with
  | nil => simp
  | char c hc hquote rest ih =>
    have hne : c ≠ '<' ∧ c ≠ '>' := by
      constructor <;> rintro rfl <;> simp at hc
    simpa using ⟨hne, ih⟩
  | entity e he rest ih =>
    intro c hc
    exact (List.mem_append.1 hc).elim (hentities e he c) (ih c)

/-- Outside of tags, a chunk is kept. -/
theorem IsChunk.dropTags_append (h : IsChunk quotes s) (t : Text) :
    dropTags false (s ++ t) = s ++ dropTags false t := by
  have hs := h.forall_ne
  clear h
  induction s with
  | nil => rfl
  | cons c s ih =>
    obtain ⟨hc, hs⟩ := List.forall_mem_cons.1 hs
    simp [dropTags, hc.1, ih hs]

/-- Within a tag, a chunk is left out and leaves the tag open. -/
theorem IsChunk.dropTags_true_append (h : IsChunk quotes s) (t : Text) :
    dropTags true (s ++ t) = dropTags true t := by
  have hs := h.forall_ne
  clear h
  induction s with
  | nil => rfl
  | cons c s ih =>
    obtain ⟨hc, hs⟩ := List.forall_mem_cons.1 hs
    simp [dropTags, hc.2, ih hs]

theorem dropTags_mathOpening (t : Text) : dropTags false (mathOpening ++ t) = dropTags false t :=
  rfl

theorem dropTags_termOpening (t : Text) : dropTags false (termOpening ++ t) = dropTags true t := rfl

theorem dropTags_openingEnd (t : Text) : dropTags true (openingEnd ++ t) = dropTags false t := rfl

theorem dropTags_spanEnd (t : Text) : dropTags false (spanEnd ++ t) = dropTags false t := rfl

/-! ### What pieces show -/

/-- The text `raw` is shown in the place of `html`, whatever follows. -/
def Shows (html raw : Text) : Prop :=
  ∃ kept, (∀ t, dropTags false (html ++ t) = kept ++ dropTags false t) ∧
    ∀ t, decode (kept ++ t) = raw ++ decode t

theorem Shows.shown {html raw : Text} (h : Shows html raw) : shown html = raw := by
  obtain ⟨kept, hdrop, hdecode⟩ := h
  have hdrop' := hdrop []
  have hdecode' := hdecode []
  simp only [List.append_nil, dropTags, decode] at hdrop' hdecode'
  rw [Html.shown, hdrop', hdecode']

theorem Shows.nil : Shows [] [] := ⟨[], fun _ => rfl, fun _ => rfl⟩

theorem Shows.append {html html' raw raw' : Text} (h : Shows html raw) (h' : Shows html' raw') :
    Shows (html ++ html') (raw ++ raw') := by
  obtain ⟨kept, hdrop, hdecode⟩ := h
  obtain ⟨kept', hdrop', hdecode'⟩ := h'
  refine ⟨kept ++ kept', fun t => ?_, fun t => ?_⟩
  · rw [List.append_assoc, hdrop, hdrop', List.append_assoc]
  · rw [List.append_assoc, hdecode, hdecode', List.append_assoc]

theorem Shows.flatMap {α : Type} {html raw : α → Text} (h : ∀ a, Shows (html a) (raw a))
    (l : List α) : Shows (l.flatMap html) (l.flatMap raw) := by
  induction l with
  | nil => exact .nil
  | cons a l ih => exact (h a).append ih

/-- Tags around a piece change nothing of what it shows. -/
theorem Shows.of_tags {front html back raw : Text} (h : Shows html raw)
    (hfront : ∀ t, dropTags false (front ++ t) = dropTags false t)
    (hback : ∀ t, dropTags false (back ++ t) = dropTags false t) :
    Shows (front ++ html ++ back) raw := by
  obtain ⟨kept, hdrop, hdecode⟩ := h
  refine ⟨kept, fun t => ?_, hdecode⟩
  rw [List.append_assoc, List.append_assoc, hfront, hdrop, hback]

theorem shows_escape (s : Text) : Shows (escape s) s :=
  ⟨escape s, (isChunk_escape s).dropTags_append, writes_quotes.decode_flatMap s⟩

theorem shows_escapeContent (s : Text) : Shows (escapeContent s) s :=
  ⟨escapeContent s, (isChunk_escapeContent s).dropTags_append, writes_content.decode_flatMap s⟩

/-! ### Prose -/

theorem mathSpan_inline (math : Text) :
    mathSpan false math = mathOpening ++ escapeContent math ++ spanEnd := rfl

theorem isProse_prose (s : Text) : IsProse (prose mathSpan s) := by
  rw [prose, InlineMath.render]
  refine .text (isChunk_escape _) ?_
  induction (InlineMath.read s).rest with
  | nil => exact .nil
  | cons piece rest ih =>
    obtain ⟨math, text⟩ := piece
    have hpiece := IsProse.math (isChunk_escapeContent math) (.text (isChunk_escape text) ih)
    rwa [← mathSpan_inline, ← List.append_assoc] at hpiece

theorem shows_prose (s : Text) : Shows (prose mathSpan s) (InlineMath.undelimited s) := by
  rw [prose, InlineMath.undelimited, InlineMath.read_eq_between, InlineMath.render,
    InlineMath.render]
  refine (shows_escape _).append (Shows.flatMap (fun piece => ?_) _)
  obtain ⟨math, text⟩ := piece
  have hmath : Shows (mathSpan false math) math :=
    (shows_escapeContent math).of_tags dropTags_mathOpening dropTags_spanEnd
  exact hmath.append (shows_escape text)

/-! ### Runs -/

theorem runText_tagged (term text : Text) :
    runText mathSpan (.tagged term text) =
      termOpening ++ escape term ++ openingEnd ++ prose mathSpan text ++ spanEnd := rfl

theorem shows_runText (run : Run) :
    Shows (runText mathSpan run) (InlineMath.undelimited run.content) := by
  cases run with
  | plain text => exact shows_prose text
  | tagged term text =>
    rw [runText_tagged]
    refine (shows_prose text).of_tags (fun t => ?_) dropTags_spanEnd
    rw [List.append_assoc, List.append_assoc, dropTags_termOpening,
      (isChunk_escape term).dropTags_true_append, dropTags_openingEnd]

theorem isDescription_flatMap (rs : List Run) : IsDescription (rs.flatMap (runText mathSpan)) := by
  induction rs with
  | nil => exact .nil
  | cons run rs ih =>
    rw [List.flatMap_cons]
    cases run with
    | plain text => exact .prose (isProse_prose text) ih
    | tagged term text =>
      rw [runText_tagged]
      exact .term (isChunk_escape term) (isProse_prose text) ih

/-! ### The page -/

/-- The pieces of the body, between the head and the script of the page. -/
theorem exists_text_eq (c : Content) (p : Palette) (math : MathWriter) :
    ∃ before equation after, text c p math = Text.unlines (before ++
      bodyLines c.documentTitle equation (descriptionText c math) (definitions math c) ++ after) :=
  ⟨_, _, _, congrArg Text.unlines (List.append_assoc _ _ _)⟩

/-- **No author text becomes markup.**  The description of a page is prose and
prose that belongs to terms, and shows the text of the author's runs; every
definition is prose and shows the author's body.  In either, math is taken out
of its dollar signs, and a dollar sign closes math in its own run only. -/
theorem shown_document (c : Content) (p : Palette) {page : Text}
    (h : document mathSpan c p = .ok page) :
    ∃ before equation description after,
      page = Text.unlines (before ++
        bodyLines c.documentTitle equation description (definitions mathSpan c) ++ after) ∧
      Html.description mathSpan c p = .ok description ∧ IsDescription description ∧
      shown description = (TagStyle.proseSpan.runs c.description).flatMap
        (fun run => InlineMath.undelimited run.content) ∧
      List.Forall₂
        (fun kept written => written.1 = kept.1 ∧ IsProse written.2 ∧
          shown written.2 = InlineMath.undelimited kept.2)
        c.keptDefinitions (definitions mathSpan c) := by
  rw [document_guarded] at h
  obtain ⟨before, equation, after, htext⟩ := exists_text_eq c p mathSpan
  have hdescription : Html.description mathSpan c p = .ok (descriptionText c mathSpan) := by
    have hnone := exists_guarded_eq_ok_iff.1 ⟨page, h⟩
    rw [p.firstRefusal?_append, p.firstRefusal?_append] at hnone
    simp only [Option.or_eq_none_iff] at hnone
    rw [description_guarded, hnone.2.2, guarded_none]
  refine ⟨before, equation, descriptionText c mathSpan, after, ?_, hdescription, ?_, ?_, ?_⟩
  · rw [← eq_of_guarded_eq_ok h, htext]
  · exact isDescription_flatMap _
  · exact (Shows.flatMap shows_runText _).shown
  · rw [definitions, List.forall₂_map_right_iff, List.forall₂_same]
    exact fun kept _ => ⟨rfl, isProse_prose kept.2, (shows_prose kept.2).shown⟩

/-- A content with math, a term and text that looks like markup, and dollar
signs without partners on both sides of a tag. -/
def knottyContent : Content where
  description := ("1 < $a\"<b$ &amp; <span class=\"term-x&\">costs \\$5 $y</span>$ "
    ++ "<span class=\"term-\">").toList
  definitions := [("x&".toList, "it's $$ > $".toList), (['y'], ['z'])]
  termOrder := ["x&".toList]

theorem shown_document_knottyContent :
    (∃ page, document mathSpan knottyContent Palette.vibrant = .ok page) ∧
      (∃ description, Html.description mathSpan knottyContent Palette.vibrant = .ok description ∧
        IsDescription description ∧
        shown description = "1 < a\"<b &amp; costs \\$5 $y$ <span class=\"term-\">".toList) ∧
      ∃ html, definitions mathSpan knottyContent = [("x&".toList, html)] ∧
        IsProse html ∧ shown html = "it's  > $".toList := by
  have hrefusal : Palette.vibrant.firstRefusal? knottyContent.termOrder (knottyContent.termOrder ++
      (knottyContent.equationTerms ++ knottyContent.descriptionTerms)) = none := by decide +kernel
  have hpage : document mathSpan knottyContent Palette.vibrant =
      .ok (text knottyContent Palette.vibrant mathSpan) := by
    rw [document_guarded, hrefusal, guarded_none]
  obtain ⟨-, -, description, -, -, hdescription, hgrammar, hshown, hdefinitions⟩ :=
    shown_document knottyContent Palette.vibrant hpage
  have hkept : knottyContent.keptDefinitions = [("x&".toList, "it's $$ > $".toList)] := by decide
  refine ⟨⟨_, hpage⟩, ⟨description, hdescription, hgrammar, hshown.trans (by decide +kernel)⟩, ?_⟩
  rw [hkept, List.forall₂_cons_left_iff] at hdefinitions
  obtain ⟨⟨term, html⟩, rest, ⟨rfl, hprose, htext⟩, hrest, hlist⟩ := hdefinitions
  rw [List.forall₂_nil_left_iff] at hrest
  exact ⟨html, hrest ▸ hlist, hprose, htext.trans (by decide)⟩

end Html

end AnnotatedEquation
