/-
AnnotatedEquation/Proofs/Document/Anchors.lean

The anchors of the slides.  The equation drops an anchor behind each of its
pieces, and the slide of a definition draws its arrow from an anchor; both
count the pieces in the order in which they open.

* `positions` are the places at which a term stands among some terms;
* `Beamer.front` and `Beamer.back` are what is written before and behind the
  content of a span, the anchor `n<k>` behind that of the `k`-th.

Main statements: the anchors under a term are its positions
(`Anchors.places_foldl_add`), all positions together are the numbers of all
pieces (`Anchors.perm_range_positions`), and the equation and the slides speak
of the same anchors (`Beamer.equation_and_slides_in_lockstep`).
-/
import AnnotatedEquation.Palette.Builtin
import AnnotatedEquation.Proofs.Document.Template
import AnnotatedEquation.Proofs.Entries
import AnnotatedEquation.Proofs.Markup.Preorder

namespace AnnotatedEquation

variable {terms : List Text} {term t : Text}

/-! ### Positions of a term -/

/-- The positions at which a term stands among some terms, in increasing
order. -/
def positions (terms : List Text) (term : Text) : List Nat :=
  (List.range terms.length).filter fun k => terms[k]? = some term

theorem mem_positions {k : Nat} : k ∈ positions terms term ↔ terms[k]? = some term := by
  simp only [positions, List.mem_filter, List.mem_range, decide_eq_true_eq, and_iff_right_iff_imp]
  intro h
  exact (List.getElem?_eq_some_iff.1 h).1

theorem positions_concat (terms : List Text) (t term : Text) :
    positions (terms ++ [t]) term =
      positions terms term ++ if t = term then [terms.length] else [] := by
  have hold : (List.range terms.length).filter (fun k => (terms ++ [t])[k]? = some term) =
      positions terms term := by
    apply List.filter_congr
    intro k hk
    rw [List.getElem?_append_left (List.mem_range.1 hk)]
  rw [positions, List.length_append, List.length_singleton, List.range_succ, List.filter_append,
    hold]
  congr 1
  by_cases h : t = term <;> simp [h]

theorem positions_eq_nil (h : term ∉ terms) : positions terms term = [] := by
  rw [List.eq_nil_iff_forall_not_mem]
  intro k hk
  exact h (List.mem_of_getElem? (mem_positions.1 hk))

/-- The first position of a term is the one at which it is found. -/
theorem head?_positions (terms : List Text) (term : Text) :
    (positions terms term).head? = terms.idxOf? term := by
  induction terms using List.reverseRecOn with
  | nil => rfl
  | append_singleton terms t ih =>
    have hfind : (terms ++ [t]).idxOf? term =
        (terms.idxOf? term).or (([t].idxOf? term).map (· + terms.length)) := List.findIdx?_append
    rw [positions_concat, List.head?_append, ih, hfind]
    by_cases h : t = term <;> simp [h, List.idxOf?_cons]

theorem nodup_positions (terms : List Text) (term : Text) : (positions terms term).Nodup :=
  List.nodup_range.filter _

/-! ### Anchors -/

namespace Anchors

/-- **The anchors under a term are its positions** among the terms that
anchors were given to, under the terms in the order in which these first
came. -/
theorem places_foldl_add (terms : List Text) :
    (terms.foldl add {}).places = terms.eraseDups.map fun term => (term, positions terms term) := by
  induction terms using List.reverseRecOn with
  | nil => rfl
  | append_singleton terms t ih =>
    have hnext : (terms.foldl add {}).next = terms.length := by
      rw [Beamer.next_foldl_add, Nat.zero_add]
    have hget : ((terms.foldl add {}).places.get? t).getD [] = positions terms t := by
      rw [ih]
      by_cases h : t ∈ terms
      · rw [Entries.get?_map_of_mem (List.mem_eraseDups.2 h), Option.getD_some]
      · have h' : t ∉ terms.eraseDups := fun hmem => h (List.mem_eraseDups.1 hmem)
        rw [Entries.get?_map_of_not_mem h', positions_eq_nil h, Option.getD_none]
    -- the number goes to those under the term, and the others stay
    rw [List.foldl_concat, add, hget, hnext, ih, Entries.put_map_eraseDups]
    apply List.map_congr_left
    intro u _
    rw [positions_concat]
    by_cases hu : u = t
    · simp [hu]
    · simp [hu, Ne.symm hu]

/-- **Every number is given once**, to one term. -/
theorem perm_range_positions (terms : List Text) :
    (terms.eraseDups.flatMap (positions terms)).Perm (List.range terms.length) := by
  have hnodup : (terms.eraseDups.flatMap (positions terms)).Nodup := by
    rw [List.nodup_flatMap]
    refine ⟨fun term _ => nodup_positions terms term, (nodup_eraseDups terms).imp ?_⟩
    intro u v huv k hu hv
    -- no two terms stand at one position
    have hsame := (mem_positions.1 hu).symm.trans (mem_positions.1 hv)
    exact huv (Option.some.inj hsame)
  rw [List.perm_ext_iff_of_nodup hnodup List.nodup_range]
  intro k
  simp only [List.mem_flatMap, List.mem_eraseDups, mem_positions, List.mem_range]
  constructor
  · rintro ⟨term, -, h⟩
    exact (List.getElem?_eq_some_iff.1 h).1
  · intro h
    exact ⟨terms[k], List.getElem_mem h, List.getElem?_eq_getElem h⟩

theorem first?_foldl_add (terms : List Text) (term : Text) :
    (terms.foldl add {}).first? term = terms.idxOf? term := by
  rw [first?, places_foldl_add, ← head?_positions]
  by_cases h : term ∈ terms
  · rw [Entries.get?_map_of_mem (List.mem_eraseDups.2 h), Option.bind_some]
  · have h' : term ∉ terms.eraseDups := fun hmem => h (List.mem_eraseDups.1 hmem)
    rw [Entries.get?_map_of_not_mem h', positions_eq_nil h]
    rfl

end Anchors

/-! ### The equation and the slides -/

/-- The spans of an equation with their contents, in the order in which they
open. -/
def Content.equationSpans (c : Content) : List (Text × Text) :=
  TagStyle.equationSpan.spans c.equation

/-- The equation laid out in tokens, its spans numbered from 0 in the order
in which they open. -/
def Content.equationTokens (c : Content) : List Token :=
  Fragment.tokensAll 0 (EquationSpan.forest c.equation)

namespace EquationSpan

/-- A span up to its content. -/
def front (_ : Nat) (term : Text) : Text := opening ++ classStart ++ term ++ ['}', '{']

/-- A span behind its content. -/
def back (_ : Nat) (_ : Text) : Text := ['}']

end EquationSpan

namespace Beamer

/-- A colored piece up to what it holds. -/
def front (_ : Nat) (term : Text) : Text := Latex.coloredStart ++ term ++ ['}', '{']

/-- The `k`-th colored piece behind what it holds: its end, and the command
that drops the anchor `n<k>`. -/
def back (k : Nat) (_ : Text) : Text := '}' :: (coordinateHead ++ Text.ofNat k ++ [')', ';'])

/-- The tokens of an equation in the writing of spans are the equation. -/
theorem equation_eq_flatMap (c : Content) :
    c.equation = c.equationTokens.flatMap (Token.write EquationSpan.front EquationSpan.back) := by
  have hwrite : ∀ n term inner, EquationSpan.write term inner =
      EquationSpan.front n term ++ (inner ++ EquationSpan.back n term) := by
    intro n term inner
    simp [EquationSpan.write, EquationSpan.front, EquationSpan.back]
  calc c.equation
      = Fragment.writeAllFrom (fun _ => EquationSpan.write) 0 (EquationSpan.forest c.equation) := by
        rw [← Fragment.writeAll_eq_writeAllFrom]
        exact (TagStyle.write_forest TagStyle.equationSpan c.equation).symm
    _ = _ := Fragment.writeAllFrom_eq_flatMap hwrite 0 _

/-- The tokens of an equation in the writing of colored pieces with anchors
are the anchored equation. -/
theorem equationText_eq_flatMap (c : Content) :
    (equationText c).1 = c.equationTokens.flatMap (Token.write front back) := by
  have hanchored : ∀ n term inner, anchored n term inner =
      front n term ++ (inner ++ back n term) := by
    intro n term inner
    rw [anchored, Latex.colored_eq, coordinate_eq, front, back]
    simp only [List.append_assoc, List.cons_append, List.nil_append]
  exact Fragment.writeAllFrom_eq_flatMap hanchored 0 _

/-! ### Slides with arrows -/

variable (c : Content) (p : Palette)

/-- The slides of all definitions, each with an arrow from the first span of
its term. -/
def slides (latex : Text) : List (List Text) :=
  c.keptDefinitions.zipIdx.map fun ((term, body), index) =>
    slide (Latex.escape c.documentTitle) latex (c.equationTerms.idxOf? term) index term body

theorem flatten_slides : (slides c (equationText c).1).flatten = definitionsText c := by
  rw [slides, definitionsText, List.flatMap_def]
  refine congrArg List.flatten (List.map_congr_left ?_)
  rintro ⟨⟨term, body⟩, index⟩ -
  have hfirst : (equationText c).2.first? term = c.equationTerms.idxOf? term :=
    Anchors.first?_foldl_add c.equationTerms term
  show _ = definitionLines _ _ (equationText c).2 index term body
  rw [definitionLines_eq, hfirst]

theorem getElem?_slides {j : Nat} {term body : Text} (h : c.keptDefinitions[j]? = some (term, body))
    (latex : Text) :
    (slides c latex)[j]? = some (slide (Latex.escape c.documentTitle) latex
      (c.equationTerms.idxOf? term) j term body) := by
  rw [slides, List.getElem?_map, List.getElem?_zipIdx, h]
  simp

/-- **The equation and the slides speak of the same anchors.**  The anchors
under a term are the positions of its spans; every span is replaced by a
colored piece with the anchor of its own position, which no other piece
drops; and the slide of the `j`-th exported definition draws its arrow to
`def<j>` from the anchor of the first span of its term, and has no arrow
exactly if there is none. -/
theorem equation_and_slides_in_lockstep {latex : Text} {anchors : Anchors}
    (h : equation c p = .ok (latex, anchors)) :
    c.equationTerms = c.equationSpans.map Prod.fst ∧
    (anchors.places =
        c.equationTerms.eraseDups.map (fun term => (term, positions c.equationTerms term)) ∧
      (anchors.places.flatMap Prod.snd).Perm (List.range c.equationSpans.length)) ∧
    (Token.unclosed? [] c.equationTokens = some [] ∧
      c.equationTokens.filterMap Token.opened? = c.equationTerms.zipIdx ∧
      (c.equationTokens.filterMap Token.closed?).Perm c.equationTerms.zipIdx ∧
      c.equation = c.equationTokens.flatMap (Token.write EquationSpan.front EquationSpan.back) ∧
      latex = c.equationTokens.flatMap (Token.write front back)) ∧
    ∀ text, document c p = .ok text → ∃ frames : List (List Text),
      text = Text.unlines (layout (Latex.escape c.documentTitle) (Latex.colorLines c p) latex
        (Latex.descriptionText c) frames) ∧
      frames.length = (c.definitions.filter (·.1 ∈ c.termOrder)).length ∧
      ∀ j term body, (c.definitions.filter (·.1 ∈ c.termOrder))[j]? = some (term, body) →
        (∀ k, c.equationTerms.idxOf? term = some k →
          frames[j]? = some (slideStart (Latex.escape c.documentTitle) latex j term body
            ++ arrow term k j ++ slideEnd)) ∧
        (term ∉ c.equationTerms →
          frames[j]? = some (slideStart (Latex.escape c.documentTitle) latex j term body
            ++ slideEnd)) := by
  have hterms : c.equationTerms = c.equationSpans.map Prod.fst :=
    (TagStyle.map_fst_spans TagStyle.equationSpan c.equation).symm
  rw [equation_guarded] at h
  have hequation := eq_of_guarded_eq_ok h
  obtain ⟨rfl, rfl⟩ := Prod.mk.injEq .. ▸ hequation
  have hplaces := Anchors.places_foldl_add c.equationTerms
  refine ⟨hterms, ⟨hplaces, ?_⟩, ⟨?_, ?_, ?_, ?_, ?_⟩, ?_⟩
  · have hperm := Anchors.perm_range_positions c.equationTerms
    have hlength : c.equationSpans.length = c.equationTerms.length := by
      rw [hterms, List.length_map]
    rw [hlength]
    show ((c.equationTerms.foldl Anchors.add {}).places.flatMap Prod.snd).Perm _
    rw [hplaces, List.flatMap_map]
    exact hperm
  · exact Fragment.unclosed_tokensAll _ _
  · exact Fragment.opened_tokensAll _ _
  · exact Fragment.perm_closed_tokensAll _ _
  · exact equation_eq_flatMap c
  · exact equationText_eq_flatMap c
  · intro text htext
    rw [document_guarded] at htext
    refine ⟨slides c (equationText c).1, ?_, ?_, ?_⟩
    · rw [← slideLines_eq, flatten_slides, ← eq_of_guarded_eq_ok htext]
      rfl
    · rw [slides, List.length_map, List.length_zipIdx]
      rfl
    · intro j term body hdefinition
      have hslide := getElem?_slides c hdefinition (equationText c).1
      refine ⟨fun k hk => ?_, fun hterm => ?_⟩
      · rw [hslide, hk]
        rfl
      · rw [hslide, List.idxOf?_eq_none_iff.2 hterm]
        rfl

/-- A content with a span inside a span, a term with two spans, and a term
without any. -/
def nestedContent : Content where
  equation := ("\\htmlClass\x7bterm-a\x7d\x7bx \\htmlClass\x7bterm-b\x7d\x7by\x7d\x7d = "
    ++ "\\htmlClass\x7bterm-c\x7d\x7bz\x7d + \\htmlClass\x7bterm-b\x7d\x7bw\x7d").toList
  definitions := [(['b'], "Beta.".toList), (['e'], "Eta.".toList), (['d'], "Delta.".toList)]
  termOrder := [['a'], ['b'], ['c'], ['d']]

/-- The equation of this content with its anchors. -/
def nestedLatex : Text :=
  "\\textcolor\x7bterma\x7d\x7bx \\textcolor\x7btermb\x7d\x7by\x7d".toList
    ++ "\\tikz[baseline,remember picture,overlay] \\coordinate (n1);\x7d".toList
    ++ "\\tikz[baseline,remember picture,overlay] \\coordinate (n0); = ".toList
    ++ "\\textcolor\x7btermc\x7d\x7bz\x7d".toList
    ++ "\\tikz[baseline,remember picture,overlay] \\coordinate (n2); + ".toList
    ++ "\\textcolor\x7btermb\x7d\x7bw\x7d".toList
    ++ "\\tikz[baseline,remember picture,overlay] \\coordinate (n3);".toList

theorem equation_and_slides_in_lockstep_nestedContent :
    ∃ (anchors : Anchors) (text : Text) (frames : List (List Text)),
      equation nestedContent Palette.vibrant = .ok (nestedLatex, anchors) ∧
      anchors.places = [(['a'], [0]), (['b'], [1, 3]), (['c'], [2])] ∧
      document nestedContent Palette.vibrant = .ok text ∧
      text = Text.unlines (layout "Untitled".toList
        (Latex.colorLines nestedContent Palette.vibrant) nestedLatex
        (Latex.descriptionText nestedContent) frames) ∧
      frames[0]? = some (slideStart "Untitled".toList nestedLatex 0 ['b'] "Beta.".toList
        ++ ["\\begin\x7btikzpicture\x7d[overlay,remember picture]".toList,
            "  \\draw[->,termb,line width=1.5pt,rounded corners=5pt] ($(n1)+(-0.3em,-0.2em)$)".toList
              ++ " -- ++(0,-0.6) -| (def0);".toList,
            "\\end\x7btikzpicture\x7d".toList]
        ++ slideEnd) ∧
      frames[1]? = some (slideStart "Untitled".toList nestedLatex 1 ['d'] "Delta.".toList
        ++ slideEnd) := by
  have hterms : nestedContent.equationTerms = [['a'], ['b'], ['c'], ['b']] ∧
      nestedContent.descriptionTerms = [] ∧ (equationText nestedContent).1 = nestedLatex := by
    decide +kernel
  obtain ⟨hequationTerms, hdescriptionTerms, hlatex⟩ := hterms
  have hequation : equation nestedContent Palette.vibrant =
      .ok (nestedLatex, (equationText nestedContent).2) := by
    rw [equation_guarded, hequationTerms, ← hlatex]
    rfl
  have hdocument : document nestedContent Palette.vibrant =
      .ok (text nestedContent Palette.vibrant) := by
    rw [document_guarded, hequationTerms, hdescriptionTerms]
    rfl
  obtain ⟨-, ⟨hplaces, -⟩, -, hframes⟩ :=
    equation_and_slides_in_lockstep nestedContent Palette.vibrant hequation
  obtain ⟨frames, htext, -, hframe⟩ := hframes _ hdocument
  refine ⟨_, _, frames, hequation, hplaces.trans ?_, hdocument, htext, ?_, ?_⟩
  · rw [hequationTerms]
    decide
  · exact (hframe 0 ['b'] "Beta.".toList rfl).1 1 (by rw [hequationTerms]; rfl)
  · exact (hframe 1 ['d'] "Delta.".toList rfl).2 (by rw [hequationTerms]; decide)

end Beamer

end AnnotatedEquation
