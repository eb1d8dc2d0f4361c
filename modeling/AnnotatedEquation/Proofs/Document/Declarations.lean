/-
AnnotatedEquation/Proofs/Document/Declarations.lean

The colors that a document declares, and those that it uses.  The page
declares colors as properties of its style sheet, the article and the slides
define them by name; they use them in the equation, in the description and in
the headings of the definitions.  Declarations come from the term order alone,
and the uses from three other places.

* `Declares` tells of a table of colors that it has those of the term order,
  and that every use is in it;
* `Latex.back`, `Html.front` and `Html.back` are what is written before and
  behind the content of a piece of the equation, for a table of colors.

Main statement: a document is laid out with the declarations of such a table,
and these are read back from its text exactly if the names of the terms allow
it (`declarations_cover_uses`).  In a style sheet not all of them do
(`Html.semicolon_splits_declaration`).
-/
import AnnotatedEquation.Document.Format
import AnnotatedEquation.Proofs.Document.Anchors
import AnnotatedEquation.Proofs.Document.ReadColors
import AnnotatedEquation.Source.Draft

namespace AnnotatedEquation

open Fragment (termsAll)

variable {c : Content} {p : Palette} {declared : Entries Text} {order : List Text}
variable {term color : Text}

/-! ### Tables of colors -/

/-- The table has one color for each term of the order, where the term first
stands, and the color is the one at that place of the palette.  Every piece of
the equation, every reference of the description, and every definition of a
term of the order is of a term with a color. -/
structure Declares (c : Content) (p : Palette) (declared : Entries Text) : Prop where
  keys : declared.keys = c.termOrder.eraseDups
  colors : ∀ e ∈ declared, ∃ i, c.termOrder.idxOf? e.1 = some i ∧ p.colors[i]? = some e.2
  equation : ∀ n term, Token.opens n term ∈ c.equationTokens → term ∈ declared.keys
  description : ∀ term content, Run.tagged term content ∈ TagStyle.proseSpan.runs c.description →
    term ∈ declared.keys
  headings : ∀ e ∈ c.definitions.filter (·.1 ∈ c.termOrder), e.1 ∈ declared.keys

theorem Palette.getElem?_of_colorFor (h : p.colorFor order term = .ok color) :
    ∃ i, order.idxOf? term = some i ∧ p.colors[i]? = some color := by
  rw [colorFor] at h
  split at h
  · cases h
  · next i hi =>
    split at h
    · cases h
    · next hcolor =>
      obtain rfl := Except.ok.inj h
      exact ⟨i, hi, hcolor⟩

/-- The terms of an order with their colors. -/
def Palette.table (p : Palette) (order : List Text) : Entries Text :=
  order.eraseDups.map fun term => (term, p.color order term)

theorem Palette.keys_table : (p.table order).keys = order.eraseDups := by
  rw [Entries.keys, table, List.map_map]
  exact List.map_id _

theorem Palette.get?_table (h : term ∈ order) :
    (p.table order).get? term = some (p.color order term) :=
  Entries.get?_map_of_mem (List.mem_eraseDups.2 h) _

theorem mem_equationTerms_of_opens {n : Nat} (h : Token.opens n term ∈ c.equationTokens) :
    term ∈ c.equationTerms := by
  have hopened : (term, n) ∈ c.equationTokens.filterMap Token.opened? :=
    List.mem_filterMap.2 ⟨_, h, rfl⟩
  rw [Content.equationTokens, Fragment.opened_tokensAll] at hopened
  exact List.fst_mem_of_mem_zipIdx hopened

theorem mem_descriptionTerms_of_tagged {content : Text}
    (h : Run.tagged term content ∈ TagStyle.proseSpan.runs c.description) :
    term ∈ c.descriptionTerms :=
  List.mem_filterMap.2 ⟨_, h, rfl⟩

/-- **Where no color is refused, the table of the palette declares those of the
content.** -/
theorem declares_table (horder : p.firstRefusal? c.termOrder c.termOrder = none)
    (hequation : p.firstRefusal? c.termOrder c.equationTerms = none)
    (hdescription : p.firstRefusal? c.termOrder c.descriptionTerms = none) :
    Declares c p (p.table c.termOrder) := by
  have hknown : ∀ {terms}, p.firstRefusal? c.termOrder terms = none → ∀ term ∈ terms,
      term ∈ (p.table c.termOrder).keys := by
    intro terms hterms term hterm
    rw [Palette.keys_table, List.mem_eraseDups]
    exact (Palette.firstRefusal?_eq_none_iff_mem horder).1 hterms term hterm
  refine ⟨Palette.keys_table, ?_, ?_, ?_, ?_⟩
  · intro e he
    obtain ⟨term, hterm, rfl⟩ := List.mem_map.1 he
    obtain ⟨color, hcolor⟩ :=
      Palette.firstRefusal?_eq_none_iff.1 horder term (List.mem_eraseDups.1 hterm)
    rw [(Palette.mem_colors_of_colorFor hcolor).1]
    exact Palette.getElem?_of_colorFor hcolor
  · exact fun n term h => hknown hequation term (mem_equationTerms_of_opens h)
  · exact fun term content h => hknown hdescription term (mem_descriptionTerms_of_tagged h)
  · intro e he
    rw [Palette.keys_table, List.mem_eraseDups]
    simpa using (List.mem_filter.1 he).2

/-- The table that declares the colors of a content is that of the palette. -/
theorem Declares.eq_table (h : Declares c p declared) : declared = p.table c.termOrder := by
  have hentry : ∀ e ∈ declared, e = (e.1, p.color c.termOrder e.1) := by
    intro e he
    obtain ⟨i, hi, hcolor⟩ := h.colors e he
    have hfor : p.colorFor c.termOrder e.1 = .ok e.2 := by
      rw [Palette.colorFor, hi]
      simp only [hcolor]
    rw [(Palette.mem_colors_of_colorFor hfor).1]
  calc declared
      = declared.map fun e => (e.1, p.color c.termOrder e.1) := by
        conv_lhs => rw [← List.map_id declared]
        exact List.map_congr_left hentry
    _ = p.table c.termOrder := by
        rw [Palette.table, ← h.keys, Entries.keys, List.map_map]
        rfl

theorem Declares.isHexColor (h : Declares c p declared) : ∀ e ∈ declared, isHexColor e.2 := by
  intro e he
  obtain ⟨i, -, hcolor⟩ := h.colors e he
  exact List.all_eq_true.1 p.all_hex e.2 (List.mem_of_getElem? hcolor)

/-- What holds of all terms of the table holds of all terms of the order. -/
theorem Declares.forall_mem_iff (h : Declares c p declared) (P : Text → Prop) :
    (∀ e ∈ declared, P e.1) ↔ ∀ term ∈ c.termOrder, P term := by
  constructor
  · intro hall term hterm
    have hkey : term ∈ declared.keys := by
      rw [h.keys, List.mem_eraseDups]
      exact hterm
    obtain ⟨e, he, rfl⟩ := List.mem_map.1 hkey
    exact hall e he
  · intro hall e he
    refine hall e.1 (List.mem_eraseDups.1 ?_)
    rw [← h.keys]
    exact List.mem_map_of_mem he

/-! ### Pieces in color -/

namespace Latex

/-- A colored piece behind what it holds. -/
def back (_ : Nat) (_ : Text) : Text := ['}']

/-- The text of a run of the description: a reference is in the color of its
term. -/
def referenced : Run → Text
  | .plain text => prose text
  | .tagged term text => inColor term (prose text)

theorem runText_eq_referenced : runText = referenced := by
  funext run
  cases run with
  | plain text => rfl
  | tagged term text => exact colored_colorName term (prose text)

theorem equationText_eq_flatMap (c : Content) :
    equationText c = c.equationTokens.flatMap (Token.write Beamer.front back) := by
  have hcolored : ∀ (n : Nat) (term inner : Text), colored (colorName term) inner =
      Beamer.front n term ++ (inner ++ back n term) := by
    have hassoc : ∀ (u v : Text) (a : Char), u ++ v ++ [a] = u ++ (v ++ [a]) := by simp
    exact fun n term inner => hassoc (Beamer.front n term) inner '}'
  rw [equationText, Fragment.writeAll_eq_writeAllFrom _ 0]
  exact Fragment.writeAllFrom_eq_flatMap hcolored 0 _

theorem colorLines_eq (c : Content) (p : Palette) :
    colorLines c p = (p.table c.termOrder).map fun e => definition e.1 e.2 := by
  rw [colorLines, Palette.table, List.map_map]
  exact List.map_congr_left fun term _ => colorDefinition_eq term _

theorem text_eq_unlines (c : Content) (p : Palette) :
    text c p = Text.unlines (layout (escape c.documentTitle)
      ((p.table c.termOrder).map fun e => definition e.1 e.2)
      (c.equationTokens.flatMap (Token.write Beamer.front back))
      (Text.trim ((TagStyle.proseSpan.runs c.description).flatMap referenced))
      (c.definitions.filter (·.1 ∈ c.termOrder))) := by
  have hlines : definitionsText c =
      (c.definitions.filter (·.1 ∈ c.termOrder)).flatMap fun e => definitionLines e.1 e.2 := rfl
  rw [text, hlines, articleLines_eq, colorLines_eq, equationText_eq_flatMap, descriptionText,
    runText_eq_referenced]

end Latex

namespace Beamer

theorem text_eq_unlines (c : Content) (p : Palette) :
    text c p = Text.unlines (layout (Latex.escape c.documentTitle)
      ((p.table c.termOrder).map fun e => Latex.definition e.1 e.2)
      (c.equationTokens.flatMap (Token.write front back))
      (Text.trim ((TagStyle.proseSpan.runs c.description).flatMap Latex.referenced))
      (slides c (c.equationTokens.flatMap (Token.write front back)))) := by
  rw [text, ← flatten_slides, slideLines_eq, Latex.colorLines_eq, ← equationText_eq_flatMap,
    Latex.descriptionText, Latex.runText_eq_referenced]

end Beamer

namespace Html

/-- A colored piece of the equation up to what it holds, for a table of
colors. -/
def front (declared : Entries Text) (n : Nat) (term : Text) : Text :=
  EquationSpan.front n term ++ "\\textcolor\x7b".toList ++ (declared.get? term).getD []
    ++ ['}', '{']

/-- A colored piece behind what it holds. -/
def back (_ : Nat) (_ : Text) : Text := ['}', '}']

theorem equationText_eq_flatMap (hequation : ∀ term ∈ c.equationTerms, term ∈ c.termOrder) :
    equationText c p =
      c.equationTokens.flatMap (Token.write (front (p.table c.termOrder)) back) := by
  have hassoc : ∀ u v w x y z : Text,
      u ++ (v ++ w ++ x ++ y ++ ['}']) ++ z = u ++ v ++ w ++ x ++ (y ++ ('}' :: z)) := by simp
  have hfront : ∀ (n : Nat) (term inner : Text),
      front (p.table c.termOrder) 0 term ++ (inner ++ back 0 term) =
        front (p.table c.termOrder) n term ++ (inner ++ back n term) := fun _ _ _ => rfl
  have hpiece : ∀ term ∈ termsAll (EquationSpan.forest c.equation),
      (fun inner => EquationSpan.write term (Latex.colored (p.color c.termOrder term) inner)) =
        fun inner => front (p.table c.termOrder) 0 term ++ (inner ++ back 0 term) := by
    intro term hterm
    have hcolor : (p.table c.termOrder).get? term = some (p.color c.termOrder term) :=
      Palette.get?_table (hequation term hterm)
    funext inner
    rw [front, hcolor, Option.getD_some]
    exact hassoc _ _ _ _ _ _
  rw [equationText, Fragment.writeAll_congr hpiece, Fragment.writeAll_eq_writeAllFrom _ 0]
  exact Fragment.writeAllFrom_eq_flatMap hfront 0 _

theorem text_eq_unlines (math : MathWriter)
    (hequation : ∀ term ∈ c.equationTerms, term ∈ c.termOrder)
    (hcolors : ∀ e ∈ p.table c.termOrder, isHexColor e.2) :
    text c p math = Text.unlines (layout c.documentTitle (p.table c.termOrder)
      (math true (c.equationTokens.flatMap (Token.write (front (p.table c.termOrder)) back)))
      ((TagStyle.proseSpan.runs c.description).flatMap (runText math))
      ((c.definitions.filter (·.1 ∈ c.termOrder)).map fun e => (e.1, prose math e.2))) := by
  rw [← pageLines_eq _ _ _ _ hcolors, ← equationText_eq_flatMap hequation]
  rfl

end Html

/-! ### Declarations and uses -/

/-- Where a document is given, none of the terms that it looks up is refused. -/
theorem of_document_eq_ok {first second third : List Text} {text text' : Text}
    (h : guarded (p.firstRefusal? order (first ++ (second ++ third))) text = .ok text') :
    text = text' ∧ p.firstRefusal? order first = none ∧ p.firstRefusal? order second = none ∧
      p.firstRefusal? order third = none := by
  have hnone := exists_guarded_eq_ok_iff.1 ⟨text', h⟩
  rw [p.firstRefusal?_append, p.firstRefusal?_append, Option.or_eq_none_iff,
    Option.or_eq_none_iff] at hnone
  exact ⟨eq_of_guarded_eq_ok h, hnone⟩

/-- **Declared colors cover used colors.**  A page, an article or slides that
are given are laid out for a table of colors which has one color for each term
of the order, and the color of every piece of the equation, reference of the
description and heading; the definitions are those of terms of the order.  The
declarations that are read from the text are those of the table, each once and
in its order, exactly if every name can stand where they are written. -/
theorem declarations_cover_uses (c : Content) (p : Palette) (math : Format.MathStyle) :
    (∀ {text}, Format.html.document c p math = .ok text → ∃ declared, Declares c p declared ∧
      text = Text.unlines (Html.layout c.documentTitle declared
        (math.html true (c.equationTokens.flatMap (Token.write (Html.front declared) Html.back)))
        ((TagStyle.proseSpan.runs c.description).flatMap (Html.runText math.html))
        ((c.definitions.filter (·.1 ∈ c.termOrder)).map fun e => (e.1, Html.prose math.html e.2))) ∧
      (Html.termProperties text = declared.map Html.declaredAs ↔
        ∀ term ∈ c.termOrder, Html.IsName term)) ∧
    (∀ {text}, Format.latex.document c p math = .ok text → ∃ declared, Declares c p declared ∧
      text = Text.unlines (Latex.layout (Latex.escape c.documentTitle)
        (declared.map fun e => Latex.definition e.1 e.2)
        (c.equationTokens.flatMap (Token.write Beamer.front Latex.back))
        (Text.trim ((TagStyle.proseSpan.runs c.description).flatMap Latex.referenced))
        (c.definitions.filter (·.1 ∈ c.termOrder))) ∧
      (Latex.definedColors (Latex.preamble text) = declared.map Latex.definedAs ↔
        ∀ term ∈ c.termOrder, Latex.IsColorName term)) ∧
    (∀ {text}, Format.beamer.document c p math = .ok text → ∃ declared latex,
      Declares c p declared ∧
      latex = c.equationTokens.flatMap (Token.write Beamer.front Beamer.back) ∧
      text = Text.unlines (Beamer.layout (Latex.escape c.documentTitle)
        (declared.map fun e => Latex.definition e.1 e.2) latex
        (Text.trim ((TagStyle.proseSpan.runs c.description).flatMap Latex.referenced))
        ((c.definitions.filter (·.1 ∈ c.termOrder)).zipIdx.map fun e =>
          Beamer.slide (Latex.escape c.documentTitle) latex (c.equationTerms.idxOf? e.1.1) e.2
            e.1.1 e.1.2)) ∧
      (Latex.definedColors (Latex.preamble text) = declared.map Latex.definedAs ↔
        ∀ term ∈ c.termOrder, Latex.IsColorName term)) := by
  refine ⟨?_, ?_, ?_⟩
  · intro text htext
    have hguarded : Format.html.document c p math = _ := Html.document_guarded c p math.html
    obtain ⟨rfl, horder, hequation, hdescription⟩ := of_document_eq_ok (hguarded.symm.trans htext)
    have hdeclares := declares_table horder hequation hdescription
    have hknown := (Palette.firstRefusal?_eq_none_iff_mem horder).1 hequation
    have hlayout := Html.text_eq_unlines math.html hknown hdeclares.isHexColor
    refine ⟨_, hdeclares, hlayout, ?_⟩
    rw [hlayout, Html.termProperties_layout_iff hdeclares.isHexColor, hdeclares.forall_mem_iff]
  · intro text htext
    have hguarded : Format.latex.document c p math = _ := Latex.document_guarded c p
    obtain ⟨rfl, horder, hequation, hdescription⟩ := of_document_eq_ok (hguarded.symm.trans htext)
    have hdeclares := declares_table horder hequation hdescription
    have hlayout := Latex.text_eq_unlines c p
    refine ⟨_, hdeclares, hlayout, ?_⟩
    rw [hlayout, Latex.definedColors_layout_iff hdeclares.isHexColor, hdeclares.forall_mem_iff]
  · intro text htext
    have hguarded : Format.beamer.document c p math = _ := Beamer.document_guarded c p
    -- the slides look up the equation first
    obtain ⟨rfl, hequation, horder, hdescription⟩ := of_document_eq_ok (hguarded.symm.trans htext)
    have hdeclares := declares_table horder hequation hdescription
    have hlayout := Beamer.text_eq_unlines c p
    refine ⟨_, _, hdeclares, rfl, hlayout, ?_⟩
    rw [hlayout, Beamer.definedColors_layout_iff hdeclares.isHexColor, hdeclares.forall_mem_iff]

/-- A content with a span inside a span, whose term order repeats a term, and
with a definition of a term that it does not know. -/
def tangledContent : Content where
  equation := ("\\htmlClass\x7bterm-a\x7d\x7bx \\htmlClass\x7bterm-c\x7d\x7by\x7d\x7d = "
    ++ "\\htmlClass\x7bterm-b\x7d\x7bz\x7d").toList
  description := "The <span class=\"term-c\">sum</span>.".toList
  definitions := [(['c'], "Gamma.".toList), (['e'], "Eta.".toList), (['a'], "Alpha.".toList)]
  termOrder := [['a'], ['b'], ['a'], ['c']]

/-- The colors of its three terms.  The last one is the fourth of the
palette. -/
def tangledColors : Entries Text :=
  [(['a'], "#8b5cf6".toList), (['b'], "#10b981".toList), (['c'], "#3b82f6".toList)]

theorem declarations_cover_uses_tangledContent :
    (∃ text, Format.html.document tangledContent Palette.vibrant = .ok text ∧
      Html.termProperties text = [("--term-a".toList, "#8b5cf6".toList),
        ("--term-b".toList, "#10b981".toList), ("--term-c".toList, "#3b82f6".toList)]) ∧
    (∃ text, Format.latex.document tangledContent Palette.vibrant = .ok text ∧
      text = Text.unlines (Latex.layout "Untitled".toList
        ["\\definecolor\x7bterma\x7d\x7bHTML\x7d\x7b8B5CF6\x7d".toList,
         "\\definecolor\x7btermb\x7d\x7bHTML\x7d\x7b10B981\x7d".toList,
         "\\definecolor\x7btermc\x7d\x7bHTML\x7d\x7b3B82F6\x7d".toList]
        ("\\textcolor\x7bterma\x7d\x7bx \\textcolor\x7btermc\x7d\x7by\x7d\x7d = "
          ++ "\\textcolor\x7btermb\x7d\x7bz\x7d").toList
        "The \\textcolor\x7btermc\x7d\x7bsum\x7d.".toList
        [(['c'], "Gamma.".toList), (['a'], "Alpha.".toList)]) ∧
      Latex.definedColors (Latex.preamble text) = tangledColors.map Latex.definedAs) ∧
    (∃ text, Format.beamer.document tangledContent Palette.vibrant = .ok text ∧
      Latex.definedColors (Latex.preamble text) = tangledColors.map Latex.definedAs) := by
  have hread : tangledContent.equationTerms = [['a'], ['c'], ['b']] ∧
      tangledContent.descriptionTerms = [['c']] ∧
      tangledContent.equationTokens.flatMap (Token.write Beamer.front Latex.back) =
        ("\\textcolor\x7bterma\x7d\x7bx \\textcolor\x7btermc\x7d\x7by\x7d\x7d = "
          ++ "\\textcolor\x7btermb\x7d\x7bz\x7d").toList ∧
      Text.trim ((TagStyle.proseSpan.runs tangledContent.description).flatMap Latex.referenced) =
        "The \\textcolor\x7btermc\x7d\x7bsum\x7d.".toList := by decide +kernel
  obtain ⟨hequation, hdescription, hlatex, hprose⟩ := hread
  have hpage : Format.html.document tangledContent Palette.vibrant =
      .ok (Html.text tangledContent Palette.vibrant Html.mathSpan) := by
    show Html.document Html.mathSpan _ _ = _
    rw [Html.document_guarded, hequation, hdescription]
    rfl
  have harticle : Format.latex.document tangledContent Palette.vibrant =
      .ok (Latex.text tangledContent Palette.vibrant) := by
    show Latex.document _ _ = _
    rw [Latex.document_guarded, hequation, hdescription]
    rfl
  have hslides : Format.beamer.document tangledContent Palette.vibrant =
      .ok (Beamer.text tangledContent Palette.vibrant) := by
    show Beamer.document _ _ = _
    rw [Beamer.document_guarded, hequation, hdescription]
    rfl
  have htable : Palette.vibrant.table tangledContent.termOrder = tangledColors := by decide
  have hnames : ∀ term ∈ tangledContent.termOrder, Html.IsName term ∧ Latex.IsColorName term := by
    decide
  obtain ⟨hhtml, hlatexOk, hbeamer⟩ :=
    declarations_cover_uses tangledContent Palette.vibrant {}
  obtain ⟨declared, hdeclares, -, hproperties⟩ := hhtml hpage
  obtain ⟨declared', hdeclares', htext, hcolors⟩ := hlatexOk harticle
  obtain ⟨declared'', -, hdeclares'', -, -, hcolors'⟩ := hbeamer hslides
  obtain rfl := hdeclares.eq_table.trans htable
  obtain rfl := hdeclares'.eq_table.trans htable
  obtain rfl := hdeclares''.eq_table.trans htable
  rw [hlatex, hprose] at htext
  exact ⟨⟨_, hpage, hproperties.2 fun term h => (hnames term h).1⟩,
    ⟨_, harticle, htext, hcolors.2 fun term h => (hnames term h).2⟩,
    ⟨_, hslides, hcolors'.2 fun term h => (hnames term h).2⟩⟩

/-- A source with one term, whose name reads like two declarations. -/
def semicolonSource : Text :=
  Text.unlines <| List.map String.toList ["$$", "\\mark[a: red; --term-b]\x7bx\x7d", "$$"]

/-- The semicolon in the name ends a declaration, so that the page declares two
properties for the one term, and none under its name. -/
theorem Html.semicolon_splits_declaration :
    (Content.read semicolonSource).termOrder = ["a: red; --term-b".toList] ∧
      ∃ text, Format.html.document (Content.read semicolonSource) Palette.vibrant = .ok text ∧
        termProperties text =
          [("--term-a".toList, "red".toList), ("--term-b".toList, "#8b5cf6".toList)] := by
  have hread : (Content.read semicolonSource).termOrder = ["a: red; --term-b".toList] ∧
      (Content.read semicolonSource).equationTerms = ["a: red; --term-b".toList] ∧
      (Content.read semicolonSource).descriptionTerms = [] := by decide +kernel
  obtain ⟨horder, hequation, hdescription⟩ := hread
  have htable : Palette.vibrant.table ["a: red; --term-b".toList] =
      [("a: red; --term-b".toList, "#8b5cf6".toList)] := by decide
  have hknown : ∀ term ∈ (Content.read semicolonSource).equationTerms,
      term ∈ (Content.read semicolonSource).termOrder := by
    rw [hequation, horder]
    exact fun _ h => h
  have hcolors : ∀ e ∈ Palette.vibrant.table (Content.read semicolonSource).termOrder,
      isHexColor e.2 := by
    rw [horder, htable]
    decide
  refine ⟨horder, text (Content.read semicolonSource) Palette.vibrant mathSpan, ?_, ?_⟩
  · show document mathSpan _ _ = _
    rw [document_guarded, horder, hequation, hdescription]
    rfl
  · have hblock : '}' ∉ Text.unlines
        (propertyLines [("a: red; --term-b".toList, "#8b5cf6".toList)]) := by decide
    rw [text_eq_unlines mathSpan hknown hcolors, horder, htable, termProperties,
      rootBlock?_layout _ hblock]
    decide

end AnnotatedEquation
