/-
AnnotatedEquation/Proofs/Command/DefaultOutput.lean

Where a document goes if no output is named: beside its source, under the stem
of the source and the ending of the format.

* `Command.ending` is what a format puts behind the stem;
* `Command.NamedLike` tells that a source has the name of a document already: a
  stem and the extension of the format.  Slides have a longer ending, which no
  stem leaves off.

Main statements: the documents of one source in two formats go to two places
(`Command.target_defaultOutput_inj`), and a document goes to the place of its
source exactly if that is named like it (`Command.target_defaultOutput_eq_iff`).
So an export without an output keeps its source, unless this is named like the
document, and the documents in the other formats
(`Command.export_beside_source`).
-/
import AnnotatedEquation.Proofs.Command.Export
import AnnotatedEquation.Proofs.Files.Path

namespace AnnotatedEquation.Command

variable {t : FileTree} {verbose : Bool} {r : ExportRequest} {p : Path} {place : Place}
variable {f g : Format}

/-! ### Endings -/

/-- What a format puts behind the stem of a source. -/
def ending (f : Format) : Text :=
  (if f = .beamer then "-beamer".toList else []) ++ f.fileExtension

theorem defaultOutput_eq (p : Path) (f : Format) :
    defaultOutput p f = p.withName (p.stem ++ ending f) := rfl

theorem ending_inj : ending f = ending g ↔ f = g := by
  cases f <;> cases g <;> decide

theorem four_le_length_ending (f : Format) : 4 ≤ (ending f).length := by
  cases f <;> decide

theorem stem_append_ending_ne (p : Path) (f : Format) :
    p.stem ++ ending f ≠ [] ∧ p.stem ++ ending f ≠ ['.', '.'] := by
  have hlength := four_le_length_ending f
  constructor
  · intro h
    have := congrArg List.length h
    rw [List.length_append, List.length_nil] at this
    omega
  · intro h
    have := congrArg List.length h
    rw [List.length_append, List.length_cons, List.length_singleton] at this
    omega

/-! ### Sources that are named like documents -/

/-- The name of the source is something with the extension of the format. -/
def NamedLike (p : Path) (f : Format) : Prop :=
  f ≠ .beamer ∧ ∃ front, front ≠ [] ∧ p.name = front ++ f.fileExtension

theorem exists_extension (f : Format) :
    ∃ letters, f.fileExtension = '.' :: letters ∧ '.' ∉ letters ∧ letters ≠ [] := by
  cases f with
  | html => exact ⟨"html".toList, by decide⟩
  | latex => exact ⟨"tex".toList, by decide⟩
  | beamer => exact ⟨"tex".toList, by decide⟩
  | typst => exact ⟨"typ".toList, by decide⟩

theorem stem_append_ending_eq_name_iff : p.stem ++ ending f = p.name ↔ NamedLike p f := by
  by_cases hf : f = .beamer
  · subst hf
    have hending : ending .beamer = '-' :: "beamer.tex".toList := by decide
    rw [hending]
    exact iff_of_false (Path.stem_append_ne_name (by decide)) fun h => h.1 rfl
  · obtain ⟨letters, hext, hdot, hne⟩ := exists_extension f
    rw [ending, if_neg hf, List.nil_append, NamedLike, and_iff_right hf, hext]
    exact Path.stem_append_eq_name_iff hdot hne

/-- **A document takes the path of its source** exactly if the source is named
like it. -/
theorem defaultOutput_eq_self_iff : defaultOutput p f = p ↔ NamedLike p f := by
  rw [defaultOutput_eq, Path.withName_eq_self_iff (stem_append_ending_ne p f).1, eq_comm,
    stem_append_ending_eq_name_iff]

theorem target_defaultOutput_eq_iff :
    t.target (defaultOutput p f) = t.target p ↔ NamedLike p f := by
  obtain ⟨hne, hup⟩ := stem_append_ending_ne p f
  rw [defaultOutput_eq, FileTree.target_withName_eq_iff hne hup, eq_comm,
    stem_append_ending_eq_name_iff]

theorem defaultOutput_inj : defaultOutput p f = defaultOutput p g ↔ f = g := by
  rw [defaultOutput_eq, defaultOutput_eq, Path.withName_inj, List.append_cancel_left_eq, ending_inj]

/-- **The documents in two formats go to two places.** -/
theorem target_defaultOutput_inj :
    t.target (defaultOutput p f) = t.target (defaultOutput p g) ↔ f = g := by
  rw [defaultOutput_eq, defaultOutput_eq, FileTree.target_withName_inj (stem_append_ending_ne p f).2
    (stem_append_ending_ne p g).2, List.append_cancel_left_eq, ending_inj]

/-! ### What an export changes -/

/-- An export changes nothing but the file at the chosen output. -/
theorem data?_runExport_of_ne (h : place ≠ t.target (chosenOutput r)) :
    (runExport t verbose r).tree.data? place = t.data? place := by
  rcases runExport_cases t verbose r with ⟨-, htree⟩ | ⟨document, -, -, htree⟩
  · rw [htree]
  · rw [htree, FileTree.data?_write, if_neg h]

/-- An export that succeeds leaves the document at the chosen output. -/
theorem data?_runExport_of_exitCode (h : (runExport t verbose r).exitCode = 0) :
    ∃ document, IsExported t r document ∧
      (runExport t verbose r).tree.data? (t.target (chosenOutput r)) =
        some (String.ofList document).toUTF8 := by
  rcases runExport_cases t verbose r with ⟨hne, -⟩ | ⟨document, hdocument, -, htree⟩
  · exact absurd h hne
  · exact ⟨document, hdocument, by rw [htree, FileTree.data?_write, if_pos rfl]⟩

theorem chosenOutput_of_none (h : r.output = none) :
    chosenOutput r = defaultOutput (Path.ofText r.input) r.format := by
  rw [chosenOutput, h]

/-- **An export without an output** writes beside its source.  The source keeps
its bytes, unless it is named like the document; then an export that succeeds
leaves the document in its place.  The documents of a source in two formats have
two paths, and an export leaves what is at the paths of the other formats. -/
theorem export_beside_source {arguments : List Text}
    (h : Invocation.read? arguments = some ⟨verbose, .export r⟩) (houtput : r.output = none) :
    (defaultOutput (Path.ofText r.input) r.format = Path.ofText r.input ↔
      NamedLike (Path.ofText r.input) r.format) ∧
    (∀ place, t.locate? r.input = some place →
      (¬ NamedLike (Path.ofText r.input) r.format →
        (run t arguments).tree.data? place = t.data? place) ∧
      (NamedLike (Path.ofText r.input) r.format → (run t arguments).exitCode = 0 →
        ∃ document, IsExported t r document ∧
          (run t arguments).tree.data? place = some (String.ofList document).toUTF8)) ∧
    (∀ f g, f ≠ g →
      defaultOutput (Path.ofText r.input) f ≠ defaultOutput (Path.ofText r.input) g) ∧
    ∀ f, f ≠ r.format →
      (run t arguments).tree.data? (t.target (defaultOutput (Path.ofText r.input) f)) =
        t.data? (t.target (defaultOutput (Path.ofText r.input) f)) := by
  have hchosen := chosenOutput_of_none houtput
  rw [run_export h]
  refine ⟨defaultOutput_eq_self_iff, fun place hplace => ?_,
    fun f g hne heq => hne (defaultOutput_inj.1 heq), fun f hf => ?_⟩
  · have htarget := FileTree.target_eq_of_locate? hplace
    refine ⟨fun hnamed => data?_runExport_of_ne fun heq => hnamed ?_, fun hnamed hexit => ?_⟩
    · rw [hchosen, ← htarget] at heq
      exact target_defaultOutput_eq_iff.1 heq.symm
    · obtain ⟨document, hdocument, hdata⟩ := data?_runExport_of_exitCode hexit
      rw [hchosen, target_defaultOutput_eq_iff.2 hnamed, htarget] at hdata
      exact ⟨document, hdocument, hdata⟩
  · refine data?_runExport_of_ne fun heq => hf ?_
    rw [hchosen] at heq
    exact target_defaultOutput_inj.1 heq

/-! ### An article that is a source -/

/-- A source. -/
def articleNotes : String := "$$\n\\mark[a]\x7bx\x7d\n$$\n## .a\nAlpha.\n"

/-- A tree with the source under the name of an article, and again under the name
of notes, beside a page. -/
def articleTree : FileTree where
  home := ["home".toList]
  files := [(["home".toList, "paper.tex".toList], articleNotes.toUTF8),
    (["home".toList, "paper.md".toList], articleNotes.toUTF8),
    (["home".toList, "paper.html".toList], "A page.".toUTF8)]

/-- The request for an article of a source. -/
def articleRequest (input : Text) : ExportRequest where
  input := input
  format := .latex
  palette := "vibrant".toList
  paletteFile := none
  output := none
  strict := false

/-- A command line that asks for an article of a source. -/
def articleArguments (input : Text) : List Text :=
  ["export".toList, input, "-f".toList, "latex".toList]

theorem read?_articleArguments :
    Invocation.read? (articleArguments "paper.tex".toList) =
        some ⟨false, .export (articleRequest "paper.tex".toList)⟩ ∧
      Invocation.read? (articleArguments "paper.md".toList) =
        some ⟨false, .export (articleRequest "paper.md".toList)⟩ := by
  decide +kernel

/-- The article of the source. -/
def article : Text := Latex.text (Content.read articleNotes.toList) Palette.vibrant

theorem document_articleNotes :
    Format.latex.document (Content.read articleNotes.toList) Palette.vibrant = .ok article := by
  have hrefusal : Palette.vibrant.firstRefusal? (Content.read articleNotes.toList).termOrder
      ((Content.read articleNotes.toList).termOrder ++
        ((Content.read articleNotes.toList).equationTerms ++
          (Content.read articleNotes.toList).descriptionTerms)) = none := by decide +kernel
  show Latex.document _ _ = _
  rw [Latex.document_guarded, hrefusal, guarded_none]
  rfl

theorem exitCode_articleTree :
    (run articleTree (articleArguments "paper.tex".toList)).exitCode = 0 := by
  have hdata : articleTree.data? ["home".toList, "paper.tex".toList] = some articleNotes.toUTF8 := rfl
  have htext : articleTree.textAt? "paper.tex".toList = some articleNotes.toList :=
    FileTree.text?_of_data? hdata
  have hexported : IsExported articleTree (articleRequest "paper.tex".toList) article :=
    ⟨_, _, htext, rfl, (absurd · Bool.false_ne_true), document_articleNotes⟩
  rw [run_export read?_articleArguments.1]
  exact hexported.exitCode

theorem export_beside_source_articleTree :
    (articleRequest "paper.md".toList).output = none ∧
      ¬ NamedLike (Path.ofText "paper.md".toList) .latex ∧
      NamedLike (Path.ofText "paper.tex".toList) .latex ∧
      articleTree.locate? "paper.md".toList = some ["home".toList, "paper.md".toList] ∧
      (run articleTree (articleArguments "paper.md".toList)).tree.data?
        ["home".toList, "paper.md".toList] = some articleNotes.toUTF8 ∧
      (run articleTree (articleArguments "paper.md".toList)).tree.data?
        ["home".toList, "paper.html".toList] = some "A page.".toUTF8 ∧
      ∃ document, IsExported articleTree (articleRequest "paper.tex".toList) document ∧
        (run articleTree (articleArguments "paper.tex".toList)).tree.data?
          ["home".toList, "paper.tex".toList] = some (String.ofList document).toUTF8 := by
  obtain ⟨hread, hread'⟩ := read?_articleArguments
  have hplace : articleTree.locate? "paper.md".toList =
      some ["home".toList, "paper.md".toList] := by decide
  have hplace' : articleTree.locate? "paper.tex".toList =
      some ["home".toList, "paper.tex".toList] := by decide
  have hnot : ¬ NamedLike (Path.ofText "paper.md".toList) .latex := by
    rw [← stem_append_ending_eq_name_iff]
    decide
  have hnamed : NamedLike (Path.ofText "paper.tex".toList) .latex := by
    rw [← stem_append_ending_eq_name_iff]
    decide
  obtain ⟨-, hsource, -, hother⟩ := export_beside_source (t := articleTree) hread' rfl
  obtain ⟨-, hsource', -, -⟩ := export_beside_source (t := articleTree) hread rfl
  refine ⟨rfl, hnot, hnamed, hplace, (hsource _ hplace).1 hnot, ?_,
    (hsource' _ hplace').2 hnamed exitCode_articleTree⟩
  exact hother .html (by decide)

/-- **An export may write over its source**: a source with the extension of
articles is exported to an article. -/
theorem article_overwrites_source :
    (run articleTree (articleArguments "paper.tex".toList)).exitCode = 0 ∧
      articleTree.locate? "paper.tex".toList = some ["home".toList, "paper.tex".toList] ∧
      defaultOutput (Path.ofText "paper.tex".toList) .latex = Path.ofText "paper.tex".toList ∧
      (run articleTree (articleArguments "paper.tex".toList)).tree.data?
          ["home".toList, "paper.tex".toList] ≠
        articleTree.data? ["home".toList, "paper.tex".toList] := by
  refine ⟨exitCode_articleTree, by decide, by decide, ?_⟩
  have hexit := exitCode_articleTree
  rw [run_export read?_articleArguments.1] at hexit ⊢
  obtain ⟨document, ⟨source, palette, hsource, hpalette, -, hdocument⟩, hdata⟩ :=
    data?_runExport_of_exitCode hexit
  have hold : articleTree.data? ["home".toList, "paper.tex".toList] = some articleNotes.toUTF8 := rfl
  have htext : articleTree.textAt? "paper.tex".toList = some articleNotes.toList :=
    FileTree.text?_of_data? hold
  obtain rfl := Option.some.inj (htext.symm.trans hsource)
  obtain rfl : Palette.vibrant = palette := Option.some.inj hpalette
  obtain rfl := Except.ok.inj (document_articleNotes.symm.trans hdocument)
  have htarget : articleTree.target (chosenOutput (articleRequest "paper.tex".toList)) =
      ["home".toList, "paper.tex".toList] := by decide
  rw [htarget] at hdata
  intro hsame
  have hnew := FileTree.text?_of_data? hdata
  have hkept := FileTree.text?_of_data? (hsame.trans hold)
  rw [hnew, String.toList_ofList] at hkept
  -- an article begins with a backslash, and the source with a dollar sign
  have hhead : article.head? ≠ articleNotes.toList.head? := by decide
  exact hhead (congrArg List.head? (Option.some.inj hkept))

end AnnotatedEquation.Command
