/-
AnnotatedEquation/Proofs/Command/Export.lean

What the export command does to a tree of files.  Many things can stand in
its way: a file that is not there or holds no text, errors of a source that
is not allowed to have any, a palette file that writes no palette, and a
document that is refused.  Whatever it is, nothing has been written yet.

* `Command.IsExported` tells, without regard to the way there, which document a
  request asks for;
* `Command.chosenPalette?` and `Command.chosenOutput` are the palette and the
  path that a request chooses.

Main statements: an export fails and changes nothing, or writes the document
that is asked for (`Command.exportFile_cases`, `Command.runExport_cases`); it
writes exactly if there is such a document
(`Command.export_writes_document_or_nothing`).
-/
import AnnotatedEquation.Command.Run
import AnnotatedEquation.Proofs.Document.Lookup
import AnnotatedEquation.Proofs.Files.Tree
import AnnotatedEquation.Proofs.Palette.Overlong

namespace AnnotatedEquation.Command

variable {t : FileTree} {verbose : Bool} {r : ExportRequest} {input : Path × Place}
variable {paletteFile : Option (Path × Place)} {source document path text : Text}
variable {palette : Palette} {place : Place}

/-! ### Files that are there -/

theorem file?_eq_some_iff {p : Path} :
    file? t path = some (p, place) ↔
      p = Path.ofText path ∧ t.locate? path = some place ∧ (t.data? place).isSome := by
  rw [file?]
  rcases t.locate? path with - | other
  · simp
  · by_cases h : (t.data? other).isSome
    · simp only [Option.bind_eq_bind, Option.bind_some, if_pos h, Option.some.injEq, Prod.mk.injEq]
      exact ⟨fun ⟨hp, hplace⟩ => ⟨hp.symm, hplace, hplace ▸ h⟩,
        fun ⟨hp, hplace, _⟩ => ⟨hp.symm, hplace⟩⟩
    · simp only [Option.bind_eq_bind, Option.bind_some, if_neg h, reduceCtorEq, false_iff]
      rintro ⟨-, hplace, hdata⟩
      obtain rfl := Option.some.inj hplace
      exact h hdata

theorem fileText_eq_ok_iff (p : Path) : fileText t p place = .ok text ↔ t.text? place = some text := by
  rw [fileText, FileTree.text?]
  rcases (t.data? place).bind String.fromUTF8? with - | s <;> simp

/-- The text that a path names is that of a file which is there and can be
read. -/
theorem textAt?_eq_some_iff :
    t.textAt? path = some text ↔
      ∃ place, file? t path = some (Path.ofText path, place) ∧
        fileText t (Path.ofText path) place = .ok text := by
  rw [FileTree.textAt?, Option.bind_eq_some_iff]
  refine exists_congr fun place => ?_
  rw [file?_eq_some_iff, fileText_eq_ok_iff]
  constructor
  · rintro ⟨hplace, htext⟩
    exact ⟨⟨rfl, hplace, FileTree.isSome_data?_of_text? htext⟩, htext⟩
  · rintro ⟨⟨-, hplace, -⟩, htext⟩
    exact ⟨hplace, htext⟩

/-! ### What a request asks for -/

/-- The palette that a request chooses: the one that its palette file writes,
or the built-in one under its key. -/
def chosenPalette? (t : FileTree) (r : ExportRequest) : Option Palette :=
  match r.paletteFile with
  | none => Palette.builtin.get? r.palette
  | some path => (t.textAt? path).bind fun text => (Palette.ofText (Path.ofText path) text).toOption

/-- The path that a request chooses for the document. -/
def chosenOutput (r : ExportRequest) : Path :=
  match r.output with
  | some path => Path.ofText path
  | none => defaultOutput (Path.ofText r.input) r.format

/-- The document that a request asks for: the one of the source in the chosen
format and palette.  A strict request asks for none if the source has
errors. -/
def IsExported (t : FileTree) (r : ExportRequest) (document : Text) : Prop :=
  ∃ source palette, t.textAt? r.input = some source ∧ chosenPalette? t r = some palette ∧
    (r.strict → (Content.read source).isValid) ∧
    r.format.document (Content.read source) palette = .ok document

theorem selectPalette_none_eq_ok_iff :
    selectPalette t r.palette none = .ok palette ↔ Palette.builtin.get? r.palette = some palette := by
  rw [selectPalette, Palette.named]
  rcases Palette.builtin.get? r.palette with - | p <;> simp

theorem selectPalette_some_eq_ok_iff {p : Path} :
    selectPalette t r.palette (some (p, place)) = .ok palette ↔
      ∃ text, fileText t p place = .ok text ∧ (Palette.ofText p text).toOption = some palette := by
  rw [selectPalette]
  rcases fileText t p place with failure | text
  · simp [bind, Except.bind]
  · rcases hpalette : Palette.ofText p text with failure | q <;>
      simp [bind, Except.bind, hpalette, Except.toOption]

/-! ### Steps of an export -/

/-- The line about an error. -/
def errorLine (e : Text) : Text := Text.unstyled ("  error: ".toList ++ e)

/-- The line about a warning. -/
def warningLine (w : Text) : Text := Text.unstyled ("  warning: ".toList ++ w)

/-- The lines about a content that was read: what was found in it if details
are asked for, then its errors, then its warnings. -/
def checkLines (verbose : Bool) (c : Content) : List Text :=
  (if verbose then [(Notice.ofContent c).line] else []) ++ c.errors.map errorLine
    ++ c.warnings.map warningLine

theorem noticeLines_ofContent (verbose : Bool) (c : Content) :
    noticeLines verbose [Notice.ofContent c] =
      if verbose then [(Notice.ofContent c).line] else [] := by
  cases verbose <;> rfl

theorem problemLines_eq (c : Content) :
    problemLines c = c.errors.map errorLine ++ c.warnings.map warningLine := by
  rw [problemLines, List.map_append, List.map_map, List.map_map]
  rfl

/-- The command shows the lines about a content. -/
theorem checkLines_eq (verbose : Bool) (c : Content) :
    noticeLines verbose [Notice.ofContent c] ++ problemLines c = checkLines verbose c := by
  rw [noticeLines_ofContent, problemLines_eq, checkLines, List.append_assoc]

/-- The message of a strict request about a source with errors. -/
def strictMessage (input : Path) (c : Content) : Text :=
  input.name ++ " has ".toList ++ Text.ofNat c.errors.length ++ " validation error(s)".toList

/-- The outcome of an export that writes a document. -/
def written (t : FileTree) (r : ExportRequest) (input : Path) (diagnostics : List Text)
    (document : Text) : Outcome :=
  let output := match r.output with
    | some path => Path.ofText path
    | none => defaultOutput input r.format
  { exitCode := 0
    output := [Text.unstyled ("Exported: ".toList ++ output.text)]
    diagnostics := diagnostics
    tree := t.write (t.target output) (String.ofList document).toUTF8 }

/-- The part of an export that follows the strict check. -/
def exportContent (t : FileTree) (verbose : Bool) (r : ExportRequest) (input : Path)
    (paletteFile : Option (Path × Place)) (c : Content) : Outcome :=
  match selectPalette t r.palette paletteFile with
  | .error failure => failed t [] (checkLines verbose c) failure
  | .ok palette =>
    let diagnostics := checkLines verbose c ++ noticeLines verbose (Notice.ofDocument r.format c palette)
    match r.format.document c palette with
    | .error failure => failed t [] diagnostics failure
    | .ok document => written t r input diagnostics document

theorem exportFile_eq :
    exportFile t verbose r input paletteFile =
      match fileText t input.1 input.2 with
      | .error failure => failed t [] [] failure
      | .ok source =>
        if r.strict ∧ (Content.read source).errors ≠ [] then
          refused t [] (checkLines verbose (Content.read source))
            (strictMessage input.1 (Content.read source))
        else exportContent t verbose r input.1 paletteFile (Content.read source) := by
  simp only [exportFile, checkLines_eq]
  rfl

/-- Behind the strict check, an export fails for want of a palette or of a
document, or writes the document. -/
theorem exportContent_cases (t : FileTree) (verbose : Bool) (r : ExportRequest) (input : Path)
    (paletteFile : Option (Path × Place)) (c : Content) :
    (∃ failure more,
        (selectPalette t r.palette paletteFile = .error failure ∨
          ∃ palette, r.format.document c palette = .error failure) ∧
        exportContent t verbose r input paletteFile c =
          failed t [] (checkLines verbose c ++ more) failure) ∨
      ∃ palette document more, selectPalette t r.palette paletteFile = .ok palette ∧
        r.format.document c palette = .ok document ∧
        exportContent t verbose r input paletteFile c =
          written t r input (checkLines verbose c ++ more) document := by
  rw [exportContent]
  rcases selectPalette t r.palette paletteFile with failure | palette
  · exact Or.inl ⟨failure, [], Or.inl rfl, by rw [List.append_nil]⟩
  · let notices := noticeLines verbose (Notice.ofDocument r.format c palette)
    rcases hdocument : r.format.document c palette with failure | document
    · exact Or.inl ⟨failure, notices, Or.inr ⟨palette, hdocument⟩, by simp only [hdocument, notices]⟩
    · exact Or.inr ⟨palette, document, notices, rfl, hdocument, by simp only [hdocument, notices]⟩

theorem failed_changes_nothing (t : FileTree) (output diagnostics : List Text) (failure : Failure) :
    (failed t output diagnostics failure).exitCode = 1 ∧
      (failed t output diagnostics failure).tree = t := by
  rw [failed]
  rcases failure.message? with - | message <;> exact ⟨rfl, rfl⟩

theorem not_strict_iff {c : Content} : ¬ (r.strict ∧ c.errors ≠ []) ↔ (r.strict → c.isValid) := by
  rw [Content.isValid, List.isEmpty_iff, not_and, not_not]

/-- **An export of files that are there** fails and changes nothing, or writes
the document of the source. -/
theorem exportFile_cases (t : FileTree) (verbose : Bool) (r : ExportRequest) (input : Path × Place)
    (paletteFile : Option (Path × Place)) :
    ((exportFile t verbose r input paletteFile).exitCode = 1 ∧
        (exportFile t verbose r input paletteFile).tree = t) ∨
      ∃ source palette document diagnostics, fileText t input.1 input.2 = .ok source ∧
        selectPalette t r.palette paletteFile = .ok palette ∧
        (r.strict → (Content.read source).isValid) ∧
        r.format.document (Content.read source) palette = .ok document ∧
        exportFile t verbose r input paletteFile = written t r input.1 diagnostics document := by
  rw [exportFile_eq]
  rcases hsource : fileText t input.1 input.2 with failure | source
  · exact Or.inl (failed_changes_nothing t [] [] failure)
  · by_cases hstrict : r.strict ∧ (Content.read source).errors ≠ []
    · simp only [if_pos hstrict]
      exact Or.inl ⟨rfl, rfl⟩
    · simp only [if_neg hstrict]
      rcases exportContent_cases t verbose r input.1 paletteFile (Content.read source) with
        ⟨failure, more, -, h⟩ | ⟨palette, document, more, hpalette, hdocument, h⟩
      · rw [h]
        exact Or.inl (failed_changes_nothing t [] _ failure)
      · exact Or.inr ⟨source, palette, document, _, rfl, hpalette, not_strict_iff.1 hstrict,
          hdocument, h⟩

/-- Where nothing stands in its way, an export writes the document. -/
theorem exportFile_of_document (verbose : Bool)
    (hsource : fileText t input.1 input.2 = .ok source)
    (hpalette : selectPalette t r.palette paletteFile = .ok palette)
    (hvalid : r.strict → (Content.read source).isValid)
    (hdocument : r.format.document (Content.read source) palette = .ok document) :
    ∃ diagnostics, exportFile t verbose r input paletteFile =
      written t r input.1 diagnostics document := by
  refine ⟨checkLines verbose (Content.read source)
    ++ noticeLines verbose (Notice.ofDocument r.format (Content.read source) palette), ?_⟩
  rw [exportFile_eq, hsource]
  simp only [if_neg (not_strict_iff.2 hvalid)]
  rw [exportContent, hpalette]
  simp only [hdocument]

/-! ### Requests -/

/-- The files that a request names are there: the source, and the palette file
if one is named. -/
def Found (t : FileTree) (r : ExportRequest) (input : Path × Place)
    (paletteFile : Option (Path × Place)) : Prop :=
  file? t r.input = some input ∧ r.paletteFile.map (file? t) = paletteFile.map some

theorem Found.runExport (h : Found t r input paletteFile) :
    runExport t verbose r = exportFile t verbose r input paletteFile := by
  rw [Command.runExport, h.1, h.2]
  rcases paletteFile with - | file <;> rfl

theorem runExport_of_not_found (h : ∀ input paletteFile, ¬ Found t r input paletteFile) :
    runExport t verbose r = misused t := by
  rw [runExport]
  rcases hinput : file? t r.input with - | input
  · rfl
  · rcases hpalette : r.paletteFile.map (file? t) with - | file
    · exact absurd ⟨hinput, hpalette⟩ (h input none)
    · rcases file with - | file
      · rfl
      · exact absurd ⟨hinput, hpalette⟩ (h input (some file))

theorem Found.fileText_iff (h : Found t r input paletteFile) :
    fileText t input.1 input.2 = .ok source ↔ t.textAt? r.input = some source := by
  obtain ⟨p, place⟩ := input
  have hp : p = Path.ofText r.input := (file?_eq_some_iff.1 h.1).1
  subst hp
  rw [textAt?_eq_some_iff, h.1]
  simp

/-- The palette that a request chooses is the one that is selected. -/
theorem Found.selectPalette_iff (h : Found t r input paletteFile) :
    selectPalette t r.palette paletteFile = .ok palette ↔ chosenPalette? t r = some palette := by
  obtain ⟨-, hpalette⟩ := h
  revert hpalette
  rw [chosenPalette?]
  rcases r.paletteFile with - | path <;> intro hpalette
  · rcases paletteFile with - | file
    · exact selectPalette_none_eq_ok_iff
    · cases hpalette
  · rcases paletteFile with - | ⟨p, place⟩
    · cases hpalette
    · have hfile : file? t path = some (p, place) := Option.some.inj hpalette
      obtain ⟨rfl, -, -⟩ := file?_eq_some_iff.1 hfile
      rw [selectPalette_some_eq_ok_iff, Option.bind_eq_some_iff]
      refine exists_congr fun text => and_congr_left fun _ => ?_
      rw [textAt?_eq_some_iff, hfile]
      simp

/-- A request that asks for a document names files that are there. -/
theorem IsExported.found (h : IsExported t r document) :
    ∃ input paletteFile, Found t r input paletteFile := by
  obtain ⟨source, palette, hsource, hpalette, -⟩ := h
  obtain ⟨place, hinput, -⟩ := textAt?_eq_some_iff.1 hsource
  rw [chosenPalette?] at hpalette
  rcases hfile : r.paletteFile with - | path
  · refine ⟨_, none, hinput, ?_⟩
    rw [hfile]
    rfl
  · rw [hfile] at hpalette
    obtain ⟨text, htext, -⟩ := Option.bind_eq_some_iff.1 hpalette
    obtain ⟨place', hplace', -⟩ := textAt?_eq_some_iff.1 htext
    refine ⟨_, some (Path.ofText path, place'), hinput, ?_⟩
    rw [hfile, Option.map_some, hplace', Option.map_some]

theorem tree_written (hinput : file? t r.input = some input) (diagnostics : List Text) :
    (written t r input.1 diagnostics document).tree =
      t.write (t.target (chosenOutput r)) (String.ofList document).toUTF8 := by
  have hpath : input.1 = Path.ofText r.input := (file?_eq_some_iff.1 hinput).1
  rw [written, chosenOutput, hpath]

/-- **An export** fails and changes nothing, or writes the document that is
asked for. -/
theorem runExport_cases (t : FileTree) (verbose : Bool) (r : ExportRequest) :
    ((runExport t verbose r).exitCode ≠ 0 ∧ (runExport t verbose r).tree = t) ∨
      ∃ document, IsExported t r document ∧ (runExport t verbose r).exitCode = 0 ∧
        (runExport t verbose r).tree =
          t.write (t.target (chosenOutput r)) (String.ofList document).toUTF8 := by
  by_cases h : ∃ input paletteFile, Found t r input paletteFile
  · obtain ⟨input, paletteFile, hfound⟩ := h
    rw [hfound.runExport]
    rcases exportFile_cases t verbose r input paletteFile with
      ⟨hexit, htree⟩ | ⟨source, palette, document, diagnostics, hsource, hpalette, hvalid, hdocument, h⟩
    · exact Or.inl ⟨hexit ▸ Nat.one_ne_zero, htree⟩
    · refine Or.inr ⟨document, ?_, by rw [h]; rfl, by rw [h, tree_written hfound.1]⟩
      exact ⟨source, palette, hfound.fileText_iff.1 hsource, hfound.selectPalette_iff.1 hpalette,
        hvalid, hdocument⟩
  · rw [runExport_of_not_found fun input paletteFile hfound => h ⟨input, paletteFile, hfound⟩]
    exact Or.inl ⟨Nat.succ_ne_zero 1, rfl⟩

/-- A request with a palette file that writes no palette asks for no
document. -/
theorem not_isExported_of_ofText {failure : Failure} (hpath : r.paletteFile = some path)
    (htext : t.textAt? path = some text)
    (hpalette : Palette.ofText (Path.ofText path) text = .error failure) :
    ¬ IsExported t r document := by
  rintro ⟨-, palette, -, hchosen, -⟩
  rw [chosenPalette?, hpath] at hchosen
  simp only [htext, Option.bind_some, hpalette] at hchosen
  cases hchosen

/-- Where a request asks for a document, the export succeeds. -/
theorem IsExported.exitCode (h : IsExported t r document) : (runExport t verbose r).exitCode = 0 := by
  obtain ⟨input, paletteFile, hfound⟩ := h.found
  obtain ⟨source, palette, hsource, hpalette, hvalid, hdocument⟩ := h
  obtain ⟨diagnostics, hwritten⟩ := exportFile_of_document verbose
    (hfound.fileText_iff.2 hsource) (hfound.selectPalette_iff.2 hpalette) hvalid hdocument
  rw [hfound.runExport, hwritten]
  rfl

theorem run_export {arguments : List Text}
    (h : Invocation.read? arguments = some ⟨verbose, .export r⟩) :
    run t arguments = runExport t verbose r := by
  rw [run, h]

/-- **The export command writes the document that is asked for, or nothing.**
If it ends with another exit code than 0, the tree is as it was.  If it ends
with 0, the file at the chosen output holds the document that the source asks
for, and every other file is as it was.  It ends with 0 whenever there is such
a document. -/
theorem export_writes_document_or_nothing {arguments : List Text}
    (h : Invocation.read? arguments = some ⟨verbose, .export r⟩) :
    ((run t arguments).exitCode ≠ 0 →
      (run t arguments).tree = t ∧
        (t.Distinct → FileTree.changes t (run t arguments).tree = [])) ∧
    ((run t arguments).exitCode = 0 → ∃ document, IsExported t r document ∧
      (∀ place, (run t arguments).tree.data? place =
        if place = t.target (chosenOutput r) then some (String.ofList document).toUTF8
        else t.data? place) ∧
      (t.Distinct → ∀ place data, (place, data) ∈ FileTree.changes t (run t arguments).tree ↔
        (place, data) = (t.target (chosenOutput r), (String.ofList document).toUTF8) ∧
          t.data? (t.target (chosenOutput r)) ≠ some (String.ofList document).toUTF8)) ∧
    ((∃ document, IsExported t r document) → (run t arguments).exitCode = 0) := by
  rw [run_export h]
  refine ⟨?_, ?_, fun ⟨document, hdocument⟩ => hdocument.exitCode⟩
  · intro hexit
    have htree : (runExport t verbose r).tree = t := by
      rcases runExport_cases t verbose r with ⟨-, htree⟩ | ⟨-, -, hzero, -⟩
      · exact htree
      · exact absurd hzero hexit
    rw [htree]
    exact ⟨rfl, FileTree.changes_self⟩
  · intro hexit
    rcases runExport_cases t verbose r with ⟨hne, -⟩ | ⟨document, hdocument, -, htree⟩
    · exact absurd hexit hne
    · rw [htree]
      exact ⟨document, hdocument, fun place => FileTree.data?_write t _ place _,
        fun ht _ _ => FileTree.mem_changes_write_iff ht⟩

/-- A source with a mark inside a mark. -/
def markedNotes : String :=
  "$$\n\\mark[a]\x7bx + \\mark[b]\x7by\x7d\x7d\n$$\n## .a\nAlpha.\n## .b\nBeta.\n"

/-- A source with a term that has no definition. -/
def hastyNotes : String := "$$\n\\mark[a]\x7bx\x7d\n$$\n"

/-- A tree with both sources. -/
def notesTree : FileTree where
  home := ["home".toList]
  files := [(["home".toList, "notes.md".toList], markedNotes.toUTF8),
    (["home".toList, "hasty.md".toList], hastyNotes.toUTF8)]

/-- A command line that asks for the first source in LaTeX. -/
def notesArguments : List Text :=
  ["export", "notes.md", "--format", "LaTeX", "-oout/notes.tex"].map String.toList

/-- A command line that asks for the second source, if it is valid. -/
def hastyArguments : List Text := ["export", "hasty.md", "--strict"].map String.toList

/-- A tree with the first source and a palette file. -/
def paletteTree (palette : String) : FileTree where
  home := ["home".toList]
  files := [(["home".toList, "notes.md".toList], markedNotes.toUTF8),
    (["home".toList, "long.json".toList], palette.toUTF8)]

theorem textAt?_paletteTree (palette : String) :
    (paletteTree palette).textAt? "long.json".toList = some palette.toList :=
  @FileTree.text?_of_data? _ ["home".toList, "long.json".toList] _ rfl

theorem distinct_paletteTree (palette : String) : (paletteTree palette).Distinct := by
  rw [FileTree.Distinct]
  show [["home".toList, "notes.md".toList], ["home".toList, "long.json".toList]].Nodup
  decide

/-- The text of a palette file with a number of `n` digits. -/
def longPalette (n : Nat) : String :=
  String.ofList ("\x7b\"colors\": [".toList ++ (List.replicate n '1' ++ "]\x7d".toList))

theorem toList_longPalette (n : Nat) : (longPalette n).toList =
    "\x7b\"colors\": [".toList ++ (List.replicate n '1' ++ "]\x7d".toList) := by
  unfold longPalette
  exact String.toList_ofList

theorem ofText_longPalette {n : Nat} (hn : Text.maxDigits < n) (path : Path) :
    Palette.ofText path (longPalette n).toList = .error (.undecodable path.text) := by
  have hdigits : ∀ c ∈ List.replicate n '1', Json.isDigit c := by
    intro c hc
    rw [List.eq_of_mem_replicate hc]
    rfl
  have hfirst : (List.replicate n '1').head? ≠ some '0' := by
    intro h
    exact absurd (List.eq_of_mem_replicate (List.mem_of_mem_head? h)) (by decide)
  have hlong : Text.maxDigits < (List.replicate n '1').length :=
    lt_of_lt_of_eq hn List.length_replicate.symm
  rw [toList_longPalette]
  exact Palette.ofText_overlong path hdigits hfirst hlong

/-- A command line that asks for the palette of this file. -/
def paletteArguments : List Text :=
  ["export", "notes.md", "--scheme-file", "long.json"].map String.toList

theorem export_writes_document_or_nothing_notesTree :
    (∃ r document, Invocation.read? notesArguments = some ⟨false, .export r⟩ ∧
      IsExported notesTree r document ∧ (run notesTree notesArguments).exitCode = 0 ∧
      (run notesTree notesArguments).tree.data?
        ["home".toList, "out".toList, "notes.tex".toList] = some (String.ofList document).toUTF8 ∧
      (run notesTree notesArguments).tree.data? ["home".toList, "notes.md".toList] =
        some markedNotes.toUTF8) ∧
    ((∃ r, Invocation.read? hastyArguments = some ⟨false, .export r⟩) ∧ notesTree.Distinct ∧
      (run notesTree hastyArguments).exitCode ≠ 0 ∧
      FileTree.changes notesTree (run notesTree hastyArguments).tree = []) ∧
    (∃ r, Invocation.read? paletteArguments = some ⟨false, .export r⟩) ∧
      (paletteTree (longPalette (Text.maxDigits + 1))).Distinct ∧
      (run (paletteTree (longPalette (Text.maxDigits + 1))) paletteArguments).exitCode ≠ 0 ∧
      FileTree.changes (paletteTree (longPalette (Text.maxDigits + 1)))
        (run (paletteTree (longPalette (Text.maxDigits + 1))) paletteArguments).tree = [] := by
  have hdistinct : notesTree.Distinct := by
    rw [FileTree.Distinct]
    decide
  have hreads : Invocation.read? notesArguments = some ⟨false, .export
        { input := "notes.md".toList, format := .latex, palette := "vibrant".toList,
          paletteFile := none, output := some "out/notes.tex".toList, strict := false }⟩ ∧
      Invocation.read? hastyArguments = some ⟨false, .export
        { input := "hasty.md".toList, format := .html, palette := "vibrant".toList,
          paletteFile := none, output := none, strict := true }⟩ ∧
      Invocation.read? paletteArguments = some ⟨false, .export
        { input := "notes.md".toList, format := .html, palette := "vibrant".toList,
          paletteFile := some "long.json".toList, output := none, strict := false }⟩ := by
    decide +kernel
  obtain ⟨hread, hread', hread''⟩ := hreads
  have hdata : notesTree.data? ["home".toList, "notes.md".toList] = some markedNotes.toUTF8 := rfl
  have hdata' : notesTree.data? ["home".toList, "hasty.md".toList] = some hastyNotes.toUTF8 := rfl
  have hnotes : notesTree.textAt? "notes.md".toList = some markedNotes.toList :=
    FileTree.text?_of_data? hdata
  have hhasty : notesTree.textAt? "hasty.md".toList = some hastyNotes.toList :=
    FileTree.text?_of_data? hdata'
  obtain ⟨-, hwritten, hgiven⟩ := export_writes_document_or_nothing (t := notesTree) hread
  obtain ⟨hrefused, hwritten', -⟩ := export_writes_document_or_nothing (t := notesTree) hread'
  obtain ⟨hfailed, hwritten'', -⟩ := export_writes_document_or_nothing
    (t := paletteTree (longPalette (Text.maxDigits + 1))) hread''
  have hexit : (run notesTree notesArguments).exitCode = 0 := by
    have hrefusal : Palette.vibrant.firstRefusal? (Content.read markedNotes.toList).termOrder
        ((Content.read markedNotes.toList).termOrder ++
          ((Content.read markedNotes.toList).equationTerms ++
            (Content.read markedNotes.toList).descriptionTerms)) = none := by decide +kernel
    have hdocument : Format.latex.document (Content.read markedNotes.toList) Palette.vibrant =
        .ok (Latex.text (Content.read markedNotes.toList) Palette.vibrant) := by
      show Latex.document _ _ = _
      rw [Latex.document_guarded, hrefusal, guarded_none]
    exact hgiven ⟨_, _, _, hnotes, rfl, (absurd · Bool.false_ne_true), hdocument⟩
  have hexit' : (run notesTree hastyArguments).exitCode ≠ 0 := by
    intro hzero
    obtain ⟨-, ⟨source, -, hsource, -, hvalid, -⟩, -⟩ := hwritten' hzero
    obtain rfl := Option.some.inj (hhasty.symm.trans hsource)
    exact absurd (hvalid rfl) (by decide +kernel)
  -- the number ends the reading of the palette, and nothing is said about it
  have hexit'' : (run (paletteTree (longPalette (Text.maxDigits + 1))) paletteArguments).exitCode ≠ 0 := by
    intro hzero
    obtain ⟨document, hdocument, -⟩ := hwritten'' hzero
    exact not_isExported_of_ofText rfl (textAt?_paletteTree _)
      (ofText_longPalette (Nat.lt_succ_self Text.maxDigits) _) hdocument
  obtain ⟨document, hdocument, hwrite, -⟩ := hwritten hexit
  refine ⟨⟨_, document, hread, hdocument, hexit, ?_, ?_⟩,
    ⟨⟨_, hread'⟩, hdistinct, hexit', (hrefused hexit').2 hdistinct⟩,
    ⟨_, hread''⟩, distinct_paletteTree _, hexit'', (hfailed hexit'').2 (distinct_paletteTree _)⟩
  · rw [hwrite]
    rfl
  · rw [hwrite]
    rfl

end AnnotatedEquation.Command
