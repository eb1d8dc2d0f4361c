/-
AnnotatedEquation/Proofs/Command/Validation.lean

The validate command, and how it agrees with a strict export.

* `Command.report` is the outcome that contents deserve, told from all of them
  at once: a line for each, its errors and warnings, and the verdict.

The command goes through the sources one after the other and hands on what it
has found so far.  What it adds for a source is said by the content of that
source alone (`Command.foldl_add`), so that the outcome is the report, whatever
came before (`Command.runValidate_eq`).

Main statement: `Command.validate_agrees_with_strict_export`.
-/
import AnnotatedEquation.Proofs.Command.Sources
import AnnotatedEquation.Proofs.Command.StrictCheck

namespace AnnotatedEquation.Command

open FileTree (Textual)

variable {t : FileTree} {verbose : Bool} {r : ExportRequest}
variable {files : List (Path × Place)} {checks : List (Path × Content)}
variable {path source : Text} {paths : List Text} {place : Place}

/-! ### Reports -/

/-- The line about a source. -/
def headline (path : Path) (c : Content) : Text :=
  let title := match c.title with
    | none | some [] => "(no title)".toList
    | some title => title
  Text.unstyled (path.text ++ [':', ' '] ++ title ++ [',', ' '] ++ Text.ofNat c.termOrder.length
    ++ " terms".toList)

/-- How many contents have errors. -/
def failureCount (checks : List (Path × Content)) : Nat := checks.countP fun k => !k.2.isValid

/-- There are contents, and none of them has errors. -/
def Passes (checks : List (Path × Content)) : Prop := checks ≠ [] ∧ ∀ k ∈ checks, k.2.isValid

instance (checks : List (Path × Content)) : Decidable (Passes checks) :=
  inferInstanceAs (Decidable (_ ∧ _))

/-- The line of a success. -/
def successLine (checks : List (Path × Content)) : Text :=
  "All ".toList ++ Text.ofNat checks.length ++ " file(s) valid".toList

/-- The line of a failure. -/
def failureLine (checks : List (Path × Content)) : Text :=
  if checks = [] then "Error: No markdown files found".toList
  else
    "Error: ".toList ++ (Text.ofNat (failureCount checks) ++ " of ".toList
      ++ Text.ofNat checks.length ++ " file(s) failed validation".toList)

/-- What contents deserve. -/
def report (t : FileTree) (verbose : Bool) (checks : List (Path × Content)) : Outcome :=
  { exitCode := if Passes checks then 0 else 1
    output := (checks.map fun k => headline k.1 k.2)
      ++ if Passes checks then [successLine checks] else []
    diagnostics := (checks.flatMap fun k => checkLines verbose k.2)
      ++ if Passes checks then [] else [failureLine checks]
    tree := t }

theorem failureCount_eq_zero_iff : failureCount checks = 0 ↔ ∀ k ∈ checks, k.2.isValid := by
  rw [failureCount, List.countP_eq_zero]
  simp

theorem escape_not_mem_ofNat (n : Nat) : '\x1b' ∉ Text.ofNat n := by
  intro h
  have hdigit : Char.isDigit '\x1b' := Nat.isDigit_of_mem_toDigits (by decide) (by decide) h
  exact absurd hdigit (by decide)

/-- The line of a failure holds no style sequence. -/
theorem unstyled_failureLine (checks : List (Path × Content)) :
    Text.unstyled (failureLine checks) = failureLine checks := by
  refine Text.unstyled_eq_self fun h => ?_
  rw [failureLine] at h
  split at h
  · exact absurd h (by decide)
  · simp only [List.mem_append] at h
    rcases h with h | ((h | h) | h) | h
    · exact absurd h (by decide)
    · exact escape_not_mem_ofNat _ h
    · exact absurd h (by decide)
    · exact escape_not_mem_ofNat _ h
    · exact absurd h (by decide)

/-! ### Checking sources -/

/-- One more check. -/
theorem add_eq (k : Checked) (verbose : Bool) (path : Path) (c : Content) :
    k.add verbose path c =
      { output := k.output ++ [headline path c]
        diagnostics := k.diagnostics ++ checkLines verbose c
        failures := if c.errors = [] then k.failures else k.failures + 1 } := by
  rw [← checkLines_eq, ← List.append_assoc]
  rfl

/-- **Checks add up.**  What is added for a content does not depend on what was
found before. -/
theorem foldl_add (verbose : Bool) (checks : List (Path × Content)) (k : Checked) :
    checks.foldl (fun k x => k.add verbose x.1 x.2) k =
      { output := k.output ++ checks.map fun x => headline x.1 x.2
        diagnostics := k.diagnostics ++ checks.flatMap fun x => checkLines verbose x.2
        failures := k.failures + failureCount checks } := by
  induction checks generalizing k with
  | nil => simp [failureCount]
  | cons x checks ih =>
    have hfailures : (if x.2.errors = [] then k.failures else k.failures + 1)
        + failureCount checks = k.failures + failureCount (x :: checks) := by
      rw [failureCount, failureCount, List.countP_cons, Content.isValid]
      by_cases h : x.2.errors = []
      · simp [h]
      · simp [h, Nat.add_assoc, Nat.add_comm]
    rw [List.foldl_cons, ih, add_eq, hfailures, List.map_cons, List.flatMap_cons,
      List.append_assoc, List.append_assoc, List.singleton_append]

theorem checkFiles_cons {f : Path × Place} (hsource : fileText t f.1 f.2 = .ok source) (total : Nat)
    (k : Checked) (files : List (Path × Place)) :
    checkFiles t verbose total k (f :: files) =
      checkFiles t verbose total (k.add verbose f.1 (Content.read source)) files := by
  rw [checkFiles, hsource]

/-- Sources that can be read are checked in order. -/
theorem checkFiles_eq (h : List.Forall₂ (Holds t) files checks) (total : Nat) (k : Checked) :
    checkFiles t verbose total k files =
      checkFiles t verbose total (checks.foldl (fun k x => k.add verbose x.1 x.2) k) [] := by
  induction h generalizing k with
  | nil => rfl
  | @cons f x files checks hread _ ih =>
    obtain ⟨hpath, source, hsource, hcontent⟩ := hread
    rw [checkFiles_cons ((fileText_eq_ok_iff f.1).2 hsource), ih, List.foldl_cons, hpath, hcontent]

/-- The verdict on all sources, once each has been checked. -/
theorem checkFiles_nil (hne : checks ≠ []) :
    checkFiles t verbose checks.length
        { output := checks.map fun x => headline x.1 x.2
          diagnostics := checks.flatMap fun x => checkLines verbose x.2
          failures := failureCount checks } [] = report t verbose checks := by
  rw [checkFiles, report]
  by_cases h : failureCount checks = 0
  · have hpasses : Passes checks := ⟨hne, failureCount_eq_zero_iff.1 h⟩
    simp only [if_pos h, if_pos hpasses, List.append_nil]
    rfl
  · have hpasses : ¬ Passes checks := fun hpasses => h (failureCount_eq_zero_iff.2 hpasses.2)
    have hline : failureLine checks = _ := if_neg hne
    simp only [if_neg h, if_neg hpasses, refused, ← hline, unstyled_failureLine, List.append_nil]

/-- **Validation leaves the report behind.** -/
theorem runValidate_eq {sources : List (List (Path × Place))}
    (hsources : paths.mapM (sources? t) = some sources)
    (h : List.Forall₂ (Holds t) sources.flatten checks) :
    runValidate t verbose paths = report t verbose checks := by
  rw [runValidate, hsources]
  simp only
  generalize sources.flatten = files at h
  cases h with
  | nil =>
    have hline : Text.unstyled ("Error: ".toList ++ "No markdown files found".toList) =
        failureLine [] := unstyled_failureLine []
    have hpasses : ¬ Passes [] := fun h => h.1 rfl
    simp only [refused, hline, report, if_neg hpasses, List.map_nil, List.flatMap_nil,
      List.nil_append]
  | @cons f x files checks hread h =>
    have hall : List.Forall₂ (Holds t) (f :: files) (x :: checks) := List.Forall₂.cons hread h
    show checkFiles t verbose (f :: files).length {} (f :: files) = _
    rw [hall.length_eq, checkFiles_eq hall, foldl_add, Nat.zero_add]
    exact checkFiles_nil (List.cons_ne_nil x checks)

theorem run_validate {arguments : List Text}
    (h : Invocation.read? arguments = some ⟨verbose, .validate paths⟩) :
    run t arguments = runValidate t verbose paths := by
  rw [run, h]

/-! ### Single files -/

theorem runValidate_file (hplace : t.locate? path = some place) (hdir : ¬ t.isDir place)
    (hsource : t.text? place = some source) :
    runValidate t verbose [path] =
      report t verbose [(Path.ofText path, Content.read source)] := by
  have hsources : [path].mapM (sources? t) = some [[(Path.ofText path, place)]] := by
    rw [List.mapM_cons, List.mapM_nil, sources?, hplace]
    simp only [Option.bind_eq_bind, Option.bind_some, if_neg hdir]
    rfl
  exact runValidate_eq hsources (List.Forall₂.cons ⟨rfl, source, hsource, rfl⟩ List.Forall₂.nil)

theorem exists_found {input : Path × Place} (hinput : file? t r.input = some input)
    (hpalette : ∀ path ∈ r.paletteFile, (file? t path).isSome) :
    ∃ paletteFile, Found t r input paletteFile := by
  rcases hfile : r.paletteFile with - | path
  · exact ⟨none, hinput, by rw [hfile]; rfl⟩
  · obtain ⟨file, h⟩ := Option.isSome_iff_exists.1 (hpalette path hfile)
    exact ⟨some file, hinput, by rw [hfile, Option.map_some, h, Option.map_some]⟩

/-- **The verdicts on a single file agree.** -/
theorem runValidate_agrees (hkey : r.palette ∈ Entries.keys Palette.builtin) (hstrict : r.strict)
    (hplace : t.locate? r.input = some place) (hdir : ¬ t.isDir place)
    (hpalette : ∀ path ∈ r.paletteFile, (file? t path).isSome)
    (hsource : t.text? place = some source) :
    ((runValidate t verbose [r.input]).exitCode ≠ 0 ↔
      IsStrictRefusal (Path.ofText r.input) (runExport t verbose r)) ∧
    checkLines verbose (Content.read source) <+: (runExport t verbose r).diagnostics ∧
    (IsStrictRefusal (Path.ofText r.input) (runExport t verbose r) →
      ∃ line, (runExport t verbose r).diagnostics =
        checkLines verbose (Content.read source) ++ [line]) := by
  have hinput : file? t r.input = some (Path.ofText r.input, place) :=
    file?_eq_some_iff.2 ⟨rfl, hplace, FileTree.isSome_data?_of_text? hsource⟩
  obtain ⟨paletteFile, hfound⟩ := exists_found hinput hpalette
  have htext : fileText t (Path.ofText r.input) place = .ok source :=
    (fileText_eq_ok_iff _).2 hsource
  have hexit : (runValidate t verbose [r.input]).exitCode ≠ 0 ↔ ¬ (Content.read source).isValid := by
    rw [runValidate_file hplace hdir hsource, report]
    simp [Passes]
  rw [hfound.runExport, hexit]
  obtain ⟨hrefusal, hlines⟩ :=
    strict_exportFile verbose (Path.ofText r.input, place) paletteFile hkey hstrict htext
  exact ⟨hrefusal.symm, hlines⟩

/-! ### Validation and strict exports -/

/-- **Validation agrees with strict exports.**  In a tree of texts, a command
line that asks to validate paths which are there collects the sources that the
paths name, and leaves the report on them behind: nothing is written.  For a
single file, it fails exactly if a strict export of the file, with a palette
file that is there if one is named, is refused by the strict check; both show
the lines about the file's content, and then one line with the verdict if they
refuse it. -/
theorem validate_agrees_with_strict_export (ht : t.Textual) :
    (∀ {arguments verbose paths},
      Invocation.read? arguments = some ⟨verbose, .validate paths⟩ →
      (∀ path ∈ paths, (t.locate? path).isSome) →
      ∃ sources checks, List.Forall₂ (Names t) paths sources ∧
        List.Forall₂ (Holds t) sources.flatten checks ∧
        run t arguments = report t verbose checks) ∧
    (∀ {arguments arguments' verbose r place},
      Invocation.read? arguments = some ⟨verbose, .validate [r.input]⟩ →
      Invocation.read? arguments' = some ⟨verbose, .export r⟩ → r.strict →
      t.locate? r.input = some place → ¬ t.isDir place →
      (∀ path ∈ r.paletteFile, (file? t path).isSome) →
      ∃ source, t.text? place = some source ∧
        run t arguments = report t verbose [(Path.ofText r.input, Content.read source)] ∧
        ((run t arguments).exitCode ≠ 0 ↔
          IsStrictRefusal (Path.ofText r.input) (run t arguments')) ∧
        checkLines verbose (Content.read source) <+: (run t arguments').diagnostics ∧
        (IsStrictRefusal (Path.ofText r.input) (run t arguments') →
          ∃ line, (run t arguments').diagnostics =
            checkLines verbose (Content.read source) ++ [line])) := by
  refine ⟨?_, ?_⟩
  · intro arguments verbose paths hread hpaths
    obtain ⟨sources, hsources, hnames⟩ := exists_mapM_sources? ht.distinct hpaths
    obtain ⟨checks, hchecks⟩ := exists_holds ht (isSome_data?_of_names hnames)
    exact ⟨sources, checks, hnames, hchecks,
      (run_validate hread).trans (runValidate_eq hsources hchecks)⟩
  · intro arguments arguments' verbose r place hread hread' hstrict hplace hdir hpalette
    have hdata : (t.data? place).isSome :=
      (FileTree.isDir_or_isSome_of_locate? hplace).resolve_left hdir
    obtain ⟨source, hsource⟩ := ht.exists_text hdata
    rw [run_validate hread, run_export hread']
    exact ⟨source, hsource, runValidate_file hplace hdir hsource,
      runValidate_agrees (mem_keys_of_read? hread') hstrict hplace hdir hpalette hsource⟩

/-- A command line that asks to validate the sources of the working directory,
and one of them once more. -/
def folderArguments : List Text := ["validate", ".", "hasty.md"].map String.toList

/-- A command line that asks to validate a source with errors. -/
def fileArguments : List Text := ["validate", "hasty.md"].map String.toList

/-- What is shown about the source with errors. -/
def hastyLines : List Text :=
  ["  error: Term \"a\" is marked in the equation (\\mark[a]\x7b...\x7d) but has no definition (## .a)",
   "  warning: Term \"a\" is marked in the equation (\\mark[a]\x7b...\x7d) but never referenced in"
     ++ " the description ([...]\x7b.a\x7d)"].map String.toList

theorem validate_agrees_with_strict_export_notesTree :
    notesTree.Textual ∧
    (Invocation.read? folderArguments =
        some ⟨false, .validate [".".toList, "hasty.md".toList]⟩ ∧
      (∀ path ∈ [".".toList, "hasty.md".toList], (notesTree.locate? path).isSome) ∧
      ∃ sources checks, List.Forall₂ (Names notesTree) [".".toList, "hasty.md".toList] sources ∧
        List.Forall₂ (Holds notesTree) sources.flatten checks ∧
        run notesTree folderArguments = report notesTree false checks) ∧
    ∃ r, Invocation.read? fileArguments = some ⟨false, .validate [r.input]⟩ ∧
      Invocation.read? hastyArguments = some ⟨false, .export r⟩ ∧ r.strict ∧
      (run notesTree fileArguments).exitCode ≠ 0 ∧
      (run notesTree fileArguments).diagnostics =
        hastyLines ++ ["Error: 1 of 1 file(s) failed validation".toList] ∧
      IsStrictRefusal (Path.ofText r.input) (run notesTree hastyArguments) ∧
      ∃ line, (run notesTree hastyArguments).diagnostics = hastyLines ++ [line] := by
  have htextual : notesTree.Textual := by
    refine ⟨?_, ?_⟩
    · rw [FileTree.Distinct]
      decide
    · intro f hf
      rcases List.mem_cons.1 hf with rfl | hf
      · exact markedNotes.isValidUTF8
      · obtain rfl := List.mem_singleton.1 hf
        exact hastyNotes.isValidUTF8
  have hread : Invocation.read? folderArguments =
      some ⟨false, .validate [".".toList, "hasty.md".toList]⟩ := by decide +kernel
  have hread' : Invocation.read? fileArguments = some ⟨false, .validate ["hasty.md".toList]⟩ := by
    decide +kernel
  have hread'' : Invocation.read? hastyArguments = some ⟨false, .export
      { input := "hasty.md".toList, format := .html, palette := "vibrant".toList,
        paletteFile := none, output := none, strict := true }⟩ := by
    decide +kernel
  have hpaths : ∀ path ∈ [".".toList, "hasty.md".toList],
      (notesTree.locate? path).isSome := by decide
  have hplace : notesTree.locate? "hasty.md".toList = some ["home".toList, "hasty.md".toList] := by
    decide
  have hdir : ¬ notesTree.isDir ["home".toList, "hasty.md".toList] := by decide
  have hdata : notesTree.data? ["home".toList, "hasty.md".toList] = some hastyNotes.toUTF8 := rfl
  obtain ⟨hreport, hagree⟩ := validate_agrees_with_strict_export htextual
  have hpalette : ∀ path ∈ (none : Option Text), (file? notesTree path).isSome :=
    fun path h => absurd h (Option.not_mem_none path)
  obtain ⟨source, hsource, hrun, hrefused, -, hlines⟩ :=
    hagree hread' hread'' rfl hplace hdir hpalette
  obtain rfl := Option.some.inj ((FileTree.text?_of_data? hdata).symm.trans hsource)
  have hcheck : checkLines false (Content.read hastyNotes.toList) = hastyLines ∧
      ¬ (Content.read hastyNotes.toList).isValid := by decide +kernel
  generalize Content.read hastyNotes.toList = c at hcheck hrun hlines
  replace hrun : run notesTree fileArguments =
      report notesTree false [(Path.ofText "hasty.md".toList, c)] := hrun
  generalize Path.ofText "hasty.md".toList = path at hrun
  have hpasses : ¬ Passes [(path, c)] := fun h => hcheck.2 (h.2 _ List.mem_cons_self)
  have hline : failureLine [(path, c)] = "Error: 1 of 1 file(s) failed validation".toList := by
    have hcount : failureCount [(path, c)] = 1 := by
      rw [failureCount, List.countP_singleton, if_pos (by simpa using hcheck.2)]
    rw [failureLine, if_neg (List.cons_ne_nil _ _), hcount, List.length_singleton]
    decide
  have hexit : (run notesTree fileArguments).exitCode ≠ 0 := by
    rw [hrun, report, if_neg hpasses]
    exact Nat.one_ne_zero
  have hshown : (run notesTree fileArguments).diagnostics =
      hastyLines ++ ["Error: 1 of 1 file(s) failed validation".toList] := by
    rw [hrun]
    simp only [report, if_neg hpasses, List.flatMap_singleton, hcheck.1, hline]
  obtain ⟨line, hdiagnostics⟩ := hlines (hrefused.1 hexit)
  exact ⟨htextual, ⟨hread, hpaths, hreport hread hpaths⟩, _, hread', hread'', rfl, hexit, hshown,
    hrefused.1 hexit, line, hcheck.1 ▸ hdiagnostics⟩

end AnnotatedEquation.Command
