/-
AnnotatedEquation/Command/Run.lean

Carrying out command lines on trees of files.

An `Outcome` is what a run leaves behind: the exit code, the lines on the
two output streams, and the tree.  The exit code is 2 for a command line
that makes no sense or names files that are not there, 1 for a failure, and
0 otherwise.  A failure about which nothing can be said is kept apart as an
accident.  Lines are shown without the sequences that style a terminal,
notices aside.

Writing a line to a stream does not fail: the streams are open and take
UTF-8, and a text has no character that UTF-8 lacks.
-/
import AnnotatedEquation.Command.Invocation
import AnnotatedEquation.Document.Notice
import AnnotatedEquation.Files.Tree
import AnnotatedEquation.Palette.Reader
import AnnotatedEquation.Source.Draft
import AnnotatedEquation.Text.Styling

namespace AnnotatedEquation

/-- What a run leaves behind. -/
structure Outcome where
  exitCode : Nat
  output : List Text := []
  diagnostics : List Text := []
  accident : Option Failure := none
  tree : FileTree

namespace Command

/-! ### Pieces -/

/-- The outcome of a command line that makes no sense. -/
def misused (t : FileTree) : Outcome := { exitCode := 2, tree := t }

/-- The outcome of a run that is refused with a message. -/
def refused (t : FileTree) (output diagnostics : List Text) (message : Text) : Outcome :=
  { exitCode := 1
    output := output
    diagnostics := diagnostics ++ [Text.unstyled ("Error: ".toList ++ message)]
    tree := t }

/-- The outcome of a run that fails. -/
def failed (t : FileTree) (output diagnostics : List Text) (failure : Failure) : Outcome :=
  match failure.message? with
  | some message => refused t output diagnostics message
  | none =>
    { exitCode := 1
      output := output
      diagnostics := diagnostics
      accident := some failure
      tree := t }

/-- The lines of notices: warnings always, the others if details are asked
for. -/
def noticeLines (verbose : Bool) (notices : List Notice) : List Text :=
  (notices.filter fun n => verbose || n.isWarning).map Notice.line

/-- The lines that show the errors and warnings of a content. -/
def problemLines (c : Content) : List Text :=
  (c.errors.map ("  error: ".toList ++ ·) ++ c.warnings.map ("  warning: ".toList ++ ·)).map
    Text.unstyled

/-- The text of the file at a place. -/
def fileText (t : FileTree) (path : Path) (place : Place) : Except Failure Text :=
  match (t.data? place).bind String.fromUTF8? with
  | some text => .ok text.toList
  | none => .error (.undecodable path.text)

/-- The file at a path as it is written. -/
def file? (t : FileTree) (path : Text) : Option (Path × Place) := do
  let place ← t.locate? path
  if (t.data? place).isSome then some (Path.ofText path, place) else none

/-! ### Export -/

/-- The path of a document beside its source. -/
def defaultOutput (input : Path) (format : Format) : Path :=
  let ending := (if format = .beamer then "-beamer".toList else []) ++ format.fileExtension
  input.withName (input.stem ++ ending)

/-- The palette that is asked for. -/
def selectPalette (t : FileTree) (key : Text) : Option (Path × Place) → Except Failure Palette
  | some (path, place) => do Palette.ofText path (← fileText t path place)
  | none => Palette.named key

/-- Exports a source that is there, with a palette file that is there. -/
def exportFile (t : FileTree) (verbose : Bool) (r : ExportRequest) (input : Path × Place)
    (paletteFile : Option (Path × Place)) : Outcome :=
  match fileText t input.1 input.2 with
  | .error failure => failed t [] [] failure
  | .ok source =>
    let c := Content.read source
    let diagnostics := noticeLines verbose [Notice.ofContent c] ++ problemLines c
    if r.strict ∧ c.errors ≠ [] then
      refused t [] diagnostics (input.1.name ++ " has ".toList ++ Text.ofNat c.errors.length
        ++ " validation error(s)".toList)
    else
      match selectPalette t r.palette paletteFile with
      | .error failure => failed t [] diagnostics failure
      | .ok palette =>
        let diagnostics := diagnostics ++ noticeLines verbose (Notice.ofDocument r.format c palette)
        match r.format.document c palette with
        | .error failure => failed t [] diagnostics failure
        | .ok document =>
          let output := match r.output with
            | some path => Path.ofText path
            | none => defaultOutput input.1 r.format
          { exitCode := 0
            output := [Text.unstyled ("Exported: ".toList ++ output.text)]
            diagnostics := diagnostics
            tree := t.write (t.target output) (String.ofList document).toUTF8 }

/-- Exports a source. -/
def runExport (t : FileTree) (verbose : Bool) (r : ExportRequest) : Outcome :=
  match file? t r.input, r.paletteFile.map (file? t) with
  | some input, none => exportFile t verbose r input none
  | some input, some (some paletteFile) => exportFile t verbose r input (some paletteFile)
  | _, _ => misused t

/-! ### Validation -/

/-- The sources that a path names: those in a directory, sorted by name, or
the file itself.  A source in a directory has a name that ends in `.md`. -/
def sources? (t : FileTree) (path : Text) : Option (List (Path × Place)) := do
  let place ← t.locate? path
  if t.isDir place then
    let names := (t.fileNames place).filter fun name => ".md".toList <:+ name
    some ((names.mergeSort Text.precedes).map fun name =>
      ((Path.ofText path).entry name, place ++ [name]))
  else some [(Path.ofText path, place)]

/-- The sources checked so far: the lines on both streams, and how many of
the sources have errors. -/
structure Checked where
  output : List Text := []
  diagnostics : List Text := []
  failures : Nat := 0

/-- Adds the check of a content. -/
def Checked.add (k : Checked) (verbose : Bool) (path : Path) (c : Content) : Checked :=
  let title := match c.title with
    | none | some [] => "(no title)".toList
    | some title => title
  let line := path.text ++ [':', ' '] ++ title ++ [',', ' '] ++ Text.ofNat c.termOrder.length
    ++ " terms".toList
  { output := k.output ++ [Text.unstyled line]
    diagnostics := k.diagnostics ++ noticeLines verbose [Notice.ofContent c] ++ problemLines c
    failures := if c.errors = [] then k.failures else k.failures + 1 }

/-- Checks sources one after the other, after those checked already.  The
number of all of them is told at the end. -/
def checkFiles (t : FileTree) (verbose : Bool) (total : Nat) (k : Checked) :
    List (Path × Place) → Outcome
  | [] =>
    if k.failures = 0 then
      { exitCode := 0
        output := k.output ++ ["All ".toList ++ Text.ofNat total ++ " file(s) valid".toList]
        diagnostics := k.diagnostics
        tree := t }
    else
      refused t k.output k.diagnostics (Text.ofNat k.failures ++ " of ".toList ++ Text.ofNat total
        ++ " file(s) failed validation".toList)
  | (path, place) :: rest =>
    match fileText t path place with
    | .error failure => failed t k.output k.diagnostics failure
    | .ok source => checkFiles t verbose total (k.add verbose path (Content.read source)) rest

/-- Checks all sources that paths name. -/
def runValidate (t : FileTree) (verbose : Bool) (paths : List Text) : Outcome :=
  match paths.mapM (sources? t) with
  | none => misused t
  | some sources =>
    match sources.flatten with
    | [] => refused t [] [] "No markdown files found".toList
    | files => checkFiles t verbose files.length {} files

/-! ### Palettes -/

/-- The lines that list the built-in palettes. -/
def paletteLines : List Text :=
  Palette.builtin.map fun (key, p) =>
    key ++ [':', ' '] ++ p.name ++ [' ', '('] ++ Text.ofNat p.size ++ " colors)".toList

/-! ### Command lines -/

/-- Carries out a command line. -/
def run (t : FileTree) (arguments : List Text) : Outcome :=
  match Invocation.read? arguments with
  | none => misused t
  | some ⟨verbose, request⟩ =>
    match request with
    | .export r => runExport t verbose r
    | .validate paths => runValidate t verbose paths
    | .schemes => { exitCode := 0, output := paletteLines, tree := t }
    | .help => { exitCode := 0, tree := t }

end Command

end AnnotatedEquation
