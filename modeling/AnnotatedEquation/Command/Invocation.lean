/-
AnnotatedEquation/Command/Invocation.lean

What a command line asks for.

    [-v] export INPUT [-f FORMAT] [-s PALETTE] [--scheme-file FILE]
                      [-o OUTPUT] [--strict]
    [-v] validate PATH...
    [-v] schemes

`Invocation.read?` gives nothing for a command line that makes no sense on
its own; whether the files are there is not looked at.
-/
import AnnotatedEquation.Command.Arguments
import AnnotatedEquation.Command.Choice
import AnnotatedEquation.Document.Format
import AnnotatedEquation.Palette.Builtin

namespace AnnotatedEquation

/-- What to export, and how. -/
structure ExportRequest where
  input : Text
  format : Format
  palette : Text
  paletteFile : Option Text
  output : Option Text
  strict : Bool
  deriving DecidableEq, Repr

/-- What a command asks for. -/
inductive Request where
  | export (request : ExportRequest)
  | validate (paths : List Text)
  | schemes
  | help
  deriving DecidableEq, Repr

/-- What a command line asks for, and whether it asks for details. -/
structure Invocation where
  verbose : Bool
  request : Request
  deriving DecidableEq, Repr

namespace Invocation

/-- The options before the command. -/
inductive MainOption where
  | verbose
  | help
  deriving DecidableEq, Repr

/-- The options of the commands. -/
inductive CommandOption where
  | format
  | palette
  | paletteFile
  | output
  | strict
  | help
  deriving DecidableEq, Repr

def mainRules : List (OptionRule MainOption) :=
  [{ option := .verbose, long := "--verbose".toList, short := some 'v' },
   { option := .help, long := "--help".toList, short := some 'h' }]

def helpRule : OptionRule CommandOption :=
  { option := .help, long := "--help".toList, short := some 'h' }

def exportRules : List (OptionRule CommandOption) :=
  [{ option := .format, long := "--format".toList, short := some 'f', takesValue := true },
   { option := .palette, long := "--scheme".toList, short := some 's', takesValue := true },
   { option := .paletteFile, long := "--scheme-file".toList, takesValue := true },
   { option := .output, long := "--output".toList, short := some 'o', takesValue := true },
   { option := .strict, long := "--strict".toList },
   helpRule]

/-- The format that a value chooses. -/
def chosenFormat? (value : Text) : Option Format :=
  Format.all.find? fun format => Choice.fold value = format.name

/-- What the arguments of an export ask for. -/
def readExport? (a : Arguments CommandOption) : Option ExportRequest := do
  let format ← chosenFormat? ((a.value? .format).getD Format.html.name)
  let palette ← Choice.find? (Entries.keys Palette.builtin)
    ((a.value? .palette).getD Palette.defaultKey)
  match a.operands with
  | [input] =>
    some
      { input := input
        format := format
        palette := palette
        paletteFile := a.value? .paletteFile
        output := a.value? .output
        strict := a.has .strict }
  | _ => none

/-- What a command asks for, given its arguments. -/
def readCommand? (name : Text) (arguments : List Text) : Option Request := do
  if name = "export".toList then
    let a ← Arguments.read? exportRules true arguments
    if a.has .help then some .help else (readExport? a).map .export
  else if name = "validate".toList then
    let a ← Arguments.read? [helpRule] true arguments
    if a.has .help then some .help
    else if a.operands = [] then none
    else some (.validate a.operands)
  else if name = "schemes".toList then
    let a ← Arguments.read? [helpRule] true arguments
    if a.has .help then some .help
    else if a.operands = [] then some .schemes
    else none
  else none

/-- What a command line asks for. -/
def read? (arguments : List Text) : Option Invocation := do
  let a ← Arguments.read? mainRules false arguments
  let verbose := a.has .verbose
  if a.has .help then some ⟨verbose, .help⟩
  else
    match a.operands with
    | name :: rest => (readCommand? name rest).map fun request => ⟨verbose, request⟩
    | [] => none

/-- The paths that a request is about. -/
def paths : Request → List Text
  | .export r => r.input :: r.paletteFile.toList
  | .validate paths => paths
  | .schemes | .help => []

end Invocation

end AnnotatedEquation
