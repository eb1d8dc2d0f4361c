/-
AnnotatedEquation/Main.lean

The command line.  What a command line names is loaded into a tree of files,
the command is carried out on the tree, and what it leaves behind is shown
and written back.
-/
import AnnotatedEquation.Command.Run

namespace AnnotatedEquation

/-- The places of a path and of all that it leads through. -/
def FileTree.passed (t : FileTree) (path : Path) : List Place :=
  (List.range (path.parts.length + 1)).map fun n =>
    t.target { path with parts := path.parts.take n }

/-- Loads what is at a path: a file, or the sources in a directory. -/
def loadPath (t : FileTree) (path : Text) : IO FileTree := do
  let there := (← IO.currentDir) / String.ofList path
  let place := t.target (Path.ofText path)
  let mut t := t
  if ← there.pathExists then
    let passed := t.passed (Path.ofText path)
    if ← there.isDir then
      t := { t with dirs := passed ++ t.dirs }
      for entry in ← there.readDir do
        if entry.fileName.endsWith ".md" then
          t := t.write (place ++ [entry.fileName.toList]) (← IO.FS.readBinFile entry.path)
    else
      t := { t with dirs := passed.dropLast ++ t.dirs }
      t := t.write place (← IO.FS.readBinFile there)
  return t

/-- Writes a file, making the directories that lead to it. -/
def storeFile (place : Place) (data : ByteArray) : IO Unit := do
  let folder := String.ofList (['/'] ++ Text.joinWith ['/'] place.dropLast)
  IO.FS.createDirAll folder
  IO.FS.writeBinFile (String.ofList (['/'] ++ Text.joinWith ['/'] place)) data

end AnnotatedEquation

open AnnotatedEquation in
/-- Carries out the command line. -/
def main (arguments : List String) : IO UInt32 := do
  let words := arguments.map String.toList
  let home := (Path.ofText (toString (← IO.currentDir)).toList).parts
  let mut tree : FileTree := { home := home }
  if let some invocation := Invocation.read? words then
    for path in Invocation.paths invocation.request do
      tree ← loadPath tree path
  let outcome := Command.run tree words
  for line in outcome.output do
    IO.println (String.ofList line)
  for line in outcome.diagnostics do
    IO.eprintln (String.ofList line)
  if outcome.accident.isSome then
    IO.eprintln "Aborted: the input holds something that cannot be processed"
  for (place, data) in FileTree.changes tree outcome.tree do
    storeFile place data
  return outcome.exitCode.toUInt32
