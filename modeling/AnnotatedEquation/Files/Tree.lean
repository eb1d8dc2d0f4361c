/-
AnnotatedEquation/Files/Tree.lean

Trees of files: which files there are, with their bytes, and which
directories, as seen from a working directory.

A path is followed component by component, and every component but the last
leads through a directory.  `FileTree.locate?` follows a path to something
that is there, and `FileTree.target` tells where a file of a path would be
written.
-/
import AnnotatedEquation.Files.Path

namespace AnnotatedEquation

/-- A place in a tree: the names on the way from the top. -/
abbrev Place := List Text

/-- Files with their bytes, directories that may be empty, and the working
directory.  Every place on the way to any of these is a directory. -/
structure FileTree where
  home : Place := []
  files : List (Place × ByteArray) := []
  dirs : List Place := []

namespace FileTree

/-- The bytes of the file at a place. -/
def data? (t : FileTree) (place : Place) : Option ByteArray := t.files.lookup place

/-- A directory is at the place. -/
def isDir (t : FileTree) (place : Place) : Bool :=
  t.files.any (fun f => place <+: f.1 && place ≠ f.1)
    || t.dirs.any (place <+: ·) || place <+: t.home

/-- The place that components lead to from another, if every directory on
the way is there. -/
def follow? (t : FileTree) : Place → List Text → Option Place
  | here, [] => some here
  | here, part :: rest =>
    if t.isDir here then
      if part = ['.', '.'] then follow? t here.dropLast rest
      else if Path.isStep part then follow? t (here ++ [part]) rest
      else follow? t here rest
    else none

/-- The place of a path as it is written, if a file or a directory is
there. -/
def locate? (t : FileTree) (path : Text) : Option Place := do
  if path = [] then none
  else
    let place ← t.follow? (if path.head? = some '/' then [] else t.home) (Path.components path)
    if t.isDir place ∨ (t.data? place).isSome then some place else none

/-- The place of a file that a path names, there or not. -/
def target (t : FileTree) (path : Path) : Place :=
  path.parts.foldl (fun here part => if part = ['.', '.'] then here.dropLast else here ++ [part])
    (if path.root = [] then t.home else [])

/-- The names of the files in a directory. -/
def fileNames (t : FileTree) (place : Place) : List Text :=
  t.files.filterMap fun f => if f.1.dropLast = place then f.1.getLast? else none

/-- Puts bytes at a place among files. -/
def putFile (place : Place) (data : ByteArray) : List (Place × ByteArray) → List (Place × ByteArray)
  | [] => [(place, data)]
  | f :: fs => if f.1 = place then (place, data) :: fs else f :: putFile place data fs

/-- The tree with bytes at a place, and nothing else changed. -/
def write (t : FileTree) (place : Place) (data : ByteArray) : FileTree :=
  { t with files := putFile place data t.files }

/-- The files that are new or hold other bytes than before. -/
def changes (before after : FileTree) : List (Place × ByteArray) :=
  after.files.filter fun f => (before.data? f.1).map ByteArray.data ≠ some f.2.data

end FileTree

end AnnotatedEquation
