/-
AnnotatedEquation/Proofs/Command/Sources.lean

The sources that the paths of a command line name.  A file names itself, and a
directory the files in it whose names end in `.md`, each once and in the order
of their names.

* `Command.Names` tells which sources a path names, without regard to how they
  are found and sorted;
* `Command.Holds` tells what a source says.

Main statements: paths that are there name sources, and all of them are found
(`Command.exists_mapM_sources?`); in a textual tree, they can all be read
(`Command.exists_holds`).
-/
import AnnotatedEquation.Proofs.Command.Export
import Mathlib.Data.Char
import Mathlib.Data.List.Lex

namespace AnnotatedEquation

/-! ### The order of names -/

/-- The order of texts is the lexicographic one. -/
theorem Text.precedes_iff_le {s t : Text} : precedes s t ↔ s ≤ t := by
  induction s generalizing t with
  | nil => exact iff_of_true rfl (not_lt.1 (List.not_lt_nil t))
  | cons a s ih =>
    cases t with
    | nil => simp [precedes]
    | cons b t =>
      have hle : a :: s ≤ b :: t ↔ a < b ∨ a = b ∧ s ≤ t := by
        simp only [le_iff_lt_or_eq, List.cons_lt_cons_iff, List.cons.injEq, and_or_left, or_assoc]
      rw [hle, ← ih, precedes]
      simp only [Bool.or_eq_true, Bool.and_eq_true, decide_eq_true_eq]
      exact Iff.rfl

/-- Names that are sorted and do not repeat come in ascending order. -/
theorem pairwise_mergeSort_precedes {names : List Text} (h : names.Nodup) :
    (names.mergeSort Text.precedes).Pairwise (· < ·) := by
  have hsorted : (names.mergeSort Text.precedes).Pairwise (Text.precedes · ·) := by
    refine List.pairwise_mergeSort ?_ ?_ names
    · intro a b c
      simp only [Text.precedes_iff_le]
      exact le_trans
    · intro a b
      simp only [Bool.or_eq_true, Text.precedes_iff_le]
      exact le_total a b
  have hnodup : (names.mergeSort Text.precedes).Nodup :=
    (List.mergeSort_perm names Text.precedes).nodup_iff.2 h
  refine (hsorted.and hnodup).imp ?_
  rintro a b ⟨hle, hne⟩
  exact lt_of_le_of_ne (Text.precedes_iff_le.1 hle) hne

/-! ### The sources of paths -/

namespace Command

open FileTree (Textual)

variable {t : FileTree} {path : Text} {files : List (Path × Place)}

/-- The sources that a path names: a file itself, or the files in a directory
whose names end in `.md`, in ascending order. -/
inductive Names (t : FileTree) (path : Text) : List (Path × Place) → Prop
  | file {place : Place} : t.locate? path = some place → ¬ t.isDir place →
      Names t path [(Path.ofText path, place)]
  | directory {place : Place} {names : List Text} : t.locate? path = some place → t.isDir place →
      names.Pairwise (· < ·) →
      (∀ name, name ∈ names ↔ ".md".toList <:+ name ∧ (t.data? (place ++ [name])).isSome) →
      Names t path (names.map fun name => ((Path.ofText path).entry name, place ++ [name]))

theorem isSome_sources? (h : (t.locate? path).isSome) : (sources? t path).isSome := by
  obtain ⟨place, hplace⟩ := Option.isSome_iff_exists.1 h
  rw [sources?, hplace]
  simp only [Option.bind_eq_bind, Option.bind_some]
  split <;> rfl

/-- **The sources that are found are those that the path names.** -/
theorem names_of_sources? (ht : t.Distinct) (h : sources? t path = some files) :
    Names t path files := by
  rw [sources?, Option.bind_eq_bind] at h
  obtain ⟨place, hplace, h⟩ := Option.bind_eq_some_iff.1 h
  split at h
  · next hdir =>
    obtain rfl := Option.some.inj h
    refine Names.directory hplace hdir ?_ fun name => ?_
    · exact pairwise_mergeSort_precedes ((FileTree.nodup_fileNames ht place).filter _)
    · rw [List.mem_mergeSort, List.mem_filter, FileTree.mem_fileNames_iff, decide_eq_true_iff,
        and_comm]
  · next hdir =>
    obtain rfl := Option.some.inj h
    exact Names.file hplace hdir

/-- Where every path leads somewhere, the sources of all of them are found. -/
theorem exists_mapM_sources? (ht : t.Distinct) {paths : List Text}
    (h : ∀ path ∈ paths, (t.locate? path).isSome) :
    ∃ sources, paths.mapM (sources? t) = some sources ∧ List.Forall₂ (Names t) paths sources := by
  induction paths with
  | nil => exact ⟨[], rfl, List.Forall₂.nil⟩
  | cons path paths ih =>
    obtain ⟨hpath, hpaths⟩ := List.forall_mem_cons.1 h
    obtain ⟨files, hfiles⟩ := Option.isSome_iff_exists.1 (isSome_sources? hpath)
    obtain ⟨sources, hsources, hnames⟩ := ih hpaths
    refine ⟨files :: sources, ?_, List.Forall₂.cons (names_of_sources? ht hfiles) hnames⟩
    rw [List.mapM_cons, hfiles, hsources]
    rfl

theorem Names.isSome_data? (h : Names t path files) : ∀ f ∈ files, (t.data? f.2).isSome := by
  cases h with
  | file hplace hdir =>
    intro f hf
    obtain rfl := List.mem_singleton.1 hf
    exact (FileTree.isDir_or_isSome_of_locate? hplace).resolve_left hdir
  | directory hplace hdir hsorted hmem =>
    intro f hf
    obtain ⟨name, hname, rfl⟩ := List.mem_map.1 hf
    exact ((hmem name).1 hname).2

theorem isSome_data?_of_names {paths : List Text} {sources : List (List (Path × Place))}
    (h : List.Forall₂ (Names t) paths sources) :
    ∀ f ∈ sources.flatten, (t.data? f.2).isSome := by
  induction h with
  | nil => exact fun f hf => absurd hf List.not_mem_nil
  | cons hfiles _ ih =>
    intro f hf
    rw [List.flatten_cons] at hf
    rcases List.mem_append.1 hf with hf | hf
    · exact hfiles.isSome_data? f hf
    · exact ih f hf

/-! ### What sources say -/

/-- The source says the content: it is the file's own text that is read. -/
def Holds (t : FileTree) (f : Path × Place) (k : Path × Content) : Prop :=
  k.1 = f.1 ∧ ∃ source, t.text? f.2 = some source ∧ k.2 = Content.read source

/-- **Files of a textual tree can be read.** -/
theorem exists_holds (ht : t.Textual) (h : ∀ f ∈ files, (t.data? f.2).isSome) :
    ∃ checks, List.Forall₂ (Holds t) files checks := by
  induction files with
  | nil => exact ⟨[], List.Forall₂.nil⟩
  | cons f files ih =>
    obtain ⟨hf, hfiles⟩ := List.forall_mem_cons.1 h
    obtain ⟨source, hsource⟩ := ht.exists_text hf
    obtain ⟨checks, hchecks⟩ := ih hfiles
    exact ⟨(f.1, Content.read source) :: checks, List.Forall₂.cons ⟨rfl, source, hsource, rfl⟩ hchecks⟩

end Command

end AnnotatedEquation
