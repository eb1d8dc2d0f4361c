/-
AnnotatedEquation/Proofs/Files/Tree.lean

What is in a tree, and what writing a file does to it: the file holds the
bytes, and no other file changes.

* `FileTree.text?` is the text at a place, and `FileTree.textAt?` the text of
  the file that a path names;
* in a `FileTree.Distinct` tree, no place has two files, and in a
  `FileTree.Textual` one all of them hold texts.

Main statements: `FileTree.data?_write`, and what is to be stored after a
write (`FileTree.mem_changes_write_iff`) and after none
(`FileTree.changes_self`); the names in a directory
(`FileTree.mem_fileNames_iff`).
-/
import AnnotatedEquation.Files.Tree
import AnnotatedEquation.Proofs.Entries

namespace AnnotatedEquation.FileTree

variable {t : FileTree} {place other : Place} {data : ByteArray} {path text name : Text}

/-! ### Bytes at places -/

/-- No place has two files. -/
def Distinct (t : FileTree) : Prop := (t.files.map Prod.fst).Nodup

theorem putFile_eq_put (place : Place) (data : ByteArray) (files : List (Place × ByteArray)) :
    putFile place data files = Entries.put place data files := by
  induction files with
  | nil => rfl
  | cons f files ih => rw [putFile, Entries.put, ih]

theorem lookup_putFile (place other : Place) (data : ByteArray)
    (files : List (Place × ByteArray)) :
    (putFile place data files).lookup other =
      if other = place then some data else files.lookup other := by
  induction files with
  | nil =>
    by_cases h : other = place
    · simp [putFile, h]
    · simp [putFile, List.lookup_cons, beq_false_of_ne h, h]
  | cons f files ih =>
    rw [putFile]
    by_cases hplace : f.1 = place
    · rw [if_pos hplace, List.lookup_cons, List.lookup_cons, hplace]
      by_cases h : other = place
      · simp [h]
      · simp [beq_false_of_ne h, h]
    · rw [if_neg hplace, List.lookup_cons, List.lookup_cons, ih]
      by_cases h : other = f.1
      · simp [h, hplace]
      · simp [beq_false_of_ne h]

/-- **A file that is written holds the bytes, and no other file changes.** -/
theorem data?_write (t : FileTree) (place other : Place) (data : ByteArray) :
    (t.write place data).data? other = if other = place then some data else t.data? other :=
  lookup_putFile place other data t.files

theorem mem_of_data? (h : t.data? place = some data) : (place, data) ∈ t.files := by
  obtain ⟨before, after, hfiles, -⟩ := List.lookup_eq_some_iff.1 h
  rw [hfiles]
  exact List.mem_append_right _ List.mem_cons_self

theorem data?_of_mem (ht : t.Distinct) (h : (place, data) ∈ t.files) : t.data? place = some data := by
  obtain ⟨before, after, hfiles⟩ := List.append_of_mem h
  refine List.lookup_eq_some_iff.2 ⟨before, after, hfiles, fun f hf => ?_⟩
  rw [Distinct, hfiles, List.map_append, List.map_cons, List.nodup_append] at ht
  have hne := ht.2.2 _ (List.mem_map_of_mem hf) _ List.mem_cons_self
  simpa using Ne.symm hne

theorem isSome_data?_iff : (t.data? place).isSome ↔ ∃ data, (place, data) ∈ t.files := by
  rw [data?, List.lookup_isSome_iff]
  constructor
  · rintro ⟨⟨other, data⟩, hmem, heq⟩
    obtain rfl : place = other := eq_of_beq heq
    exact ⟨data, hmem⟩
  · rintro ⟨data, hmem⟩
    exact ⟨_, hmem, BEq.rfl⟩

/-! ### What is to be stored -/

theorem mem_changes_iff {after : FileTree} :
    (place, data) ∈ changes t after ↔ (place, data) ∈ after.files ∧ t.data? place ≠ some data := by
  have hdata : ∀ a b : ByteArray, a.data = b.data ↔ a = b := fun a b =>
    ⟨ByteArray.ext, congrArg ByteArray.data⟩
  rw [changes, List.mem_filter, decide_eq_true_iff]
  rcases t.data? place with - | old
  · simp
  · simp [hdata]

theorem changes_self (ht : t.Distinct) : changes t t = [] := by
  rw [List.eq_nil_iff_forall_not_mem]
  rintro ⟨place, data⟩ h
  obtain ⟨hmem, hne⟩ := mem_changes_iff.1 h
  exact hne (data?_of_mem ht hmem)

theorem distinct_write (ht : t.Distinct) : (t.write place data).Distinct := by
  rw [Distinct, write, putFile_eq_put]
  exact Entries.nodup_keys_put ht place data

/-- After a file was written, it alone is to be stored, unless it held the
bytes before. -/
theorem mem_changes_write_iff (ht : t.Distinct) {new : ByteArray} :
    (other, new) ∈ changes t (t.write place data) ↔
      (other, new) = (place, data) ∧ t.data? place ≠ some data := by
  have hafter : (other, new) ∈ (t.write place data).files ↔
      (if other = place then some data else t.data? other) = some new := by
    rw [← data?_write]
    exact ⟨data?_of_mem (distinct_write ht), mem_of_data?⟩
  rw [mem_changes_iff, hafter]
  constructor
  · rintro ⟨hnew, hne⟩
    by_cases h : other = place
    · rw [if_pos h] at hnew
      obtain rfl := Option.some.inj hnew
      subst h
      exact ⟨rfl, hne⟩
    · rw [if_neg h] at hnew
      exact absurd hnew hne
  · rintro ⟨heq, hne⟩
    obtain ⟨rfl, rfl⟩ := Prod.mk.inj heq
    exact ⟨if_pos rfl, hne⟩

/-! ### Names in a directory -/

/-- The name of a place if that is in a directory. -/
def nameIn? (place other : Place) : Option Text :=
  if other.dropLast = place then other.getLast? else none

theorem nameIn?_eq_some_iff :
    nameIn? place other = some name ↔ other = place ++ [name] := by
  rw [nameIn?]
  constructor
  · intro h
    split at h
    · next hplace => rw [← List.dropLast_append_getLast? name h, hplace]
    · cases h
  · rintro rfl
    rw [List.dropLast_concat, if_pos rfl, List.getLast?_concat]

theorem fileNames_eq : t.fileNames place = (t.files.map Prod.fst).filterMap (nameIn? place) := by
  rw [List.filterMap_map]
  rfl

theorem mem_fileNames_iff : name ∈ t.fileNames place ↔ (t.data? (place ++ [name])).isSome := by
  rw [isSome_data?_iff, fileNames_eq, List.mem_filterMap]
  constructor
  · rintro ⟨other, hother, hname⟩
    obtain rfl := nameIn?_eq_some_iff.1 hname
    obtain ⟨⟨_, data⟩, hmem, rfl⟩ := List.mem_map.1 hother
    exact ⟨data, hmem⟩
  · rintro ⟨data, hmem⟩
    exact ⟨_, List.mem_map_of_mem hmem, nameIn?_eq_some_iff.2 rfl⟩

theorem nodup_fileNames (ht : t.Distinct) (place : Place) : (t.fileNames place).Nodup := by
  rw [fileNames_eq]
  refine List.Nodup.filterMap ?_ ht
  intro other other' name hother hother'
  rw [nameIn?_eq_some_iff.1 hother, nameIn?_eq_some_iff.1 hother']

/-- What a path leads to is a directory or a file. -/
theorem isDir_or_isSome_of_locate? (h : t.locate? path = some place) :
    t.isDir place ∨ (t.data? place).isSome := by
  rw [locate?] at h
  split at h
  · cases h
  · obtain ⟨other, -, hother⟩ := Option.bind_eq_some_iff.1 h
    split at hother
    · next hplace =>
      obtain rfl := Option.some.inj hother
      exact hplace
    · cases hother

/-! ### Texts -/

/-- The text at a place. -/
def text? (t : FileTree) (place : Place) : Option Text :=
  ((t.data? place).bind String.fromUTF8?).map String.toList

/-- The text of the file that a path names. -/
def textAt? (t : FileTree) (path : Text) : Option Text := (t.locate? path).bind t.text?

theorem text?_of_data? {s : String} (h : t.data? place = some s.toUTF8) :
    t.text? place = some s.toList := by
  have hdecode : String.fromUTF8? s.toUTF8 = some s := by
    rw [String.fromUTF8?, String.toUTF8_eq_toByteArray, dif_pos s.isValidUTF8]
    rfl
  rw [text?, h, Option.bind_some, hdecode, Option.map_some]

theorem isSome_data?_of_text? (h : t.text? place = some text) : (t.data? place).isSome := by
  rw [text?, Option.map_eq_some_iff] at h
  obtain ⟨s, hs, -⟩ := h
  obtain ⟨data, hdata, -⟩ := Option.bind_eq_some_iff.1 hs
  rw [hdata, Option.isSome_some]

/-- No place has two files, and every file holds UTF-8 text. -/
structure Textual (t : FileTree) : Prop where
  distinct : t.Distinct
  utf8 : ∀ f ∈ t.files, f.2.IsValidUTF8

theorem Textual.exists_text (ht : t.Textual) (h : (t.data? place).isSome) :
    ∃ text, t.text? place = some text := by
  obtain ⟨data, hdata⟩ := Option.isSome_iff_exists.1 h
  have hvalid : data.IsValidUTF8 := ht.utf8 _ (mem_of_data? hdata)
  have hdecode : ∃ s, String.fromUTF8? data = some s := by
    rw [String.fromUTF8?, dif_pos hvalid]
    exact ⟨_, rfl⟩
  obtain ⟨s, hs⟩ := hdecode
  exact ⟨s.toList, by rw [text?, hdata, Option.bind_some, hs, Option.map_some]⟩

end AnnotatedEquation.FileTree
