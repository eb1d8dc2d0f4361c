/-
AnnotatedEquation/Proofs/Files/Path.lean

Names at the end of paths, and where paths lead.

* `FileTree.enter` is the place that one component leads to, so that a path
  leads to what all of its components lead to, one after the other.

Main statements: a name is put together again from its stem and an ending
exactly if it has that ending behind something else
(`Path.stem_append_eq_name_iff`); a path that leads to something that is there
leads to the place where its file would be written (`FileTree.target_eq_of_locate?`);
and another name at the end of a path leads to another place
(`FileTree.target_withName_eq_iff`).
-/
import AnnotatedEquation.Files.Tree
import Mathlib.Data.List.Basic

namespace AnnotatedEquation

variable {p : Path} {t : FileTree} {here place : Place} {parts : List Text}
variable {name name' front ending part path : Text}

/-! ### Stems -/

namespace Path

/-- What stands before the last dot of a name, if there is something on both
sides of it. -/
theorem stem_of_name (h : p.name = front ++ '.' :: ending) (hdot : '.' ∉ ending)
    (hfront : front ≠ []) (hending : ending ≠ []) : p.stem = front := by
  have hreverse : p.name.reverse = ending.reverse ++ '.' :: front.reverse := by simp [h]
  have hne : ∀ c ∈ ending.reverse, decide (c ≠ '.') = true := by
    intro c hc
    have hmem := List.mem_reverse.1 hc
    exact decide_eq_true fun heq => hdot (heq ▸ hmem)
  rw [stem, hreverse, List.takeWhile_append_of_pos hne, List.dropWhile_append_of_pos hne]
  simp [hfront, hending]

theorem stem_cases (p : Path) :
    p.stem = p.name ∨ p.stem ≠ [] ∧ ∃ ending, p.name = p.stem ++ '.' :: ending := by
  have hsplit := List.takeWhile_append_dropWhile (p := fun c => decide (c ≠ '.'))
    (l := p.name.reverse)
  rw [stem]
  split
  · next front hfront =>
    split
    · exact Or.inl rfl
    · next hne =>
      rw [hfront] at hsplit
      refine Or.inr ⟨fun hnil => hne (Or.inl (List.reverse_eq_nil_iff.1 hnil)), ?_⟩
      refine ⟨(p.name.reverse.takeWhile fun c => decide (c ≠ '.')).reverse, ?_⟩
      rw [← List.reverse_inj, List.reverse_append, List.reverse_cons, List.reverse_reverse,
        List.reverse_reverse, List.append_assoc, List.singleton_append]
      exact hsplit.symm
  · exact Or.inl rfl

/-- **A name is its stem with an ending exactly if it has the ending** behind
something else. -/
theorem stem_append_eq_name_iff (hdot : '.' ∉ ending) (hending : ending ≠ []) :
    p.stem ++ '.' :: ending = p.name ↔ ∃ front, front ≠ [] ∧ p.name = front ++ '.' :: ending := by
  constructor
  · intro h
    rcases p.stem_cases with hstem | ⟨hne, -⟩
    · rw [hstem] at h
      simp at h
    · exact ⟨p.stem, hne, h.symm⟩
  · rintro ⟨front, hfront, h⟩
    rw [stem_of_name h hdot hfront hending, h]

/-- A name is not its stem with something behind it that does not begin with a
dot. -/
theorem stem_append_ne_name {c : Char} (hc : c ≠ '.') : p.stem ++ c :: ending ≠ p.name := by
  intro h
  rcases p.stem_cases with hstem | ⟨-, ending', hname⟩
  · rw [hstem] at h
    simp at h
  · rw [hname] at h
    exact hc (List.cons.inj (List.append_cancel_left h)).1

/-! ### Names -/

theorem withName_eq_self_iff (hname : name ≠ []) : p.withName name = p ↔ p.name = name := by
  obtain ⟨root, parts⟩ := p
  rw [withName, Path.name, Path.mk.injEq, and_iff_right rfl]
  constructor
  · intro h
    rw [← h, List.getLast?_concat, Option.getD_some]
  · intro h
    rcases List.eq_nil_or_concat' parts with rfl | ⟨front, last, rfl⟩
    · exact absurd h.symm hname
    · simp only [List.getLast?_concat, Option.getD_some] at h
      rw [List.dropLast_concat, h]

theorem withName_inj : p.withName name = p.withName name' ↔ name = name' := by
  rw [withName, withName, Path.mk.injEq, and_iff_right rfl, List.append_cancel_left_eq,
    List.cons.injEq, and_iff_left rfl]

end Path

/-! ### Where paths lead -/

namespace FileTree

/-- The place that a component leads to from another. -/
def enter (here : Place) (part : Text) : Place :=
  if part = ['.', '.'] then here.dropLast else here ++ [part]

/-- The place at which a path begins. -/
def origin (t : FileTree) (p : Path) : Place := if p.root = [] then t.home else []

theorem target_eq_foldl (t : FileTree) (p : Path) :
    t.target p = p.parts.foldl enter (t.origin p) := rfl

/-- Following components leads to where they lead, if all the directories on
the way are there. -/
theorem foldl_enter_of_follow? (h : t.follow? here parts = some place) :
    (parts.filter Path.isStep).foldl enter here = place := by
  induction parts generalizing here with
  | nil => exact Option.some.inj h
  | cons part parts ih =>
    rw [follow?] at h
    split at h
    · by_cases hup : part = ['.', '.']
      · rw [if_pos hup] at h
        rw [List.filter_cons_of_pos (by rw [hup]; rfl), List.foldl_cons, enter, if_pos hup]
        exact ih h
      · rw [if_neg hup] at h
        by_cases hstep : Path.isStep part
        · rw [if_pos hstep] at h
          rw [List.filter_cons_of_pos hstep, List.foldl_cons, enter, if_neg hup]
          exact ih h
        · rw [if_neg hstep] at h
          rw [List.filter_cons_of_neg hstep]
          exact ih h
    · cases h

theorem rootOf_eq_nil_iff : Path.rootOf path = [] ↔ path.head? ≠ some '/' := by
  rcases path with - | ⟨c, s⟩
  · simp [Path.rootOf]
  · rw [List.head?_cons, Path.rootOf.eq_def]
    split <;> simp_all

/-- **A path that leads to something that is there** leads to the place where
its file would be written. -/
theorem target_eq_of_locate? (h : t.locate? path = some place) :
    t.target (Path.ofText path) = place := by
  rw [locate?] at h
  split at h
  · cases h
  · obtain ⟨there, hfollow, hthere⟩ := Option.bind_eq_some_iff.1 h
    split at hthere
    · obtain rfl := Option.some.inj hthere
      have horigin : t.origin (Path.ofText path) =
          if path.head? = some '/' then [] else t.home := by
        rw [origin, Path.ofText]
        simp only [rootOf_eq_nil_iff, ite_not]
      rw [target_eq_foldl, horigin]
      exact foldl_enter_of_follow? hfollow
    · cases hthere

theorem target_withName (hname : name ≠ ['.', '.']) :
    t.target (p.withName name) = p.parts.dropLast.foldl enter (t.origin p) ++ [name] := by
  rw [target_eq_foldl, Path.withName, List.foldl_append, List.foldl_cons, List.foldl_nil, enter,
    if_neg hname]
  rfl

theorem target_withName_inj (hname : name ≠ ['.', '.']) (hname' : name' ≠ ['.', '.']) :
    t.target (p.withName name) = t.target (p.withName name') ↔ name = name' := by
  rw [target_withName hname, target_withName hname', List.append_cancel_left_eq, List.cons.injEq,
    and_iff_left rfl]

/-- **Another name at the end of a path leads to another place.** -/
theorem target_withName_eq_iff (hname : name ≠ []) (hup : name ≠ ['.', '.']) :
    t.target (p.withName name) = t.target p ↔ p.name = name := by
  refine ⟨fun h => ?_, fun h => by rw [(Path.withName_eq_self_iff hname).2 h]⟩
  rw [target_withName hup, target_eq_foldl] at h
  rcases List.eq_nil_or_concat' p.parts with hparts | ⟨front, last, hparts⟩
  · rw [hparts] at h
    simp at h
  · rw [hparts, List.dropLast_concat, List.foldl_append, List.foldl_cons, List.foldl_nil, enter] at h
    split at h
    · -- the place above is shorter than any place below
      have hlength := congrArg List.length h
      rw [List.length_append, List.length_dropLast, List.length_singleton] at hlength
      omega
    · rw [Path.name, hparts, List.getLast?_concat, Option.getD_some]
      exact (List.cons.inj (List.append_cancel_left h)).1.symm

end FileTree

end AnnotatedEquation
