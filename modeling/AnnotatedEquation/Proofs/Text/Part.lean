/-
AnnotatedEquation/Proofs/Text/Part.lean

The parts that a source is read in, as parts of its text: its lines, and
what is left of a text that is trimmed.

Main statements: a line is a part of the text (`infix_of_mem_lines`), a
trimmed text is a part of it (`isInfix_trim`), and trimming takes nothing
from an occurrence of a pattern with no blank at its ends
(`infix_trim_iff`).  A text that goes on keeps its lines
(`lines_prefix_append`).
-/
import AnnotatedEquation.Proofs.Text.Occurrence
import AnnotatedEquation.Text.Blank
import AnnotatedEquation.Text.Lines

namespace AnnotatedEquation.Text

variable {p s u v : Text} {c : Char}

/-! ### Trimming -/

theorem trimStart_append (u v : Text) :
    trimStart (u ++ v) = if trimStart u = [] then trimStart v else trimStart u ++ v := by
  by_cases h : trimStart u = []
  · rw [if_pos h]
    simp only [trimStart] at h
    simp [trimStart, List.dropWhile_append, h]
  · rw [if_neg h]
    simp only [trimStart] at h
    simp [trimStart, List.dropWhile_append, h]

theorem trimEnd_append (u v : Text) :
    trimEnd (u ++ v) = if trimEnd v = [] then trimEnd u else u ++ trimEnd v := by
  simp only [trimEnd, List.reverse_append, List.dropWhile_append, List.isEmpty_iff,
    List.reverse_eq_nil_iff]
  split <;> simp

theorem trimStart_cons (hc : isBlank c = false) (s : Text) : trimStart (c :: s) = c :: s := by
  simp [trimStart, hc]

theorem trimEnd_concat (hc : isBlank c = false) (s : Text) : trimEnd (s ++ [c]) = s ++ [c] := by
  simp [trimEnd, hc]

theorem trim_of_no_blank (h : ∀ c ∈ s, isBlank c = false) : trim s = s := by
  rcases List.eq_nil_or_concat' s with rfl | ⟨front, last, rfl⟩
  · rfl
  · have hstart : trimStart (front ++ [last]) = front ++ [last] := by
      rcases front with - | ⟨c, front⟩
      · exact trimStart_cons (h last (by simp)) []
      · exact trimStart_cons (h c (by simp)) _
    rw [trim, hstart, trimEnd_concat (h last (by simp))]

theorem isSuffix_trimStart (s : Text) : trimStart s <:+ s := List.dropWhile_suffix _

theorem isPrefix_trimEnd (s : Text) : trimEnd s <+: s := by
  have := List.dropWhile_suffix (l := s.reverse) isBlank
  simpa [trimEnd] using List.reverse_prefix.2 this

theorem isInfix_trim (s : Text) : trim s <:+: s :=
  (isPrefix_trimEnd _).isInfix.trans (isSuffix_trimStart s).isInfix

theorem infix_trimStart_iff (hp : p ≠ []) (hc : ∀ c ∈ p.head?, isBlank c = false) :
    p <:+: trimStart s ↔ p <:+: s := by
  induction s with
  | nil => rfl
  | cons a s ih =>
    by_cases ha : isBlank a
    · have hne : p.head? ≠ some a := fun h => by simp [hc a h] at ha
      have : trimStart (a :: s) = trimStart s := by simp [trimStart, ha]
      rw [this, ih, infix_cons_of_head_ne hp hne]
    · rw [trimStart_cons (by simpa using ha)]

theorem infix_trimEnd_iff (hp : p ≠ []) (hc : ∀ c ∈ p.getLast?, isBlank c = false) :
    p <:+: trimEnd s ↔ p <:+: s := by
  have h := infix_trimStart_iff (p := p.reverse) (s := s.reverse) (by simpa using hp)
    (by simpa using hc)
  rw [← List.reverse_infix, ← @List.reverse_infix _ _ s]
  simpa [trimEnd, trimStart] using h

theorem infix_trim_iff (hp : p ≠ []) (hh : ∀ c ∈ p.head?, isBlank c = false)
    (hl : ∀ c ∈ p.getLast?, isBlank c = false) : p <:+: trim s ↔ p <:+: s := by
  rw [trim, infix_trimEnd_iff hp hl, infix_trimStart_iff hp hh]

/-- A longer text, trimmed, begins with the shorter one, trimmed. -/
theorem trim_prefix_append (u v : Text) : trim u <+: trim (u ++ v) := by
  rw [trim, trim, trimStart_append]
  split
  · next h =>
    rw [h]
    exact List.nil_prefix
  · rw [trimEnd_append]
    split
    · exact List.prefix_rfl
    · exact (isPrefix_trimEnd _).trans (List.prefix_append _ _)

/-- So do texts that are put together from some parts, and from more. -/
theorem trim_joinWith_prefix {parts more : List Text} (glue : Text) (h : parts <+: more) :
    trim (joinWith glue parts) <+: trim (joinWith glue more) := by
  obtain ⟨rest, rfl⟩ := h
  obtain ⟨behind, hbehind⟩ := joinWith_prefix_append glue parts rest
  rw [← hbehind]
  exact trim_prefix_append _ _

/-! ### Lines -/

theorem prefix_of_mem_head?_lines {line : Text} (h : line ∈ (lines s).head?) : line <+: s := by
  fun_induction lines s generalizing line with
  | case1 => simp at h
  | case2 s ih =>
    obtain rfl : [] = line := by simpa using h
    exact List.nil_prefix
  | case3 c s _ hc ih =>
    obtain rfl : [] = line := by simpa using h
    exact List.nil_prefix
  | case4 c s _ hc ih =>
    rcases hl : lines s with - | ⟨first, rest⟩
    · obtain rfl : [c] = line := by simpa [hl, consLine] using h
      simp
    · obtain rfl : c :: first = line := by simpa [hl, consLine] using h
      exact List.cons_prefix_cons.2 ⟨rfl, ih (by simp [hl])⟩

theorem infix_of_mem_lines {line : Text} (h : line ∈ lines s) : line <:+: s := by
  fun_induction lines s generalizing line with
  | case1 => simp at h
  | case2 s ih =>
    rcases List.mem_cons.1 h with rfl | h
    · exact List.nil_infix
    · exact List.infix_cons (List.infix_cons (ih h))
  | case3 c s _ hc ih =>
    rcases List.mem_cons.1 h with rfl | h
    · exact List.nil_infix
    · exact List.infix_cons (ih h)
  | case4 c s _ hc ih =>
    have hfirst : ∀ l ∈ (lines s).head?, l <+: s := fun _ => prefix_of_mem_head?_lines
    rcases hl : lines s with - | ⟨first, rest⟩
    · obtain rfl : line = [c] := by simpa [hl, consLine] using h
      exact (List.prefix_append [c] s).isInfix
    · simp only [hl, consLine, List.mem_cons] at h
      rcases h with rfl | h
      · exact (List.cons_prefix_cons.2 ⟨rfl, hfirst first (by simp [hl])⟩).isInfix
      · exact List.infix_cons (ih (by simp [hl, h]))

/-! ### Lines of a longer text -/

theorem lines_cons (h : c = '\r' → s.head? ≠ some '\n') :
    lines (c :: s) = if isBreak c then [] :: lines s else consLine c (lines s) := by
  rw [lines]
  rintro t rfl rfl
  exact h rfl rfl

theorem consLine_ne_nil (c : Char) (ls : List Text) : consLine c ls ≠ [] := by
  cases ls <;> simp [consLine]

theorem eq_nil_of_lines_eq_nil (h : lines s = []) : s = [] := by
  fun_cases lines s with
  | case1 => rfl
  | case2 s => rw [lines] at h; cases h
  | case3 c s hne hc =>
    rw [lines, if_pos hc] at h
    · cases h
    · exact hne
  | case4 c s hne hc =>
    rw [lines, if_neg hc] at h
    · exact (consLine_ne_nil c _ h).elim
    · exact hne

/-- A text that goes on behind a line feed has the lines that it had before,
and maybe more. -/
theorem lines_prefix_append (s t : Text) : lines s <+: lines (s ++ '\n' :: t) := by
  fun_induction lines s with
  | case1 => exact List.nil_prefix
  | case2 s ih => exact List.cons_prefix_cons.2 ⟨rfl, ih⟩
  | case3 c s hne hc ih =>
    have hlines : ∃ rest, lines (c :: (s ++ '\n' :: t)) = [] :: rest ∧ lines s <+: rest := by
      by_cases hpair : c = '\r' ∧ s = []
      · -- a carriage return at the end and the line feed are one boundary
        obtain ⟨rfl, rfl⟩ := hpair
        exact ⟨lines t, by rw [List.nil_append, lines], List.nil_prefix⟩
      · refine ⟨_, ?_, ih⟩
        rw [lines_cons, if_pos hc]
        rintro rfl hhead
        rcases s with - | ⟨a, s⟩
        · exact hpair ⟨rfl, rfl⟩
        · obtain rfl : a = '\n' := by simpa using hhead
          exact hne s rfl rfl
    obtain ⟨rest, hrest, hprefix⟩ := hlines
    rw [List.cons_append, hrest]
    exact List.cons_prefix_cons.2 ⟨rfl, hprefix⟩
  | case4 c s hne hc ih =>
    have hr : c ≠ '\r' := by
      rintro rfl
      exact hc (by decide)
    rw [List.cons_append, lines_cons fun h => (hr h).elim, if_neg hc]
    rcases hl : lines s with - | ⟨first, rest⟩
    · rw [eq_nil_of_lines_eq_nil hl]
      exact List.cons_prefix_cons.2 ⟨rfl, List.nil_prefix⟩
    · obtain ⟨more, hmore⟩ := ih
      rw [hl] at hmore
      rw [← hmore]
      exact List.prefix_append _ _

end AnnotatedEquation.Text
