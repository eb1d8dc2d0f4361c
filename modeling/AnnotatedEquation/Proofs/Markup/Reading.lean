/-
AnnotatedEquation/Proofs/Markup/Reading.lean

What the readers of the four ways of tagging accept, each told by the
writing of the tag and a condition on its two parts.

Main statements: `Mark.read?_eq_some_iff`, `Reference.read?_eq_some_iff`,
`EquationSpan.read?_eq_some_tagged_iff` and `ProseSpan.read?_eq_some_iff`.
-/
import AnnotatedEquation.Markup.EquationSpan
import AnnotatedEquation.Markup.Mark
import AnnotatedEquation.Markup.ProseSpan
import AnnotatedEquation.Markup.Reference
import AnnotatedEquation.Proofs.Markup.Level
import AnnotatedEquation.Proofs.Text.Occurrence

namespace AnnotatedEquation

variable {s rest name content term text display : Text} {run : Run}

theorem braces_content?_eq_some_iff :
    Delimiters.braces.content? s = some (content, rest) ↔
      s = content ++ '}' :: rest ∧ Delimiters.braces.Closed content :=
  Delimiters.content?_eq_some_iff (by decide)

/-! ### Marks -/

namespace Mark

/-- A name that an author can mark a piece with: it is not empty, and holds
no bracket and no brace. -/
def IsTermName (name : Text) : Prop := name ≠ [] ∧ ∀ c ∈ name, c ∉ ['[', ']', '{', '}']

instance : Decidable (IsTermName name) := inferInstanceAs (Decidable (_ ∧ _))

theorem isTermName_iff : IsTermName name ↔ isName name ∧ ']' ∉ name := by
  simp only [IsTermName, isName, Bool.and_eq_true, decide_eq_true_eq, List.all_eq_true, and_assoc]
  refine and_congr_right fun _ => ⟨fun h => ⟨fun c hc => ?_, fun hc => ?_⟩, fun h c hc => ?_⟩
  · have := h c hc
    simp_all
  · exact h _ hc (by simp)
  · have := h.1 c hc
    have : c ≠ ']' := fun e => h.2 (e ▸ hc)
    simp_all

theorem read?_eq_some_iff :
    read? s = some (run, rest) ↔ ∃ name content, run = .tagged name content ∧
      s = write name content ++ rest ∧ IsTermName name ∧ Delimiters.braces.Closed content := by
  constructor
  · intro h
    simp only [read?, Option.bind_eq_bind, Option.bind_eq_some_iff, Prod.exists] at h
    obtain ⟨s₁, h₁, name, s₂, h₂, h⟩ := h
    split at h
    · next hname =>
      simp only [Option.bind_eq_some_iff, Prod.exists, Option.some.injEq, Prod.mk.injEq] at h
      obtain ⟨s₃, h₃, content, rest', h₄, rfl, rfl⟩ := h
      obtain rfl := Text.after?_eq_some_iff.1 h₁
      obtain ⟨rfl, hbracket⟩ := Text.cutAt?_singleton_eq_some_iff.1 h₂
      obtain rfl := Text.after?_eq_some_iff.1 h₃
      obtain ⟨rfl, hclosed⟩ := braces_content?_eq_some_iff.1 h₄
      exact ⟨name, content, rfl, by simp [write], isTermName_iff.2 ⟨hname, hbracket⟩, hclosed⟩
    · simp at h
  · rintro ⟨name, content, rfl, rfl, hname, hclosed⟩
    obtain ⟨hname, hbracket⟩ := isTermName_iff.1 hname
    have hcut : Text.cutAt? [']'] (name ++ ']' :: '{' :: (content ++ '}' :: rest)) =
        some (name, '{' :: (content ++ '}' :: rest)) :=
      Text.cutAt?_singleton_eq_some_iff.2 ⟨rfl, hbracket⟩
    have hcontent : Delimiters.braces.content? (content ++ '}' :: rest) = some (content, rest) :=
      braces_content?_eq_some_iff.2 ⟨rfl, hclosed⟩
    have hbrace : Text.after? ['{'] ('{' :: (content ++ '}' :: rest)) =
        some (content ++ '}' :: rest) := Text.after?_append ['{'] _
    simp [read?, write, hcut, hname, hbrace, hcontent]

end Mark

/-! ### References -/

theorem Reference.read?_eq_some_iff :
    Reference.read? s = some (run, rest) ↔ ∃ term display, run = .tagged term display ∧
      s = Reference.write term display ++ rest ∧ (display ≠ [] ∧ ']' ∉ display) ∧
      term ≠ [] ∧ '}' ∉ term := by
  constructor
  · intro h
    simp only [Reference.read?, Option.bind_eq_bind, Option.bind_eq_some_iff, Prod.exists] at h
    obtain ⟨s₁, h₁, display, s₂, h₂, s₃, h₃, term, s₄, h₄, h⟩ := h
    split at h
    · simp at h
    · next hne =>
      simp only [Option.some.injEq, Prod.mk.injEq] at h
      obtain ⟨rfl, rfl⟩ := h
      obtain rfl := Text.after?_eq_some_iff.1 h₁
      obtain ⟨rfl, hbracket⟩ := Text.cutAt?_singleton_eq_some_iff.1 h₂
      obtain rfl := Text.after?_eq_some_iff.1 h₃
      obtain ⟨rfl, hbrace⟩ := Text.cutAt?_singleton_eq_some_iff.1 h₄
      rw [not_or] at hne
      exact ⟨term, display, rfl, by simp [Reference.write], ⟨hne.1, hbracket⟩, hne.2, hbrace⟩
  · rintro ⟨term, display, rfl, rfl, ⟨hd, hbracket⟩, ht, hbrace⟩
    have hdisplay : Text.cutAt? [']'] (display ++ ']' :: '{' :: '.' :: (term ++ '}' :: rest)) =
        some (display, '{' :: '.' :: (term ++ '}' :: rest)) :=
      Text.cutAt?_singleton_eq_some_iff.2 ⟨rfl, hbracket⟩
    have hterm : Text.cutAt? ['}'] (term ++ '}' :: rest) = some (term, rest) :=
      Text.cutAt?_singleton_eq_some_iff.2 ⟨rfl, hbrace⟩
    simp [Reference.read?, Reference.write, Text.after?, hdisplay, hterm, hd, ht]

/-! ### Equation spans -/

namespace EquationSpan

theorem read?_eq_some_tagged_iff :
    read? s = some (.tagged term content, rest) ↔
      s = write term content ++ rest ∧ '}' ∉ term ∧ Delimiters.braces.Closed content := by
  constructor
  · intro h
    simp only [read?, Option.bind_eq_bind, Option.bind_eq_some_iff, Prod.exists] at h
    obtain ⟨s₁, h₁, name, s₂, h₂, s₃, h₃, h⟩ := h
    split at h
    · simp at h
    · next t h₄ =>
      simp only [Option.bind_eq_some_iff, Prod.exists, Option.some.injEq, Prod.mk.injEq,
        Run.tagged.injEq] at h
      obtain ⟨c, r, h₅, ⟨rfl, rfl⟩, rfl⟩ := h
      obtain rfl := Text.after?_eq_some_iff.1 h₁
      obtain ⟨rfl, hbrace⟩ := Text.cutAt?_singleton_eq_some_iff.1 h₂
      obtain rfl := Text.after?_eq_some_iff.1 h₃
      obtain rfl := Text.after?_eq_some_iff.1 h₄
      obtain ⟨rfl, hclosed⟩ := braces_content?_eq_some_iff.1 h₅
      exact ⟨by simp [write], fun ht => hbrace (by simp [ht]), hclosed⟩
  · rintro ⟨rfl, ht, hclosed⟩
    have hcut : Text.cutAt? ['}'] (classStart ++ (term ++ '}' :: '{' :: (content ++ '}' :: rest))) =
        some (classStart ++ term, '{' :: (content ++ '}' :: rest)) := by
      refine Text.cutAt?_singleton_eq_some_iff.2 ⟨by simp, fun h => ?_⟩
      rcases List.mem_append.1 h with h | h
      · exact absurd h (by decide)
      · exact ht h
    have hcontent : Delimiters.braces.content? (content ++ '}' :: rest) = some (content, rest) :=
      braces_content?_eq_some_iff.2 ⟨rfl, hclosed⟩
    have hbrace : Text.after? ['{'] ('{' :: (content ++ '}' :: rest)) =
        some (content ++ '}' :: rest) := Text.after?_append ['{'] _
    simp [read?, write, hcut, hbrace, hcontent]

theorem prefix_of_read? (h : read? s = some (run, rest)) : opening <+: s := by
  simp only [read?, Option.bind_eq_bind, Option.bind_eq_some_iff, Prod.exists] at h
  obtain ⟨s₁, h₁, -⟩ := h
  rw [Text.after?_eq_some_iff.1 h₁]
  exact List.prefix_append _ _

theorem read?_eq_none_of_not_prefix (h : ¬ opening <+: s) : read? s = none := by
  rw [Option.eq_none_iff_forall_ne_some]
  intro r hr
  exact h (prefix_of_read? hr)

/-- A foreign class begins with the opening of a span, too. -/
theorem prefix_of_read?_plain (h : read? s = some (.plain text, rest)) : opening <+: text := by
  simp only [read?, Option.bind_eq_bind, Option.bind_eq_some_iff, Prod.exists] at h
  obtain ⟨s₁, h₁, name, s₂, h₂, s₃, h₃, h⟩ := h
  split at h
  · simp only [Option.some.injEq, Prod.mk.injEq, Run.plain.injEq] at h
    rw [← h.1, List.append_assoc]
    exact List.prefix_append _ _
  · simp [Option.bind_eq_some_iff] at h

end EquationSpan

/-! ### Prose spans -/

namespace ProseSpan

theorem span_nameChars (ht : ∀ c ∈ term, isNameChar c) (s : Text) :
    (term ++ '"' :: s).takeWhile isNameChar = term ∧
      (term ++ '"' :: s).dropWhile isNameChar = '"' :: s := by
  rw [List.takeWhile_append_of_pos ht, List.dropWhile_append_of_pos ht]
  simp [isNameChar]

theorem read?_eq_some_iff :
    read? s = some (run, rest) ↔ ∃ term text, run = .tagged term text ∧
      s = write term text ++ rest ∧ (∀ c ∈ term, isNameChar c) ∧
      ∀ w, w <:+ text → w ≠ [] → ¬ closing <+: w ++ (closing ++ rest) := by
  constructor
  · intro h
    obtain ⟨hs, -⟩ := eq_of_read? h
    simp only [read?, Option.bind_eq_bind, Option.bind_eq_some_iff, Prod.exists,
      Option.some.injEq, Prod.mk.injEq] at h
    obtain ⟨s₁, h₁, s₂, h₂, text, s₃, h₃, rfl, rfl⟩ := h
    refine ⟨_, text, rfl, hs, fun c hc => ?_, ?_⟩
    · exact List.all_eq_true.1 List.all_takeWhile c hc
    · exact ((Text.cutAt?_eq_some_iff (by decide)).1 h₃).2
  · rintro ⟨term, text, rfl, rfl, ht, htext⟩
    have hcut : Text.cutAt? closing (text ++ (closing ++ rest)) = some (text, rest) :=
      (Text.cutAt?_eq_some_iff (by decide)).2 ⟨rfl, htext⟩
    obtain ⟨htake, hdrop⟩ := span_nameChars ht ('>' :: (text ++ (closing ++ rest)))
    have hmiddle : Text.after? middle ('"' :: '>' :: (text ++ (closing ++ rest))) =
        some (text ++ (closing ++ rest)) := Text.after?_append middle _
    have hwrite : write term text ++ rest =
        opening ++ (term ++ '"' :: '>' :: (text ++ (closing ++ rest))) := by
      simp [write, middle]
    simp [read?, hwrite, htake, hdrop, hmiddle, hcut]

theorem prefix_of_read? (h : read? s = some (run, rest)) : opening <+: s := by
  obtain ⟨term, text, -, rfl, -⟩ := read?_eq_some_iff.1 h
  exact ⟨term ++ (middle ++ (text ++ (closing ++ rest))), by simp [write]⟩

theorem read?_eq_none_of_not_prefix (h : ¬ opening <+: s) : read? s = none := by
  rw [Option.eq_none_iff_forall_ne_some]
  intro r hr
  exact h (prefix_of_read? hr)

end ProseSpan

end AnnotatedEquation
