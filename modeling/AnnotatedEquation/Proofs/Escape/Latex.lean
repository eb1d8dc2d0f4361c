/-
AnnotatedEquation/Proofs/Escape/Latex.lean

What escaping and inline math do to the occurrences of a pattern.  What a
reserved character is replaced by keeps the text before it apart from the
text behind it, so that an occurrence in the escaped text lies between two
replacements, where the text is as it was.

* `Reserved.Safe` tells of a pattern that the replacements keep apart.

Main statements: escaping makes no occurrence of a safe pattern
(`Reserved.infix_of_infix_escape`), and neither does prose with inline math
(`Latex.infix_of_infix_prose`); if the reserved characters keep the pattern
apart as well, none is lost (`Latex.infix_prose_iff`).
-/
import AnnotatedEquation.Document.Latex
import AnnotatedEquation.Proofs.Text.Occurrence

namespace AnnotatedEquation

variable {p s u : Text}

/-! ### Reserved characters -/

namespace Reserved

variable {token : Char → Text}

/-- What is put in the place of a character is the character itself, or
keeps occurrences of the pattern apart. -/
structure Safe (token : Char → Text) (p : Text) : Prop where
  ne_nil : p ≠ []
  parts_token : ∀ c, token c = [c] ∨ Text.Parts p (token c)
  parts_dollar : Text.Parts p ['\\', '$']

/-- **Escaping makes no occurrence of a safe pattern.** -/
theorem infix_of_infix_escape (hp : Safe token p) (h : p <:+: u ++ escape token s) :
    p <:+: u ++ s := by
  fun_induction escape token s generalizing u with
  | case1 => exact h
  | case2 s ih =>
    have hdollar : u ++ '\\' :: '$' :: escape token s = u ++ (['\\', '$'] ++ escape token s) := rfl
    have hdollar' : u ++ '\\' :: '$' :: s = u ++ (['\\', '$'] ++ s) := rfl
    rw [hdollar, hp.parts_dollar] at h
    rw [hdollar', hp.parts_dollar]
    refine h.imp_right fun hs => ?_
    simpa using ih (u := []) (by simpa using hs)
  | case3 c s hne ih =>
    rcases hp.parts_token c with hc | hc
    · rw [hc, ← List.append_assoc] at h
      have hs := ih h
      rwa [List.append_assoc] at hs
    · rw [hc] at h
      have hsuffix : u ++ c :: s = u ++ ([c] ++ s) := rfl
      rcases h with hu | hs
      · exact hu.trans (List.prefix_append _ _).isInfix
      · have hs' : p <:+: s := by simpa using ih (u := []) (by simpa using hs)
        rw [hsuffix, ← List.append_assoc]
        exact hs'.trans (List.suffix_append _ _).isInfix

/-- Escaping loses no occurrence of a safe pattern that the reserved
characters keep apart as well. -/
theorem infix_escape_of_infix (hp : Safe token p)
    (hchar : ∀ c, token c = [c] ∨ Text.Parts p [c]) (h : p <:+: u ++ s) :
    p <:+: u ++ escape token s := by
  fun_induction escape token s generalizing u with
  | case1 => exact h
  | case2 s ih =>
    have hdollar : u ++ '\\' :: '$' :: escape token s = u ++ (['\\', '$'] ++ escape token s) := rfl
    have hdollar' : u ++ '\\' :: '$' :: s = u ++ (['\\', '$'] ++ s) := rfl
    rw [hdollar', hp.parts_dollar] at h
    rw [hdollar, hp.parts_dollar]
    refine h.imp_right fun hs => ?_
    simpa using ih (u := []) (by simpa using hs)
  | case3 c s hne ih =>
    have hsplit : u ++ c :: s = u ++ ([c] ++ s) := rfl
    rcases hchar c with hc | hc
    · rw [hsplit, ← List.append_assoc] at h
      rw [hc, ← List.append_assoc]
      exact ih h
    · rw [hsplit, hc] at h
      rcases h with hu | hs
      · exact hu.trans (List.prefix_append _ _).isInfix
      · have hs' : p <:+: escape token s := by simpa using ih (u := []) (by simpa using hs)
        rw [← List.append_assoc]
        exact hs'.trans (List.suffix_append _ _).isInfix

/-- Escaped text bars a pattern if everything that escaping writes does. -/
theorem bars_escape (htoken : ∀ c, Text.Bars p (token c)) (hdollar : Text.Bars p ['\\', '$'])
    (s : Text) : Text.Bars p (escape token s) := by
  fun_induction escape token s with
  | case1 => exact Text.bars_nil
  | case2 s ih => exact hdollar.append ih
  | case3 c s hne ih => exact (htoken c).append ih

end Reserved

/-! ### Inline math -/

/-- The dollar signs around math keep the text before the math, the math and
the text behind it apart. -/
theorem InlineMath.infix_render_iff (hp : p ≠ []) (hdollar : '$' ∉ p) (writeText : Text → Text)
    (q : InlineMath) :
    p <:+: q.render writeText delimited ↔
      p <:+: writeText q.first ∨ ∃ piece ∈ q.rest, p <:+: piece.1 ∨ p <:+: writeText piece.2 := by
  obtain ⟨first, rest⟩ := q
  show p <:+: writeText first ++ rest.flatMap (fun piece => delimited piece.1 ++ writeText piece.2) ↔ _
  generalize writeText first = u
  induction rest generalizing u with
  | nil => simp
  | cons piece rest ih =>
    have hpiece : u ++ (piece :: rest).flatMap (fun piece => delimited piece.1 ++ writeText piece.2) =
        u ++ '$' :: (piece.1 ++ '$' :: (writeText piece.2 ++
          rest.flatMap fun piece => delimited piece.1 ++ writeText piece.2)) := by
      simp [delimited]
    rw [hpiece, Text.infix_append_cons_iff hp hdollar, Text.infix_append_cons_iff hp hdollar, ih]
    simp [or_assoc]

namespace Latex

/-! ### LaTeX -/

/-- The characters that are replaced. -/
def reserved : Text := ['{', '}', '$', '&', '%', '#', '_', '\\', '~', '^']

theorem token_eq_or_mem (c : Char) : token c = [c] ∨ c ∈ reserved := by
  unfold token
  split
  · next h =>
    have hreserved : ∀ c ∈ ['{', '}', '$', '&', '%', '#', '_'], c ∈ reserved := by decide
    exact Or.inr (hreserved c h)
  · split
    · next h => exact Or.inr (by simp [h, reserved])
    · split
      · next h => exact Or.inr (by simp [h, reserved])
      · split
        · next h => exact Or.inr (by simp [h, reserved])
        · exact Or.inl rfl

/-- Whether a pattern is safe is seen from the replacements of the reserved
characters. -/
theorem safe_of_divides (hp : p ≠ []) (h : ∀ c ∈ reserved, Text.Divides p (token c))
    (hdollar : Text.Divides p ['\\', '$']) : Reserved.Safe token p where
  ne_nil := hp
  parts_token := by
    intro c
    rcases token_eq_or_mem c with hc | hc
    · exact Or.inl hc
    · exact Or.inr ((h c hc).parts hp)
  parts_dollar := hdollar.parts hp

theorem safe_equationSpan : Reserved.Safe token EquationSpan.opening :=
  safe_of_divides (by decide) (by decide) (by decide)

theorem safe_proseSpan : Reserved.Safe token ProseSpan.opening :=
  safe_of_divides (by decide) (by decide) (by decide)

theorem infix_of_infix_escape (hp : Reserved.Safe token p) (h : p <:+: escape s) : p <:+: s := by
  simpa using Reserved.infix_of_infix_escape hp (u := []) (by simpa [escape] using h)

/-- Whether escaped text bars a command is seen from the replacements of the
reserved characters. -/
theorem bars_escape (hp : p.head? = some '\\') (h : ∀ c ∈ reserved, Text.Bars p (token c))
    (hdollar : Text.Bars p ['\\', '$']) (s : Text) : Text.Bars p (escape s) := by
  refine Reserved.bars_escape (fun c => ?_) hdollar s
  by_cases hc : c ∈ reserved
  · exact h c hc
  · rw [(token_eq_or_mem c).resolve_right hc]
    refine Text.bars_of_not_mem hp fun hmem => hc ?_
    rw [← List.mem_singleton.1 hmem]
    decide

/-- **Prose shows no occurrence of a safe pattern that the text does not
have.** -/
theorem infix_of_infix_prose (hp : Reserved.Safe token p) (hdollar : '$' ∉ p)
    (h : p <:+: prose s) : p <:+: s := by
  have hsource : p <:+: (InlineMath.read s).render id InlineMath.delimited := by
    rw [prose, InlineMath.infix_render_iff hp.ne_nil hdollar] at h
    rw [InlineMath.infix_render_iff hp.ne_nil hdollar]
    rcases h with h | ⟨piece, hpiece, h | h⟩
    · exact Or.inl (infix_of_infix_escape hp h)
    · exact Or.inr ⟨piece, hpiece, Or.inl h⟩
    · exact Or.inr ⟨piece, hpiece, Or.inr (infix_of_infix_escape hp h)⟩
  have hread := InlineMath.source_read s
  rw [InlineMath.source] at hread
  rwa [hread] at hsource

/-- Prose shows the opening of a prose span exactly if the text holds one. -/
theorem infix_prose_iff (s : Text) : ProseSpan.opening <:+: prose s ↔ ProseSpan.opening <:+: s := by
  refine ⟨infix_of_infix_prose safe_proseSpan (by decide), fun h => ?_⟩
  have hreserved : ∀ c ∈ reserved, Text.Divides ProseSpan.opening [c] := by decide
  have hchar : ∀ c, token c = [c] ∨ Text.Parts ProseSpan.opening [c] := by
    intro c
    refine (token_eq_or_mem c).imp_right fun hc => ?_
    exact (hreserved c hc).parts (by decide)
  have hescape : ∀ {t : Text}, ProseSpan.opening <:+: t → ProseSpan.opening <:+: escape t := by
    intro t ht
    simpa [escape] using
      Reserved.infix_escape_of_infix safe_proseSpan hchar (u := []) (by simpa using ht)
  have hread := InlineMath.source_read s
  rw [InlineMath.source] at hread
  rw [← hread, InlineMath.infix_render_iff (by decide) (by decide)] at h
  rw [prose, InlineMath.infix_render_iff (by decide) (by decide)]
  rcases h with h | ⟨piece, hpiece, h | h⟩
  · exact Or.inl (hescape h)
  · exact Or.inr ⟨piece, hpiece, Or.inl h⟩
  · exact Or.inr ⟨piece, hpiece, Or.inr (hescape h)⟩

end Latex

end AnnotatedEquation
