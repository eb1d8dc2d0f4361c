/-
AnnotatedEquation/Proofs/Markup/Bare.lean

Texts in which no span opens, neither one of an equation nor one of a
description.

* `openings` are the two beginnings of spans, and a text is `Bare` if it
  holds neither of them.

Main statements: what is put together from bare texts with fixed parts
between them is bare (`bare_unlines_iff`, `bare_fill`), and the four writings
of tagged pieces keep the openings apart that they do not begin with
(`Mark.frames_write`, `Reference.frames_write`, `EquationSpan.frames_write`
and `ProseSpan.frames_write`).
-/
import AnnotatedEquation.Proofs.Markup.Flat
import AnnotatedEquation.Proofs.Markup.ReadBack
import AnnotatedEquation.Proofs.Text.Part

namespace AnnotatedEquation

open Fragment (Frames Halts)

variable {p s t u text term : Text} {run : Run} {rs : List Run}

/-- What the spans of equations and of descriptions begin with. -/
def openings : List Text := [EquationSpan.opening, ProseSpan.opening]

/-- No span opens in the text. -/
def Bare (s : Text) : Prop := ∀ p ∈ openings, ¬ p <:+: s

instance : Decidable (Bare s) := inferInstanceAs (Decidable (∀ _ ∈ openings, _))

theorem bare_iff : Bare s ↔ ¬ EquationSpan.opening <:+: s ∧ ¬ ProseSpan.opening <:+: s := by
  simp [Bare, openings]

theorem Bare.of_infix (h : Bare s) (ht : t <:+: s) : Bare t := by
  intro p hp hin
  exact h p hp (hin.trans ht)

theorem ne_nil_of_mem_openings (hp : p ∈ openings) : p ≠ [] := by
  have : ∀ p ∈ openings, p ≠ [] := by decide
  exact this p hp

theorem newline_not_mem_of_mem_openings (hp : p ∈ openings) : '\n' ∉ p := by
  have : ∀ p ∈ openings, '\n' ∉ p := by decide
  exact this p hp

/-! ### Bare texts put together -/

theorem bare_unlines_iff {parts : List Text} :
    Bare (Text.unlines parts) ↔ ∀ part ∈ parts, Bare part := by
  have hiff : ∀ p ∈ openings, ¬ p <:+: Text.unlines parts ↔ ∀ part ∈ parts, ¬ p <:+: part := by
    intro p hp
    rw [Text.infix_unlines_iff (ne_nil_of_mem_openings hp) (newline_not_mem_of_mem_openings hp)]
    simp
  constructor
  · intro h part hpart p hp
    exact (hiff p hp).1 (h p hp) part hpart
  · intro h p hp
    exact (hiff p hp).2 fun part hpart => h part hpart p hp

theorem bare_trim_iff : Bare (Text.trim s) ↔ Bare s := by
  have hends : ∀ p ∈ openings, (∀ c ∈ p.head?, Text.isBlank c = false) ∧
      ∀ c ∈ p.getLast?, Text.isBlank c = false := by decide
  refine forall₂_congr fun p hp => not_congr ?_
  obtain ⟨hhead, hlast⟩ := hends p hp
  exact Text.infix_trim_iff (ne_nil_of_mem_openings hp) hhead hlast

/-- Bare texts between fixed parts that keep the openings apart make a bare
text. -/
theorem bare_fill {xs parts : List Text} (hparts : ∀ p ∈ openings, Text.Fixed p u parts)
    (hxs : ∀ x ∈ xs, Bare x) : Bare (Text.fill u xs parts) := by
  intro p hp
  apply Text.not_infix_fill (ne_nil_of_mem_openings hp) (hparts p hp)
  intro x hx
  exact hxs x hx p hp

theorem bare_between (hparts : ∀ p ∈ openings, Text.Fixed p u [t]) (h : Bare s) :
    Bare (u ++ s ++ t) := by
  show Bare (Text.fill u [s] [t])
  exact bare_fill hparts (by simpa using h)

/-! ### Writings of tagged pieces -/

theorem parts_of_mem_openings (h : ∀ p ∈ openings, Text.Divides p u) (hp : p ∈ openings) :
    Text.Parts p u :=
  (h p hp).parts (ne_nil_of_mem_openings hp)

theorem Mark.frames_write (hp : p ∈ openings) : Frames p fun _ => Mark.write := by
  have hparts : ∀ p ∈ openings, ∀ u ∈ [Mark.opening, [']', '{'], ['}']],
      Text.Divides p u := by decide
  apply Fragment.frames_of_divides (ne_nil_of_mem_openings hp) (hparts p hp)
  intro n term inner
  simp [Mark.write]

theorem Mark.halts_write (hp : p ∈ openings) : Halts p fun _ => Mark.write := by
  have hstops : ∀ p ∈ openings, Text.Stops p Mark.opening := by decide
  refine Fragment.halts_of_front (u := Mark.opening) (by decide) (hstops p hp) ?_
  intro n term inner
  exact ⟨term ++ [']', '{'] ++ inner ++ ['}'], by simp [Mark.write]⟩

theorem Reference.frames_write (hp : p ∈ openings) : Frames p fun _ => Reference.write := by
  have hparts : ∀ p ∈ openings, ∀ u ∈ [['['], [']', '{', '.'], ['}']],
      Text.Divides p u := by decide
  have hswapped : Frames p fun _ term inner => Reference.write inner term := by
    apply Fragment.frames_of_divides (ne_nil_of_mem_openings hp) (hparts p hp)
    intro n term inner
    simp [Reference.write]
  -- the displayed text stands before the term
  intro n term inner u v
  rw [hswapped n inner term u v, or_left_comm (a := p <:+: inner)]

theorem EquationSpan.frames_write : Frames ProseSpan.opening fun _ => EquationSpan.write := by
  have hparts : ∀ u ∈ [EquationSpan.opening ++ EquationSpan.classStart, ['}', '{'], ['}']],
      Text.Divides ProseSpan.opening u := by decide
  apply Fragment.frames_of_divides (by decide) hparts
  intro n term inner
  simp [EquationSpan.write]

theorem ProseSpan.frames_write : Frames EquationSpan.opening fun _ => ProseSpan.write := by
  have hparts : ∀ u ∈ [ProseSpan.opening, ProseSpan.middle, ProseSpan.closing],
      Text.Divides EquationSpan.opening u := by decide
  apply Fragment.frames_of_divides (by decide) hparts
  intro n term inner
  simp [ProseSpan.write]

/-! ### Runs of a description -/

namespace ProseSpan

theorem infix_of_mem_runs (h : run ∈ TagStyle.proseSpan.runs s) :
    run.content <:+: s ∧ ∀ term ∈ run.term?, term <:+: s := by
  have hrun : run.written write <:+: s := by
    have hwhole : (TagStyle.proseSpan.runs s).flatMap (Run.written write) = s :=
      TagStyle.written_runs TagStyle.proseSpan s
    rw [List.flatMap_def] at hwhole
    have hpart := List.infix_of_mem_flatten (List.mem_map_of_mem (f := Run.written write) h)
    rwa [hwhole] at hpart
  cases run with
  | plain text => exact ⟨hrun, by simp [Run.term?]⟩
  | tagged term text =>
    have htext : text <:+: write term text :=
      ⟨opening ++ term ++ middle, closing, by simp [write]⟩
    have hterm : term <:+: write term text :=
      ⟨opening, middle ++ text ++ closing, by simp [write]⟩
    refine ⟨htext.trans hrun, ?_⟩
    intro t ht
    obtain rfl := Option.some.inj ht
    exact hterm.trans hrun

theorem isNameChar_of_mem_runs (h : Run.tagged term text ∈ TagStyle.proseSpan.runs s) :
    ∀ c ∈ term, isNameChar c := by
  obtain ⟨t, rest, -, hread⟩ := TagStyle.exists_read?_of_mem_runs _ h
  obtain ⟨term', text', hrun, -, hterm, -⟩ := read?_eq_some_iff.1 hread
  obtain ⟨rfl, rfl⟩ := Run.tagged.inj hrun
  exact hterm

end ProseSpan

end AnnotatedEquation
