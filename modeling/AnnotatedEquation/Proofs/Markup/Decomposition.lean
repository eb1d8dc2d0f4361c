/-
AnnotatedEquation/Proofs/Markup/Decomposition.lean

The forest of a text, told along the text: a character at which nothing is
recognised, or a run that is recognised, stands in front of the forest of
what follows.

* `TagStyle.reading_induction` is the induction over a text that goes along
  with this, into the contents of tagged runs as well.

Main statements: `TagStyle.forest_cons`, `TagStyle.forest_of_tagged` and,
for a stretch of text in which nothing is recognised,
`TagStyle.forest_append`.
-/
import AnnotatedEquation.Markup.TagStyle
import AnnotatedEquation.Proofs.Markup.Forest

namespace AnnotatedEquation.TagStyle

variable (style : TagStyle) {s u v text term content rest : Text} {c : Char}

/-! ### Induction along a text -/

theorem length_content_lt (h : style.read? s = some (.tagged term content, rest)) :
    content.length < s.length := by
  have hw := style.length_lt_write term content
  rw [(style.eq_of_read? h).1, List.length_append, Run.written]
  omega

/-- The induction along a text, run by run, and into the contents of the
tagged runs. -/
@[elab_as_elim]
theorem reading_induction {motive : Text → Prop} (nil : motive [])
    (skip : ∀ c s, style.read? (c :: s) = none → motive s → motive (c :: s))
    (plain : ∀ s text rest, style.read? s = some (.plain text, rest) → motive rest → motive s)
    (tagged : ∀ s term content rest, style.read? s = some (.tagged term content, rest) →
      motive content → motive rest → motive s) (s : Text) : motive s := by
  induction hn : s.length using Nat.strongRecOn generalizing s with
  | _ n ih =>
    subst hn
    cases s with
    | nil => exact nil
    | cons c s =>
      rcases h : style.read? (c :: s) with - | ⟨text | ⟨term, content⟩, rest⟩
      · exact skip c s h (ih _ (by simp) s rfl)
      · exact plain _ text rest h (ih _ (style.length_rest_lt h) rest rfl)
      · exact tagged _ term content rest h (ih _ (style.length_content_lt h) content rfl)
          (ih _ (style.length_rest_lt h) rest rfl)

/-! ### The runs of a text -/

theorem tagged_mem_before {run : Run} {rs : List Run} :
    Run.tagged term content ∈ run.before rs ↔
      Run.tagged term content = run ∨ Run.tagged term content ∈ rs := by
  cases run <;> rcases rs with - | ⟨- | -, rs⟩ <;> simp [Run.before]

/-- Every tagged run was recognised somewhere in the text. -/
theorem exists_read?_of_mem_runs (h : Run.tagged term content ∈ style.runs s) :
    ∃ t rest, t <:+ s ∧ style.read? t = some (.tagged term content, rest) := by
  fun_induction style.runs s with
  | case1 => simp at h
  | case2 c s run rest hread ih =>
    rcases tagged_mem_before.1 h with rfl | h
    · exact ⟨_, rest, List.suffix_rfl, hread⟩
    · obtain ⟨t, rest', ht, hread'⟩ := ih h
      have hrest : rest <:+ c :: s := ⟨_, (style.eq_of_read? hread).1.symm⟩
      exact ⟨t, rest', ht.trans hrest, hread'⟩
  | case3 c s hread ih =>
    rcases tagged_mem_before.1 h with h | h
    · cases h
    · obtain ⟨t, rest', ht, hread'⟩ := ih h
      exact ⟨t, rest', ht.trans (List.suffix_cons c s), hread'⟩

theorem filterMap_term?_before (run : Run) (rs : List Run) :
    (run.before rs).filterMap Run.term? = run.term?.toList ++ rs.filterMap Run.term? := by
  cases run <;> rcases rs with - | ⟨- | -, rs⟩ <;>
    simp [Run.before, Run.term?, List.filterMap_cons]

theorem terms_cons (h : style.read? (c :: s) = none) : style.terms (c :: s) = style.terms s := by
  rw [terms, style.runs_cons h, filterMap_term?_before]
  rfl

theorem terms_of_tagged (h : style.read? s = some (.tagged term content, rest)) :
    style.terms s = term :: style.terms rest := by
  rw [terms, style.runs_of_read? h, filterMap_term?_before]
  rfl

/-- A stretch of text in which nothing is recognised has no terms. -/
theorem terms_append (h : ∀ w, w <:+ u → w ≠ [] → style.read? (w ++ v) = none) :
    style.terms (u ++ v) = style.terms v := by
  induction u with
  | nil => rfl
  | cons c u ih =>
    have hc : style.read? (c :: (u ++ v)) = none := h (c :: u) List.suffix_rfl (by simp)
    have hu := ih fun w hw => h w (hw.trans (List.suffix_cons c u))
    rw [List.cons_append, style.terms_cons hc, hu]

/-! ### The forest of a text -/

theorem map_grow_before {run : Run} (hrun : run ≠ .plain []) (rs : List Run) :
    (run.before rs).map style.grow = (style.grow run).before (rs.map style.grow) := by
  rcases run with (- | ⟨c, text⟩) | ⟨term, content⟩
  · exact absurd rfl hrun
  · rcases rs with - | ⟨- | -, rs⟩ <;> simp [Run.before, Fragment.before, grow]
  · simp [Run.before, Fragment.before, grow]

@[simp] theorem forest_nil : style.forest [] = [] := by simp [forest_eq]

theorem forest_cons (h : style.read? (c :: s) = none) :
    style.forest (c :: s) = (Fragment.plain [c]).before (style.forest s) := by
  rw [forest_eq, style.runs_cons h, map_grow_before _ (by simp), ← forest_eq]
  rfl

theorem forest_of_plain (h : style.read? s = some (.plain text, rest)) :
    style.forest s = (Fragment.plain text).before (style.forest rest) := by
  have hne : text ≠ [] := (style.eq_of_read? h).2
  rw [forest_eq, style.runs_of_read? h, map_grow_before _ (by simpa using hne), ← forest_eq]
  rfl

theorem forest_of_tagged (h : style.read? s = some (.tagged term content, rest)) :
    style.forest s = .tagged term (style.forest content) :: style.forest rest := by
  rw [forest_eq, style.runs_of_read? h, map_grow_before _ (by simp), ← forest_eq]
  rfl

/-- A stretch of text in which nothing is recognised stands in front of the
forest of what follows. -/
theorem forest_append (h : ∀ w, w <:+ u → w ≠ [] → style.read? (w ++ v) = none) :
    style.forest (u ++ v) = (Fragment.plain u).before (style.forest v) := by
  induction u with
  | nil => rfl
  | cons c u ih =>
    have hu := ih fun w hw => h w (hw.trans (List.suffix_cons c u))
    have hc : style.read? (c :: (u ++ v)) = none := h (c :: u) List.suffix_rfl (by simp)
    rw [List.cons_append, style.forest_cons hc, hu, Fragment.before_plain_append]
    rfl

end AnnotatedEquation.TagStyle
