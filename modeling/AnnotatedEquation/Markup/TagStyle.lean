/-
AnnotatedEquation/Markup/TagStyle.lean

Styles of tagging: ways to write down that a piece of text belongs to a
term.  A style writes a tagged piece and recognises one at the front of a
text; all else is common to the styles.

* `TagStyle.runs` cuts a text into plain and tagged runs;
* `TagStyle.replaceM` replaces the tagged runs one after the other;
* `TagStyle.forest` goes on inside the tagged runs.

Main statements: writing the runs, or the forest, of a text gives back the
text (`TagStyle.written_runs`, `TagStyle.write_forest`).
-/
import AnnotatedEquation.Markup.Fragment

namespace AnnotatedEquation

/-- A way of tagging text with terms: how a tagged piece is written, and how
a run is recognised at the front of a text.  What is recognised is what was
written, and is never empty. -/
structure TagStyle where
  write : Text → Text → Text
  read? : Text → Option (Run × Text)
  length_lt_write : ∀ term content, content.length < (write term content).length
  eq_of_read? : ∀ {s run rest}, read? s = some (run, rest) →
    s = run.written write ++ rest ∧ run.written write ≠ []

namespace TagStyle

variable (style : TagStyle)

theorem length_rest_lt {s : Text} {run : Run} {rest : Text}
    (h : style.read? s = some (run, rest)) : rest.length < s.length := by
  obtain ⟨rfl, hne⟩ := style.eq_of_read? h
  have := List.length_pos_iff.2 hne
  simp only [List.length_append]
  omega

/-! ### Runs -/

/-- The plain and tagged runs of a text, from left to right: a tagged run
wherever the style recognises one, and plain text for the rest. -/
def runs : Text → List Run
  | [] => []
  | c :: s =>
    match _h : style.read? (c :: s) with
    | some (run, rest) => run.before (runs rest)
    | none => (Run.plain [c]).before (runs s)
termination_by s => s.length
decreasing_by
  · exact style.length_rest_lt _h
  · simp

@[simp] theorem read?_nil : style.read? [] = none := by
  rcases h : style.read? [] with - | ⟨run, rest⟩
  · rfl
  · obtain ⟨he, hne⟩ := style.eq_of_read? h
    exact (hne (List.append_eq_nil_iff.1 he.symm).1).elim

@[simp] theorem runs_nil : style.runs [] = [] := by
  rw [runs]

theorem runs_of_read? {s : Text} {run : Run} {rest : Text}
    (h : style.read? s = some (run, rest)) :
    style.runs s = run.before (style.runs rest) := by
  rcases s with - | ⟨c, s⟩
  · simp at h
  · rw [runs]
    split <;> simp_all

theorem runs_cons {c : Char} {s : Text} (h : style.read? (c :: s) = none) :
    style.runs (c :: s) = (Run.plain [c]).before (style.runs s) := by
  rw [runs]
  split <;> simp_all

/-- The runs of a text in the writing of their style. -/
def written (rs : List Run) : Text := rs.flatMap (Run.written style.write)

theorem written_before (run : Run) (rs : List Run) :
    style.written (run.before rs) = run.written style.write ++ style.written rs := by
  cases run <;> rcases rs with - | ⟨- | -, rs⟩ <;> simp [Run.before, written, Run.written]

theorem written_runs (s : Text) : style.written (style.runs s) = s := by
  fun_induction style.runs s with
  | case1 => rfl
  | case2 c s run rest h ih => rw [written_before, ih, ← (style.eq_of_read? h).1]
  | case3 c s h ih => simp [written_before, ih, Run.written]

theorem length_lt_of_mem_runs {s term content : Text}
    (h : Run.tagged term content ∈ style.runs s) : content.length < s.length := by
  have hw := style.written_runs s
  obtain ⟨before, after, e⟩ := List.append_of_mem h
  rw [e] at hw
  rw [← hw]
  have := style.length_lt_write term content
  simp only [written, List.flatMap_append, List.flatMap_cons, Run.written, List.length_append]
  omega

/-- The terms of the tagged runs, in order. -/
def terms (s : Text) : List Text := (style.runs s).filterMap Run.term?

/-! ### Replacing tagged runs -/

/-- Replaces the tagged runs among `rs`, numbering them from `index`.  A
replacement that gives nothing keeps the run as it is written. -/
def replaceRunsM {m : Type → Type} [Monad m] (replace : Nat → Text → Text → m (Option Text)) :
    Nat → List Run → m Text
  | _, [] => pure []
  | index, .plain text :: rs => do
    return text ++ (← replaceRunsM replace index rs)
  | index, .tagged term content :: rs => do
    let new ← replace index term content
    return new.getD (style.write term content) ++ (← replaceRunsM replace (index + 1) rs)

/-- Replaces the tagged runs of a text, numbered from 0. -/
def replaceM {m : Type → Type} [Monad m] (replace : Nat → Text → Text → m (Option Text))
    (s : Text) : m Text :=
  style.replaceRunsM replace 0 (style.runs s)

/-! ### Forests -/

/-- The fragments of a text: its runs, with those inside each tagged run. -/
def forest (s : Text) : List Fragment :=
  (style.runs s).attach.map fun
    | ⟨.plain text, _⟩ => .plain text
    | ⟨.tagged term content, _⟩ => .tagged term (forest content)
termination_by s.length
decreasing_by
  next h => exact style.length_lt_of_mem_runs h

/-- A run with the fragments inside it. -/
def grow : Run → Fragment
  | .plain text => .plain text
  | .tagged term content => .tagged term (style.forest content)

theorem forest_eq (s : Text) : style.forest s = (style.runs s).map style.grow := by
  rw [forest]
  conv => rhs; rw [← List.attach_map_subtype_val (style.runs s), List.map_map]
  refine List.map_congr_left fun r _ => ?_
  rcases r with ⟨- | -, _⟩ <;> rfl

theorem write_forest (s : Text) : Fragment.writeAll style.write (style.forest s) = s := by
  induction hn : s.length using Nat.strongRecOn generalizing s with
  | _ n ih =>
    have step : ∀ rs : List Run, (∀ r ∈ rs, r ∈ style.runs s) →
        Fragment.writeAll style.write (rs.map style.grow) = style.written rs := by
      intro rs
      induction rs with
      | nil => intro; rfl
      | cons r rs ihr =>
        intro hrs
        have hr := hrs r (by simp)
        have hrest := ihr fun x hx => hrs x (by simp [hx])
        rcases r with text | ⟨term, content⟩
        · simpa [grow, Fragment.writeAll, Fragment.write, written, Run.written] using hrest
        · have := ih content.length (hn ▸ style.length_lt_of_mem_runs hr) content rfl
          simpa [grow, Fragment.writeAll, Fragment.write, written, Run.written, this] using hrest
    rw [forest_eq, step _ fun _ h => h, written_runs]

end TagStyle

end AnnotatedEquation
