/-
AnnotatedEquation/Proofs/Markup/Replacing.lean

Replacing the tagged runs of a text: what is asked for, and what is lost.

* `TagStyle.noted` notes down each run that a replacement is asked for;
* `TagStyle.spelled` writes out the runs of some terms where the replacement
  would keep them.

Main statements: a replacement is asked for the places of the text, one after
the other, numbered from 0, whatever it answers (`TagStyle.replaceM_noted`); a
run that is kept might as well be written out (`TagStyle.replaceM_spelled`),
and a text whose runs are all kept or written out stays as it is
(`TagStyle.replaceM_keep`, `TagStyle.replaceM_write`, `TagStyle.rewrite_write`).
For an equation the places are the spans that are found one behind the other
(`EquationSpan.replacing_loses_nothing`).
-/
import AnnotatedEquation.Proofs.Markup.ReadBack
import AnnotatedEquation.Proofs.Markup.Search

namespace AnnotatedEquation

variable {s : Text} {m : Type → Type} [Monad m] {fs : List (TagPlace × Nat)}
  {log : List (Nat × Text × Text)}

namespace TagStyle

variable (style : TagStyle) (replace : Nat → Text → Text → m (Option Text))

/-- A request for the replacement of a place with a number. -/
def request : TagPlace × Nat → Nat × Text × Text
  | (f, index) => (index, f.term, f.content)

/-- The replacement, where each request is noted down first. -/
def noted (index : Nat) (term content : Text) :
    StateT (List (Nat × Text × Text)) m (Option Text) := do
  modify (· ++ [(index, term, content)])
  replace index term content

/-- The replacement, where the pieces of some terms are written out if they
would be kept. -/
def spelled (kept : Text → Bool) (index : Nat) (term content : Text) : m (Option Text) :=
  (fun new => if kept term then some (new.getD (style.write term content)) else new) <$>
    replace index term content

variable [LawfulMonad m]

/-! ### What is asked for -/

theorem run_newTextM_noted (f : TagPlace × Nat) :
    (newTextM (noted replace) s f).run log =
      (fun new => (new, log ++ [request f])) <$> newTextM replace s f := by
  obtain ⟨f, index⟩ := f
  simp [newTextM, noted, request]

theorem run_mapM_noted (fs : List (TagPlace × Nat)) (log : List (Nat × Text × Text)) :
    (fs.mapM (newTextM (noted replace) s)).run log =
      (fun news => (news, log ++ fs.map request)) <$> fs.mapM (newTextM replace s) := by
  induction fs generalizing log with
  | nil => simp
  | cons f fs ih => simp [run_newTextM_noted, ih]

/-- **A replacement is asked for the places of the text**, one after the other
and numbered from 0, whatever it answers. -/
theorem replaceM_noted (s : Text) (log : List (Nat × Text × Text)) :
    (style.replaceM (noted replace) s).run log =
      (fun out => (out, log ++ (style.places s).zipIdx.map request)) <$>
        style.replaceM replace s := by
  simp [replaceM_eq_weave, run_mapM_noted]

/-! ### What is lost -/

theorem replaceRunsM_spelled (kept : Text → Bool) (index : Nat) (rs : List Run) :
    style.replaceRunsM (style.spelled replace kept) index rs =
      style.replaceRunsM replace index rs := by
  induction rs generalizing index with
  | nil => rfl
  | cons run rs ih =>
    rcases run with text | ⟨term, content⟩
    · rw [replaceRunsM, replaceRunsM, ih]
    · rw [replaceRunsM, replaceRunsM, ih, spelled, bind_map_left]
      -- what stands for the run is the same, whether it is kept or written out
      refine bind_congr fun new => ?_
      by_cases h : kept term <;> simp [h]

/-- **A run that is kept might as well be written out.** -/
theorem replaceM_spelled (kept : Text → Bool) (s : Text) :
    style.replaceM (style.spelled replace kept) s = style.replaceM replace s :=
  style.replaceRunsM_spelled replace kept 0 (style.runs s)

theorem replaceRunsM_keep (index : Nat) (rs : List Run) :
    style.replaceRunsM (m := m) (fun _ _ _ => pure none) index rs = pure (style.written rs) := by
  induction rs generalizing index with
  | nil => rfl
  | cons run rs ih =>
    rcases run with text | ⟨term, content⟩ <;> simp [replaceRunsM, ih, written, Run.written]

/-- **A text whose runs are all kept stays as it is.** -/
theorem replaceM_keep (s : Text) :
    style.replaceM (m := m) (fun _ _ _ => pure none) s = pure s := by
  rw [replaceM, replaceRunsM_keep, written_runs]

/-- **A text whose runs are all written out stays as it is.** -/
theorem replaceM_write (s : Text) :
    style.replaceM (m := m) (fun _ term content => pure (some (style.write term content))) s =
      pure s := by
  have hspelled : style.spelled (m := m) (fun _ _ _ => pure none) (fun _ => true) =
      fun _ term content => pure (some (style.write term content)) := by
    funext index term content
    simp [spelled]
  rw [← hspelled, replaceM_spelled, replaceM_keep]

/-- **A text that is rewritten in its own writing stays as it is.** -/
theorem rewrite_write (s : Text) : style.rewrite style.write s = s := style.write_forest s

end TagStyle

/-! ### Equations -/

namespace EquationSpan

open TagStyle (equationSpan)

/-- **Replacing the spans of an equation loses nothing.**  The replacement is
asked for the spans that are found one behind the other, numbered from 0,
whatever it answers; what it gives takes the place of the span, and all else
stays.  Spans of any terms that it keeps might as well be written out; an
equation whose spans are all kept, or all written out, or all written out with
those inside them, stays as it is. -/
theorem replacing_loses_nothing [LawfulMonad m] (replace : Nat → Text → Text → m (Option Text))
    (s : Text) :
    (∀ log, (equationSpan.replaceM (TagStyle.noted replace) s).run log =
      (fun out => (out, log ++ (found s 0).zipIdx.map fun (f, index) =>
        (index, f.term, f.content))) <$> equationSpan.replaceM replace s) ∧
    equationSpan.replaceM replace s =
      weaveFrom s 0 <$> (found s 0).zipIdx.mapM (fun (f, index) => do
        let new ← replace index f.term f.content
        return (f, new.getD (s.extract f.start f.stop))) ∧
    (∀ f ∈ found s 0, s.extract f.start f.stop = write f.term f.content) ∧
    (∀ kept, equationSpan.replaceM (equationSpan.spelled replace kept) s =
      equationSpan.replaceM replace s) ∧
    equationSpan.replaceM (m := m) (fun _ _ _ => pure none) s = pure s ∧
    equationSpan.replaceM (m := m) (fun _ term content => pure (some (write term content))) s =
      pure s ∧
    (equationSpan.rewrite write s =
        Id.run (equationSpan.replaceM
          (fun _ term content => pure (some (write term (equationSpan.rewrite write content)))) s) ∧
      equationSpan.rewrite write s = s) := by
  refine ⟨fun log => ?_, ?_, fun f hf => ?_, fun kept => ?_, ?_, ?_, ?_, ?_⟩
  · rw [TagStyle.replaceM_noted, places_eq_found]
    rfl
  · rw [TagStyle.replaceM_eq_weave, places_eq_found]
    rfl
  · rw [← places_eq_found] at hf
    exact TagStyle.extract_of_mem_places _ hf
  · exact TagStyle.replaceM_spelled _ replace kept s
  · exact TagStyle.replaceM_keep _ s
  · exact TagStyle.replaceM_write equationSpan s
  · exact TagStyle.rewrite_eq_replaceM equationSpan write s
  · exact TagStyle.rewrite_write equationSpan s

/-- Of two spans, one in the argument of a foreign class, the second is kept. -/
theorem replacing_loses_nothing_two_spans :
    let s := header "other".toList ++ write ['a'] ['x'] ++ ['}', '+'] ++ write ['b'] ['y']
    let replace : Nat → Text → Text → Id (Option Text) := fun _ term content =>
      pure (if term = ['b'] then none else some (content ++ ['!']))
    (equationSpan.replaceM (TagStyle.noted replace) s).run [] =
      (header "other".toList ++ ['x', '!', '}', '+'] ++ write ['b'] ['y'],
        [(0, ['a'], ['x']), (1, ['b'], ['y'])]) := by
  intro s replace
  obtain ⟨hnoted, hweave, -⟩ := replacing_loses_nothing replace s
  have hfound : found s 0 = [⟨18, 39, ['a'], ['x']⟩, ⟨41, 62, ['b'], ['y']⟩] := by
    rw [← places_eq_found]
    decide +kernel
  rw [hnoted, hweave, hfound]
  rfl

end EquationSpan

end AnnotatedEquation
