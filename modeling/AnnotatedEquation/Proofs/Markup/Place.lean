/-
AnnotatedEquation/Proofs/Markup/Place.lean

The places of the tagged runs of a text, told in positions.

* a `TagPlace` is a tagged piece with the positions where it begins and ends;
* `TagPlace.Leftmost` says that places were picked from left to right, each the
  first one that may follow what was picked before it;
* `TagStyle.places` gives the places of the tagged runs of a text.

A style may recognise a plain run, too, and what begins inside such a run is
not looked at: it is hidden (`TagStyle.Hides`).

Main statements: the places of a text are picked from left to right among
those that the style recognises and that are not hidden
(`TagStyle.leftmost_places`), the runs of a text are the text cut at its places
(`TagStyle.runs_eq_cut`), and replacing the tagged runs puts new text at the
places, one after the other (`TagStyle.replaceM_eq_weave`).
-/
import AnnotatedEquation.Markup.TagStyle
import AnnotatedEquation.Proofs.Markup.Flat
import AnnotatedEquation.Proofs.Text.Position

namespace AnnotatedEquation

/-- A tagged piece of a text, and where it begins and ends. -/
structure TagPlace where
  start : Nat
  stop : Nat
  term : Text
  content : Text
  deriving DecidableEq, Repr

variable {s u v text term content rest : Text} {f g : TagPlace} {fs gs : List TagPlace}
  {pos pos' q : Nat} {run : Run} {rs : List Run} {c : Char}

/-! ### Picking from left to right -/

namespace TagPlace

/-- Of the places with a property, one that begins first. -/
def First (P : TagPlace → Prop) (f : TagPlace) : Prop := P f ∧ ∀ g, P g → f.start ≤ g.start

/-- The places are picked from left to right: `P pos` tells which of them may
be picked behind `pos`, the first one is, and the next is picked behind its
end, until there is none. -/
def Leftmost (P : Nat → TagPlace → Prop) : Nat → List TagPlace → Prop
  | pos, [] => ∀ f, ¬ P pos f
  | pos, f :: fs => First (P pos) f ∧ Leftmost P f.stop fs

variable {P : Nat → TagPlace → Prop}

theorem first_congr {P Q : TagPlace → Prop} (h : ∀ f, P f ↔ Q f) : First P f ↔ First Q f := by
  simp only [First, h]

theorem Leftmost.congr (h : Leftmost P pos fs) (hP : ∀ f, P pos f ↔ P pos' f) :
    Leftmost P pos' fs := by
  cases fs with
  | nil => exact fun f hf => h f ((hP f).2 hf)
  | cons f fs => exact ⟨(first_congr hP).1 h.1, h.2⟩

/-- Of the places with a property, if there are any, there is a first one. -/
theorem exists_first {P : TagPlace → Prop} (h : P f) : ∃ g, First P g := by
  induction hn : f.start using Nat.strongRecOn generalizing f with
  | _ n ih =>
    by_cases hfirst : ∀ g, P g → f.start ≤ g.start
    · exact ⟨f, h, hfirst⟩
    · push Not at hfirst
      obtain ⟨g, hg, hlt⟩ := hfirst
      exact ih g.start (hn ▸ hlt) hg rfl

/-- What is picked begins with a first place, if no other begins where it
does. -/
theorem Leftmost.exists_eq_cons (hP : ∀ {g}, P pos f → P pos g → f.start = g.start → f = g)
    (h : Leftmost P pos fs) (hf : First (P pos) f) :
    ∃ rest, fs = f :: rest ∧ Leftmost P f.stop rest := by
  cases fs with
  | nil => exact absurd hf.1 (h f)
  | cons g fs =>
    obtain ⟨hg, hrest⟩ := h
    have hstart : f.start = g.start := Nat.le_antisymm (hf.2 g hg.1) (hg.2 f hf.1)
    obtain rfl := hP hf.1 hg.1 hstart
    exact ⟨fs, rfl, hrest⟩

/-- There is one way to pick, if no two places begin alike. -/
theorem Leftmost.unique (hP : ∀ {pos f g}, P pos f → P pos g → f.start = g.start → f = g)
    (hf : Leftmost P pos fs) (hg : Leftmost P pos gs) : fs = gs := by
  induction fs generalizing pos gs with
  | nil =>
    cases gs with
    | nil => rfl
    | cons g gs => exact absurd hg.1.1 (hf g)
  | cons f fs ih =>
    obtain ⟨gs, rfl, hrest⟩ := hg.exists_eq_cons hP hf.1
    rw [ih hf.2 hrest]

/-- The places with a property that begin at or behind a position. -/
abbrev From (P : TagPlace → Prop) (pos : Nat) (f : TagPlace) : Prop := pos ≤ f.start ∧ P f

/-- Going on behind a stretch where no place begins passes over nothing. -/
theorem from_iff_of_passed {P : TagPlace → Prop} (hle : pos ≤ pos')
    (h : ∀ f, From P pos f → pos' ≤ f.start) : From P pos f ↔ From P pos' f :=
  ⟨fun hf => ⟨h f hf, hf.2⟩, fun hf => ⟨Nat.le_trans hle hf.1, hf.2⟩⟩

/-- The place does not begin inside an earlier one of some places. -/
def Outside (fs : List TagPlace) (f : TagPlace) : Prop :=
  ∀ g ∈ fs, g.start < f.start → g.stop ≤ f.start

instance : Decidable (Outside fs f) := inferInstanceAs (Decidable (∀ _ ∈ fs, _))

/-- What is picked from left to right are the places outside of those that are
picked before, if these do not tell which places may be picked behind them. -/
theorem Leftmost.mem_iff (hpos : ∀ {pos f}, P pos f → pos ≤ f.start)
    (hlt : ∀ {pos f}, P pos f → f.start < f.stop)
    (hunique : ∀ {pos f g}, P pos f → P pos g → f.start = g.start → f = g)
    (hbehind : ∀ {pos f g}, P pos g → g.stop ≤ f.start → (P g.stop f ↔ P pos f))
    (h : Leftmost P pos fs) : f ∈ fs ↔ P pos f ∧ Outside fs f := by
  induction fs generalizing pos f with
  | nil => exact ⟨fun hf => (List.not_mem_nil hf).elim, fun hf => absurd hf.1 (h f)⟩
  | cons g fs ih =>
    obtain ⟨⟨hg, hfirst⟩, hrest⟩ := h
    have hlt := hlt hg
    -- all that is picked later begins behind the first place
    have hlater : ∀ k ∈ fs, g.stop ≤ k.start := fun k hk => hpos ((ih hrest).1 hk).1
    constructor
    · intro hf
      rcases List.mem_cons.1 hf with rfl | hf
      · refine ⟨hg, fun k hk hk' => ?_⟩
        rcases List.mem_cons.1 hk with rfl | hk
        · omega
        · have := hlater k hk
          omega
      · obtain ⟨hP, hout⟩ := (ih hrest).1 hf
        have hstop := hlater f hf
        refine ⟨(hbehind hg hstop).1 hP, fun k hk hk' => ?_⟩
        rcases List.mem_cons.1 hk with rfl | hk
        · exact hstop
        · exact hout k hk hk'
    · rintro ⟨hP, hout⟩
      rcases Nat.lt_or_eq_of_le (hfirst f hP) with hlt | heq
      · have hstop := hout g List.mem_cons_self hlt
        refine List.mem_cons_of_mem _ ((ih hrest).2 ⟨(hbehind hg hstop).2 hP, ?_⟩)
        exact fun k hk => hout k (List.mem_cons_of_mem _ hk)
      · exact hunique hg hP heq ▸ List.mem_cons_self

end TagPlace

open TagPlace (First From Leftmost)

/-! ### Texts cut and woven at places -/

/-- The text as a run, or nothing for no text. -/
def plainRuns (text : Text) : List Run := if text = [] then [] else [.plain text]

/-- The text from `pos` on, cut at some places. -/
def cutFrom (s : Text) (pos : Nat) : List TagPlace → List Run
  | [] => plainRuns (s.drop pos)
  | f :: fs =>
    plainRuns (s.extract pos f.start) ++ .tagged f.term f.content :: cutFrom s f.stop fs

/-- The text from `pos` on, with new text at some places. -/
def weaveFrom (s : Text) (pos : Nat) : List (TagPlace × Text) → Text
  | [] => s.drop pos
  | (f, new) :: fs => s.extract pos f.start ++ new ++ weaveFrom s f.stop fs

/-- Before the first of the places the text stays as it is. -/
theorem weaveFrom_eq_append {fs : List (TagPlace × Text)} (hle : pos ≤ pos')
    (h : ∀ f ∈ (fs.map Prod.fst).head?, pos' ≤ f.start) :
    weaveFrom s pos fs = s.extract pos pos' ++ weaveFrom s pos' fs := by
  rcases fs with - | ⟨⟨f, new⟩, fs⟩
  · exact (Text.extract_append_drop hle).symm
  · have hstart : pos' ≤ f.start := h f rfl
    simp [weaveFrom, ← Text.extract_append_extract hle hstart]

theorem flatMap_written_cutFrom (w : Text → Text → Text) (s : Text) (pos : Nat)
    (fs : List TagPlace) :
    (cutFrom s pos fs).flatMap (Run.written w) =
      weaveFrom s pos (fs.map fun f => (f, w f.term f.content)) := by
  have hplain : ∀ text, (plainRuns text).flatMap (Run.written w) = text := by
    intro text
    by_cases h : text = [] <;> simp [plainRuns, h, Run.written]
  induction fs generalizing pos with
  | nil => exact hplain _
  | cons f fs ih => simp [cutFrom, weaveFrom, hplain, ih, Run.written]

/-! ### Places of a text -/

namespace TagStyle

variable (style : TagStyle)

/-- The style recognises the piece at its place. -/
def Reads (s : Text) (f : TagPlace) : Prop :=
  style.read? (s.drop f.start) = some (.tagged f.term f.content, s.drop f.stop) ∧
    f.stop = f.start + (style.write f.term f.content).length

/-- The position lies inside a plain run that the style recognises at or
behind `pos`. -/
def Hides (s : Text) (pos q : Nat) : Prop :=
  ∃ p text rest, (pos ≤ p ∧ p < q ∧ q < p + text.length) ∧
    style.read? (s.drop p) = some (.plain text, rest)

/-- The piece begins at or behind `pos`, and nothing hides it from there. -/
def Open (s : Text) (pos : Nat) (f : TagPlace) : Prop :=
  pos ≤ f.start ∧ style.Reads s f ∧ ¬ style.Hides s pos f.start

/-- The places of some runs, the first of which begins at `pos`. -/
def placesFrom (pos : Nat) : List Run → List TagPlace
  | [] => []
  | .plain text :: rs => placesFrom (pos + text.length) rs
  | .tagged term content :: rs =>
    let stop := pos + (style.write term content).length
    ⟨pos, stop, term, content⟩ :: placesFrom stop rs

/-- The places of the tagged runs of a text. -/
def places (s : Text) : List TagPlace := style.placesFrom 0 (style.runs s)

/-- Of the plain runs that the style recognises, none ends inside another. -/
def Nests : Prop :=
  ∀ {s text rest p inner rest'}, style.read? s = some (.plain text, rest) → p < text.length →
    style.read? (s.drop p) = some (.plain inner, rest') → p + inner.length ≤ text.length

variable {style}

theorem Reads.unique (hf : style.Reads s f) (hg : style.Reads s g) (h : f.start = g.start) :
    f = g := by
  obtain ⟨hread, hstop⟩ := hf
  obtain ⟨hread', hstop'⟩ := hg
  rw [h, hread'] at hread
  obtain ⟨hterm, hcontent⟩ := Run.tagged.inj (Prod.mk.inj (Option.some.inj hread)).1
  cases f
  cases g
  simp_all

theorem Reads.start_lt_length (h : style.Reads s f) : f.start < s.length := by
  by_contra hlength
  have hread := h.1
  rw [List.drop_eq_nil_of_le (Nat.le_of_not_lt hlength), style.read?_nil] at hread
  cases hread

theorem Reads.start_lt_stop (h : style.Reads s f) : f.start < f.stop := by
  have := style.length_lt_write f.term f.content
  rw [h.2]
  omega

/-- What stands at the place of a piece is the piece as it is written. -/
theorem Reads.extract_eq (h : style.Reads s f) :
    s.extract f.start f.stop = style.write f.term f.content := by
  rw [h.2]
  exact (Text.eq_of_drop_eq_append (style.eq_of_read? h.1).1).1

theorem Reads.stop_le_length (h : style.Reads s f) : f.stop ≤ s.length := by
  have hlength := congrArg List.length h.extract_eq
  have hstop := h.2
  simp only [List.extract, List.length_take, List.length_drop] at hlength
  have := h.start_lt_stop
  omega

/-- What is recognised at a position ends where the text goes on. -/
theorem drop_of_read? (h : style.read? (s.drop pos) = some (run, rest)) :
    s.drop (pos + (run.written style.write).length) = rest :=
  (Text.eq_of_drop_eq_append (style.eq_of_read? h).1).2

theorem reads_of_read? (h : style.read? (s.drop pos) = some (.tagged term content, rest)) :
    style.Reads s ⟨pos, pos + (style.write term content).length, term, content⟩ := by
  refine ⟨?_, rfl⟩
  rw [h, ← drop_of_read? h]
  rfl

/-! ### One step along a text -/

/-- Nothing is picked at a position where nothing is recognised. -/
theorem open_succ_iff (h : style.read? (s.drop pos) = none) :
    style.Open s pos f ↔ style.Open s (pos + 1) f := by
  constructor
  · rintro ⟨hle, hreads, hhidden⟩
    have hne : pos ≠ f.start := by
      rintro rfl
      exact absurd (hreads.1.symm.trans h) (by simp)
    refine ⟨by omega, hreads, fun hh => hhidden ?_⟩
    obtain ⟨p, text, rest, ⟨hp, hrange⟩, hread⟩ := hh
    exact ⟨p, text, rest, ⟨by omega, hrange⟩, hread⟩
  · rintro ⟨hle, hreads, hhidden⟩
    refine ⟨by omega, hreads, fun hh => hhidden ?_⟩
    obtain ⟨p, text, rest, ⟨hp, hrange⟩, hread⟩ := hh
    have hne : p ≠ pos := by
      rintro rfl
      exact absurd (hread.symm.trans h) (by simp)
    exact ⟨p, text, rest, ⟨by omega, hrange⟩, hread⟩

/-- Nothing is picked on a stretch where nothing is recognised. -/
theorem open_iff_of_le (hle : pos ≤ pos')
    (h : ∀ p, pos ≤ p → p < pos' → style.read? (s.drop p) = none) :
    style.Open s pos f ↔ style.Open s pos' f := by
  induction pos', hle using Nat.le_induction with
  | base => rfl
  | succ pos' hle ih =>
    rw [ih fun p hp hlt => h p hp (by omega), open_succ_iff (h pos' hle (by omega))]

/-- A plain run hides what begins in it, and nothing behind it. -/
theorem open_add_iff (hnests : style.Nests)
    (h : style.read? (s.drop pos) = some (.plain text, rest)) :
    style.Open s pos f ↔ style.Open s (pos + text.length) f := by
  constructor
  · rintro ⟨hle, hreads, hhidden⟩
    have hne : pos ≠ f.start := by
      rintro rfl
      exact absurd (hreads.1.symm.trans h) (by simp)
    refine ⟨?_, hreads, fun hh => hhidden ?_⟩
    · by_contra hlt
      exact hhidden ⟨pos, text, rest, by omega, h⟩
    · obtain ⟨p, inner, rest', ⟨hp, hrange⟩, hread⟩ := hh
      exact ⟨p, inner, rest', ⟨by omega, hrange⟩, hread⟩
  · rintro ⟨hle, hreads, hhidden⟩
    refine ⟨by omega, hreads, fun hh => ?_⟩
    obtain ⟨p, inner, rest', ⟨hp, hlt, hrange⟩, hread⟩ := hh
    by_cases hinside : p < pos + text.length
    · -- a plain run that begins in this one ends with it, or before
      obtain ⟨k, rfl⟩ := Nat.exists_eq_add_of_le hp
      rw [← List.drop_drop] at hread
      have := hnests h (by omega) hread
      omega
    · exact hhidden ⟨p, inner, rest', ⟨by omega, hlt, hrange⟩, hread⟩

/-! ### The whole text -/

theorem placesFrom_before (pos : Nat) (run : Run) (rs : List Run) :
    style.placesFrom pos (run.before rs) = style.placesFrom pos (run :: rs) := by
  rcases run with text | ⟨term, content⟩
  · rcases rs with - | ⟨more | ⟨term, content⟩, rs⟩ <;>
      simp [Run.before, placesFrom, Nat.add_assoc]
  · rfl

theorem leftmost_placesFrom (hnests : style.Nests) (s : Text) (pos : Nat) :
    Leftmost (style.Open s) pos (style.placesFrom pos (style.runs (s.drop pos))) := by
  generalize ht : s.drop pos = t
  fun_induction style.runs t generalizing pos with
  | case1 =>
    intro f hf
    have hlength := List.drop_eq_nil_iff.1 ht
    have := hf.2.1.start_lt_length
    exact absurd hf.1 (by omega)
  | case2 c t run rest h ih =>
    rw [← ht] at h
    have hrest := ih _ (drop_of_read? h)
    rw [placesFrom_before]
    rcases run with text | ⟨term, content⟩
    · exact hrest.congr fun f => (open_add_iff hnests h).symm
    · have hreads := reads_of_read? h
      refine ⟨⟨⟨Nat.le_refl _, hreads, ?_⟩, fun g hg => hg.1⟩, hrest⟩
      rintro ⟨p, text, rest', ⟨hp, hlt, -⟩, -⟩
      exact absurd hlt (by simpa using hp)
  | case3 c t h ih =>
    rw [← ht] at h
    have hrest := ih (pos + 1) (by rw [← List.drop_drop, ht]; rfl)
    rw [placesFrom_before]
    exact hrest.congr fun f => (open_succ_iff h).symm

/-- **The places of a text are picked from left to right** among the pieces
that are recognised and not hidden. -/
theorem leftmost_places (hnests : style.Nests) (s : Text) :
    Leftmost (style.Open s) 0 (style.places s) :=
  leftmost_placesFrom hnests s 0

/-- Where no plain run is ever recognised, nothing is hidden. -/
theorem leftmost_places_of_tagged (h : ∀ {t text rest}, style.read? t ≠ some (.plain text, rest))
    (s : Text) : Leftmost (From (style.Reads s)) 0 (style.places s) := by
  have hopen : style.Open s = From (style.Reads s) := by
    funext pos f
    have hhides : ¬ style.Hides s pos f.start := fun ⟨_, _, _, _, hread⟩ => h hread
    simp [Open, hhides]
  exact hopen ▸ leftmost_places (fun hread => absurd hread h) s

variable (style)

theorem mem_before_plain (h : .plain text ∈ run.before rs) :
    (∃ more, run = .plain more ∧ more <+: text) ∨ .plain text ∈ rs := by
  rcases run with more | ⟨term, content⟩
  · rcases rs with - | ⟨more' | ⟨term, content⟩, rs⟩ <;> simp_all [Run.before]
    · rcases h with rfl | h
      · exact Or.inl (List.prefix_append _ _)
      · exact Or.inr (Or.inr h)
    · exact h.imp_left fun h => by rw [h]
  · simpa [Run.before] using h

/-- No plain run of a text is empty. -/
theorem plain_ne_nil_of_mem_runs (h : .plain text ∈ style.runs s) : text ≠ [] := by
  fun_induction style.runs s with
  | case1 => cases h
  | case2 c s run rest hread ih =>
    rcases mem_before_plain h with ⟨more, rfl, hprefix⟩ | h
    · have hne : more ≠ [] := (style.eq_of_read? hread).2
      exact hprefix.ne_nil hne
    · exact ih h
  | case3 c s hread ih =>
    rcases mem_before_plain h with ⟨more, hmore, hprefix⟩ | h
    · obtain rfl := Run.plain.inj hmore
      exact hprefix.ne_nil (by simp)
    · exact ih h

/-- Runs side by side, none of them empty, are their text cut at their
places. -/
theorem cutFrom_placesFrom (hapart : Run.Apart rs) (hplain : ∀ text, .plain text ∈ rs → text ≠ [])
    (h : s.drop pos = style.written rs) : cutFrom s pos (style.placesFrom pos rs) = rs := by
  induction rs generalizing pos with
  | nil => simp [placesFrom, cutFrom, h, written, plainRuns]
  | cons run rs ih =>
    obtain ⟨hnext, hrest⟩ := Run.apart_cons.1 hapart
    have h' : s.drop pos = run.written style.write ++ style.written rs := h
    obtain ⟨hextract, hdrop⟩ := Text.eq_of_drop_eq_append h'
    have ih' := ih hrest (fun text htext => hplain text (List.mem_cons_of_mem _ htext)) hdrop
    rcases run with text | ⟨term, content⟩
    · have hne : text ≠ [] := hplain text List.mem_cons_self
      rcases rs with - | ⟨more | ⟨term, content⟩, rs⟩
      · have htext : s.drop pos = text := h'.trans (List.append_nil _)
        simp [placesFrom, cutFrom, htext, plainRuns, hne]
      · -- two plain runs are never side by side
        simpa [Run.term?] using hnext (.plain more) rfl
      · -- the text in front is plain, and what follows is cut at the place right behind it
        have hcut :
            cutFrom s pos (style.placesFrom pos (.plain text :: .tagged term content :: rs)) =
            plainRuns (s.extract pos (pos + text.length)) ++
              cutFrom s (pos + text.length)
                (style.placesFrom (pos + text.length) (.tagged term content :: rs)) := by
          simp [placesFrom, cutFrom, plainRuns]
        have hwritten : s.extract pos (pos + text.length) = text := hextract
        rw [hcut, hwritten, plainRuns, if_neg hne]
        exact congrArg (.plain text :: ·) ih'
    · have hself : plainRuns (s.extract pos pos) = [] := by simp [plainRuns]
      rw [placesFrom, cutFrom, hself]
      exact congrArg (.tagged term content :: ·) ih'

/-- **The runs of a text are the text cut at its places.** -/
theorem runs_eq_cut (s : Text) : style.runs s = cutFrom s 0 (style.places s) := by
  refine (style.cutFrom_placesFrom (style.apart_runs s)
    (fun text htext => style.plain_ne_nil_of_mem_runs htext) ?_).symm
  rw [written_runs, List.drop_zero]

theorem map_term_placesFrom (pos : Nat) (rs : List Run) :
    (style.placesFrom pos rs).map TagPlace.term = rs.filterMap Run.term? := by
  induction rs generalizing pos with
  | nil => rfl
  | cons run rs ih =>
    rcases run with text | ⟨term, content⟩ <;>
      simp [placesFrom, Run.term?, ih, List.filterMap_cons]

/-- The terms of a text are those of its places. -/
theorem terms_eq_map_places (s : Text) : style.terms s = (style.places s).map TagPlace.term :=
  (style.map_term_placesFrom 0 (style.runs s)).symm

theorem extract_of_mem_placesFrom (h : s.drop pos = style.written rs)
    (hf : f ∈ style.placesFrom pos rs) :
    s.extract f.start f.stop = style.write f.term f.content := by
  induction rs generalizing pos with
  | nil => cases hf
  | cons run rs ih =>
    have h' : s.drop pos = run.written style.write ++ style.written rs := h
    obtain ⟨hextract, hdrop⟩ := Text.eq_of_drop_eq_append h'
    rcases run with text | ⟨term, content⟩
    · exact ih hdrop hf
    · rcases List.mem_cons.1 hf with rfl | hf
      · exact hextract
      · exact ih hdrop hf

/-- What stands at the place of a piece is the piece as it is written. -/
theorem extract_of_mem_places (hf : f ∈ style.places s) :
    s.extract f.start f.stop = style.write f.term f.content := by
  refine style.extract_of_mem_placesFrom ?_ hf
  rw [written_runs, List.drop_zero]

/-! ### Replacing at places -/

section

variable {m : Type → Type} [Monad m] [LawfulMonad m]
  (replace : Nat → Text → Text → m (Option Text))

theorem replaceRunsM_plainRuns (index : Nat) (rs : List Run) :
    style.replaceRunsM replace index (plainRuns text ++ rs) =
      (text ++ ·) <$> style.replaceRunsM replace index rs := by
  by_cases h : text = [] <;> simp [plainRuns, h, replaceRunsM]

/-- The text for the place with a number: what replaces it, or what stands
there. -/
def newTextM (s : Text) : TagPlace × Nat → m (TagPlace × Text)
  | (f, index) => do
    let new ← replace index f.term f.content
    return (f, new.getD (s.extract f.start f.stop))

theorem replaceRunsM_cutFrom (index pos : Nat)
    (hfs : ∀ f ∈ fs, s.extract f.start f.stop = style.write f.term f.content) :
    style.replaceRunsM replace index (cutFrom s pos fs) =
      weaveFrom s pos <$> (fs.zipIdx index).mapM (newTextM replace s) := by
  induction fs generalizing index pos with
  | nil =>
    have h : style.replaceRunsM replace index (plainRuns (s.drop pos) ++ []) = _ :=
      style.replaceRunsM_plainRuns replace index []
    rw [List.append_nil] at h
    simp [cutFrom, h, replaceRunsM, weaveFrom]
  | cons f fs ih =>
    have hrest := ih (index + 1) f.stop fun g hg => hfs g (List.mem_cons_of_mem _ hg)
    have hwrite := hfs f List.mem_cons_self
    simp only [cutFrom, replaceRunsM_plainRuns, replaceRunsM, hrest, List.zipIdx_cons,
      List.mapM_cons, newTextM, hwrite]
    simp [weaveFrom]

/-- **Replacing the tagged runs puts new text at the places**, asked for one
after the other with their numbers. -/
theorem replaceM_eq_weave (s : Text) :
    style.replaceM replace s =
      weaveFrom s 0 <$> (style.places s).zipIdx.mapM (newTextM replace s) := by
  rw [replaceM, runs_eq_cut]
  exact style.replaceRunsM_cutFrom replace 0 0 fun f hf => style.extract_of_mem_places hf

end

end TagStyle

end AnnotatedEquation
