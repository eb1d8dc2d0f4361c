/-
AnnotatedEquation/Proofs/Text/Pattern.lean

Patterns in the manner of regular expressions, found in a text from left to
right.

* `Pattern.ways` lists the ways in which a pattern takes the front of a text,
  with the texts of its groups, in the order in which they are preferred: a
  repetition takes as much as it can first;
* `Pattern.pieces` goes along a text once: where the pattern fits it is taken in
  the preferred way, and the search goes on behind it; where it does not, one
  character is passed over.

Main statement: the ways are all those in which the front of the text has the
shape of the pattern (`Pattern.mem_ways_iff`).
-/
import AnnotatedEquation.Text.Basic
import Mathlib.Data.List.Basic

namespace AnnotatedEquation

/-- A pattern: a character of a class, one or more characters of a class, a
pattern whose text is kept as a group, or two patterns one behind the other. -/
inductive Pattern where
  | one (accepts : Char → Bool)
  | many (accepts : Char → Bool)
  | group (p : Pattern)
  | next (p q : Pattern)

namespace Pattern

/-- A way to take the front of a text: what is taken, the groups in it, and
what is left. -/
structure Way where
  taken : Text
  groups : List Text
  rest : Text
  deriving DecidableEq, Repr

variable {accepts : Char → Bool} {p q : Pattern} {c : Char} {s t : Text} {gs : List Text}
  {w : Way}

/-! ### Ways to take the front of a text -/

/-- The ways to take one or more characters of a class, longer ones first. -/
def manyWays (accepts : Char → Bool) : Text → List Way
  | [] => []
  | c :: s =>
    if accepts c then
      (manyWays accepts s).map (fun w => ⟨c :: w.taken, w.groups, w.rest⟩) ++ [⟨[c], [], s⟩]
    else []

/-- The ways in which a pattern takes the front of a text, in the order in
which they are preferred. -/
def ways : Pattern → Text → List Way
  | one _, [] => []
  | one accepts, c :: s => if accepts c then [⟨[c], [], s⟩] else []
  | many accepts, s => manyWays accepts s
  | group p, s => (ways p s).map fun w => ⟨w.taken, w.taken :: w.groups, w.rest⟩
  | next p q, s => (ways p s).flatMap fun w =>
      (ways q w.rest).map fun w' => ⟨w.taken ++ w'.taken, w.groups ++ w'.groups, w'.rest⟩

/-- The text has the shape of the pattern, with these groups. -/
def Fits : Pattern → Text → List Text → Prop
  | one accepts, t, gs => (∃ c, accepts c ∧ t = [c]) ∧ gs = []
  | many accepts, t, gs => (t ≠ [] ∧ ∀ c ∈ t, accepts c) ∧ gs = []
  | group p, t, gs => ∃ inner, Fits p t inner ∧ gs = t :: inner
  | next p q, t, gs => ∃ u v gs₁ gs₂, (Fits p u gs₁ ∧ Fits q v gs₂) ∧ t = u ++ v ∧ gs = gs₁ ++ gs₂

theorem mem_manyWays_iff :
    w ∈ manyWays accepts s ↔ Fits (many accepts) w.taken w.groups ∧ s = w.taken ++ w.rest := by
  induction s generalizing w with
  | nil =>
    refine iff_of_false List.not_mem_nil ?_
    rintro ⟨⟨⟨hne, -⟩, -⟩, hs⟩
    exact hne (List.append_eq_nil_iff.1 hs.symm).1
  | cons c s ih =>
    rw [manyWays]
    split
    · next hc =>
      rw [List.mem_append, List.mem_map, List.mem_singleton]
      constructor
      · rintro (⟨w, hw, rfl⟩ | rfl)
        · obtain ⟨⟨⟨-, hall⟩, hgroups⟩, hs⟩ := ih.1 hw
          exact ⟨⟨⟨by simp, List.forall_mem_cons.2 ⟨hc, hall⟩⟩, hgroups⟩, by simp [hs]⟩
        · exact ⟨⟨⟨by simp, by simpa using hc⟩, rfl⟩, rfl⟩
      · obtain ⟨t, gs, rest⟩ := w
        rintro ⟨⟨⟨hne, hall⟩, rfl : gs = []⟩, hs⟩
        obtain ⟨a, t, rfl⟩ := List.exists_cons_of_ne_nil hne
        obtain ⟨rfl, hs⟩ := List.cons.inj hs
        -- a single character is taken in the last way, more of them by going on
        by_cases ht : t = []
        · subst ht
          exact Or.inr (by rw [hs]; rfl)
        · have hall := (List.forall_mem_cons.1 hall).2
          exact Or.inl ⟨⟨t, [], rest⟩, ih.2 ⟨⟨⟨ht, hall⟩, rfl⟩, hs⟩, rfl⟩
    · next hc =>
      refine iff_of_false List.not_mem_nil ?_
      rintro ⟨⟨⟨hne, hall⟩, -⟩, hs⟩
      obtain ⟨a, t, ht⟩ := List.exists_cons_of_ne_nil hne
      rw [ht] at hs hall
      exact hc ((List.cons.inj hs).1 ▸ hall a List.mem_cons_self)

/-- **A pattern takes the front of a text in all the ways in which it fits.** -/
theorem mem_ways_iff : w ∈ ways p s ↔ Fits p w.taken w.groups ∧ s = w.taken ++ w.rest := by
  induction p generalizing w s with
  | one accepts =>
    constructor
    · intro hw
      rcases s with - | ⟨c, s⟩
      · cases hw
      · rw [ways] at hw
        split at hw
        · next hc =>
          obtain rfl := List.mem_singleton.1 hw
          exact ⟨⟨⟨c, hc, rfl⟩, rfl⟩, rfl⟩
        · cases hw
    · obtain ⟨t, gs, rest⟩ := w
      rintro ⟨⟨⟨c, hc, rfl : t = [c]⟩, rfl : gs = []⟩, rfl⟩
      simp [ways, hc]
  | many accepts => exact mem_manyWays_iff
  | group p ih =>
    rw [ways, List.mem_map]
    constructor
    · rintro ⟨w, hw, rfl⟩
      obtain ⟨hfits, hs⟩ := ih.1 hw
      exact ⟨⟨w.groups, hfits, rfl⟩, hs⟩
    · obtain ⟨t, gs, rest⟩ := w
      rintro ⟨⟨inner, hfits, rfl : gs = t :: inner⟩, hs⟩
      exact ⟨⟨t, inner, rest⟩, ih.2 ⟨hfits, hs⟩, rfl⟩
  | next p q ihp ihq =>
    simp only [ways, List.mem_flatMap, List.mem_map]
    constructor
    · rintro ⟨w, hw, w', hw', rfl⟩
      obtain ⟨hfits, hs⟩ := ihp.1 hw
      obtain ⟨hfits', hs'⟩ := ihq.1 hw'
      exact ⟨⟨_, _, _, _, ⟨hfits, hfits'⟩, rfl, rfl⟩, by rw [hs, hs', List.append_assoc]⟩
    · obtain ⟨t, gs, rest⟩ := w
      rintro ⟨⟨u, v, gs₁, gs₂, ⟨hfits, hfits'⟩, rfl : t = u ++ v, rfl : gs = gs₁ ++ gs₂⟩, hs⟩
      exact ⟨⟨u, gs₁, v ++ rest⟩, ihp.2 ⟨hfits, by simp [hs]⟩, ⟨v, gs₂, rest⟩,
        ihq.2 ⟨hfits', rfl⟩, rfl⟩

/-- What has the shape of a pattern is not empty. -/
theorem Fits.ne_nil (h : Fits p t gs) : t ≠ [] := by
  induction p generalizing t gs with
  | one accepts =>
    obtain ⟨⟨c, -, rfl⟩, -⟩ := h
    simp
  | many accepts => exact h.1.1
  | group p ih =>
    obtain ⟨inner, hfits, -⟩ := h
    exact ih hfits
  | next p q ihp _ =>
    obtain ⟨u, v, _, _, ⟨hfits, -⟩, rfl, -⟩ := h
    simp [ihp hfits]

theorem fits_one_iff : (one (· = c)).Fits t gs ↔ t = [c] ∧ gs = [] := by
  simp [Fits]

theorem fits_one_next_iff :
    (next (one (· = c)) q).Fits t gs ↔ ∃ v, t = c :: v ∧ q.Fits v gs := by
  constructor
  · rintro ⟨u, v, gs₁, gs₂, ⟨hone, hq⟩, rfl, rfl⟩
    obtain ⟨rfl, rfl⟩ := fits_one_iff.1 hone
    exact ⟨v, rfl, hq⟩
  · rintro ⟨v, rfl, hq⟩
    exact ⟨[c], v, [], gs, ⟨fits_one_iff.2 ⟨rfl, rfl⟩, hq⟩, rfl, rfl⟩

/-- A group of characters other than one, and what comes behind it. -/
theorem fits_group_many_next_iff :
    (next (group (many (· ≠ c))) q).Fits t gs ↔ ∃ u v gs', t = u ++ v ∧ gs = u :: gs' ∧
      (u ≠ [] ∧ c ∉ u) ∧ q.Fits v gs' := by
  have hmany : ∀ u : Text, (∀ x ∈ u, decide (x ≠ c) = true) ↔ c ∉ u := by
    intro u
    simp only [decide_eq_true_eq]
    exact ⟨fun h hc => h c hc rfl, fun h x hx hxc => h (hxc ▸ hx)⟩
  constructor
  · rintro ⟨u, v, gs₁, gs₂, ⟨⟨inner, ⟨⟨hne, hall⟩, rfl⟩, rfl⟩, hq⟩, rfl, rfl⟩
    exact ⟨u, v, gs₂, rfl, rfl, ⟨hne, (hmany u).1 hall⟩, hq⟩
  · rintro ⟨u, v, gs', rfl, rfl, ⟨hne, hc⟩, hq⟩
    exact ⟨u, v, [u], gs', ⟨⟨[], ⟨⟨hne, (hmany u).2 hc⟩, rfl⟩, rfl⟩, hq⟩, rfl, rfl⟩

/-! ### Along a text -/

/-- The preferred way to take the front of a text. -/
def first? (p : Pattern) (s : Text) : Option Way := (p.ways s).head?

theorem mem_ways_of_first? (h : p.first? s = some w) : w ∈ p.ways s := List.mem_of_head? h

theorem length_rest_lt (h : p.first? s = some w) : w.rest.length < s.length := by
  obtain ⟨hfits, hs⟩ := mem_ways_iff.1 (mem_ways_of_first? h)
  have := List.length_pos_iff.2 hfits.ne_nil
  rw [hs, List.length_append]
  omega

/-- The pieces of a text from left to right: the preferred way wherever the
pattern fits, and a character where it does not. -/
def pieces (p : Pattern) : Text → List (Char ⊕ Way)
  | [] => []
  | c :: s =>
    match _h : p.first? (c :: s) with
    | some w => .inr w :: pieces p w.rest
    | none => .inl c :: pieces p s
termination_by s => s.length
decreasing_by
  · exact length_rest_lt _h
  · simp

/-- The text with all that the pattern takes replaced, in one pass. -/
def substitute (p : Pattern) (replacement : List Text → Text) (s : Text) : Text :=
  (p.pieces s).flatMap (Sum.elim (fun c => [c]) fun w => replacement w.groups)

/-- The groups of all that the pattern takes, in one pass. -/
def findAll (p : Pattern) (s : Text) : List (List Text) :=
  (p.pieces s).filterMap (Sum.elim (fun _ => none) fun w => some w.groups)

@[simp] theorem pieces_nil : p.pieces [] = [] := by
  rw [pieces]

theorem pieces_cons (h : p.first? (c :: s) = none) : p.pieces (c :: s) = .inl c :: p.pieces s := by
  rw [pieces]
  split <;> simp_all

theorem pieces_of_first? (h : p.first? s = some w) : p.pieces s = .inr w :: p.pieces w.rest := by
  rcases s with - | ⟨c, s⟩
  · exact absurd (length_rest_lt h) (by simp)
  · rw [pieces]
    split <;> simp_all

end Pattern

end AnnotatedEquation
