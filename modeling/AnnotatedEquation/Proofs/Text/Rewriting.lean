/-
AnnotatedEquation/Proofs/Text/Rewriting.lean

Rewriting a text from left to right, in one pass.

* a `Text.Reader` reads something at the front of a text, and leaves what
  follows it;
* `Text.Reader.choose` keeps what is found under what was read, and
  `Text.Reader.orElse` reads one thing or else another;
* `Text.Reader.rewrite` goes along a text: where a new text is read it stands in
  place of what was read, and everything else stays.

Two passes are one pass that reads one thing or else the other
(`Text.Reader.rewrite_rewrite`), if the first one does not stand in the way of
the second: nothing that the second one reads begins in a text that the first
one wrote, and what it reads elsewhere is what it read before.
-/
import AnnotatedEquation.Text.Basic
import Mathlib.Data.List.Basic

namespace AnnotatedEquation.Text

variable {α β : Type} {c x : Char} {s t u v new rest : Text}

/-- Reads something at the front of a text that is not empty, and leaves an end
of what follows its first character. -/
@[ext] structure Reader (α : Type) where
  read? : Text → Option (α × Text)
  suffix : ∀ {c s a rest}, read? (c :: s) = some (a, rest) → rest <:+ s

namespace Reader

/-! ### Readers -/

/-- What is found under what a reader reads. -/
def choose (r : Reader α) (f : α → Option β) : Reader β where
  read? s := (r.read? s).bind fun (a, rest) => (f a).map (·, rest)
  suffix h := by
    obtain ⟨⟨a, rest⟩, hread, hmap⟩ := Option.bind_eq_some_iff.1 h
    obtain ⟨b, -, heq⟩ := Option.map_eq_some_iff.1 hmap
    obtain ⟨-, rfl⟩ := Prod.mk.inj heq
    exact r.suffix hread

/-- What one reader reads, or else what another one reads. -/
def orElse (f g : Reader α) : Reader α where
  read? s := (f.read? s).or (g.read? s)
  suffix h := by
    rcases Option.or_eq_some_iff.1 h with h | ⟨-, h⟩
    · exact f.suffix h
    · exact g.suffix h

theorem choose_read?_eq_some_iff {r : Reader α} {f : α → Option β} {b : β} :
    (r.choose f).read? s = some (b, rest) ↔ ∃ a, r.read? s = some (a, rest) ∧ f a = some b := by
  simp only [choose, Option.bind_eq_some_iff, Option.map_eq_some_iff, Prod.mk.injEq, Prod.exists]
  constructor
  · rintro ⟨a, rest', hread, b', hf, rfl, rfl⟩
    exact ⟨a, hread, hf⟩
  · rintro ⟨a, hread, hf⟩
    exact ⟨a, rest, hread, b, hf, rfl, rfl⟩

theorem choose_read?_eq_none_iff {r : Reader α} {f : α → Option β} :
    (r.choose f).read? s = none ↔ ∀ a rest, r.read? s = some (a, rest) → f a = none := by
  simp [choose, Option.bind_eq_none_iff]

/-- What is found behind another text is found behind it under what is read. -/
theorem choose_read?_map {r : Reader α} (f : α → Option β) (g : Text → Text)
    (h : r.read? s = (r.read? t).map fun (a, rest) => (a, g rest)) :
    (r.choose f).read? s = ((r.choose f).read? t).map fun (b, rest) => (b, g rest) := by
  simp only [choose, h]
  rcases r.read? t with - | ⟨a, rest⟩
  · rfl
  · rcases hf : f a with - | b <;> simp [hf]

theorem orElse_choose (r : Reader α) (f g : α → Option β) :
    (r.choose f).orElse (r.choose g) = r.choose fun a => (f a).or (g a) := by
  ext1
  funext s
  simp only [orElse, choose]
  rcases r.read? s with - | ⟨a, rest⟩
  · rfl
  · rcases hf : f a with - | b <;> simp [hf]

/-! ### One pass -/

/-- Rewrites a text from left to right, after leaving out `skip` characters,
which belong to what was read already. -/
def rewriteFrom (r : Reader Text) (skip : Nat) : Text → Text
  | [] => []
  | c :: s =>
    match skip with
    | skip + 1 => rewriteFrom r skip s
    | 0 =>
      match r.read? (c :: s) with
      | some (new, rest) => new ++ rewriteFrom r (s.length - rest.length) s
      | none => c :: rewriteFrom r 0 s

/-- The text with what is read replaced by the new texts, and everything else
as it is. -/
def rewrite (r : Reader Text) (s : Text) : Text := rewriteFrom r 0 s

variable {r f g : Reader Text}

@[simp] theorem rewrite_nil : r.rewrite [] = [] := rfl

theorem rewriteFrom_append (u v : Text) : rewriteFrom r u.length (u ++ v) = r.rewrite v := by
  induction u with
  | nil => rfl
  | cons c u ih => exact ih

theorem rewrite_of_none (h : r.read? (c :: s) = none) : r.rewrite (c :: s) = c :: r.rewrite s := by
  simp only [rewrite, rewriteFrom, h]

theorem rewrite_of_some (h : r.read? (c :: s) = some (new, rest)) :
    r.rewrite (c :: s) = new ++ r.rewrite rest := by
  obtain ⟨u, rfl⟩ := r.suffix h
  have hlength : (u ++ rest).length - rest.length = u.length := by
    rw [List.length_append, Nat.add_sub_cancel]
  rw [rewrite, rewriteFrom]
  simp only [h, hlength, rewriteFrom_append]

theorem rewrite_of_read? (hs : s ≠ []) (h : r.read? s = some (new, rest)) :
    r.rewrite s = new ++ r.rewrite rest := by
  obtain ⟨c, s, rfl⟩ := List.exists_cons_of_ne_nil hs
  exact rewrite_of_some h

/-- A property of all texts, along the pass over them. -/
@[elab_as_elim] theorem rewrite_induction {motive : Text → Prop} (r : Reader Text)
    (nil : motive [])
    (kept : ∀ c s, r.read? (c :: s) = none → motive s → motive (c :: s))
    (replaced : ∀ c s new rest, r.read? (c :: s) = some (new, rest) → motive rest → motive (c :: s))
    (s : Text) : motive s := by
  induction hn : s.length using Nat.strongRecOn generalizing s with
  | _ n ih =>
    rcases s with - | ⟨c, s⟩
    · exact nil
    · rcases hread : r.read? (c :: s) with - | ⟨new, rest⟩
      · exact kept c s hread (ih s.length (by rw [← hn, List.length_cons]; omega) s rfl)
      · have hle := (r.suffix hread).length_le
        exact replaced c s new rest hread
          (ih rest.length (by rw [← hn, List.length_cons]; omega) rest rfl)

/-- A stretch in which nothing is read stays as it is. -/
theorem rewrite_append_of_none (h : ∀ v, v ≠ [] → v <:+ u → r.read? (v ++ s) = none) :
    r.rewrite (u ++ s) = u ++ r.rewrite s := by
  induction u with
  | nil => rfl
  | cons c u ih =>
    have hfront := h (c :: u) (List.cons_ne_nil c u) List.suffix_rfl
    rw [List.cons_append] at hfront ⊢
    rw [rewrite_of_none hfront, ih fun v hv hsuffix => h v hv (hsuffix.trans (List.suffix_cons c u)),
      List.cons_append]

theorem rewrite_eq_self (h : ∀ v, v ≠ [] → v <:+ s → r.read? v = none) : r.rewrite s = s := by
  have hall := rewrite_append_of_none (r := r) (u := s) (s := [])
    fun v hv hsuffix => by rw [List.append_nil]; exact h v hv hsuffix
  rwa [List.append_nil, rewrite_nil, List.append_nil] at hall

/-- A stretch in which something is read does not stay as it is, if what is
written never begins as what was read. -/
theorem not_prefix_rewrite
    (hhead : ∀ {c s new rest}, r.read? (c :: s) = some (new, rest) →
      ∃ x new', new = x :: new' ∧ x ≠ c)
    (hv : v ≠ []) (hsuffix : v <:+ u) (hread : r.read? (v ++ s) ≠ none) :
    ¬ u <+: r.rewrite (u ++ s) := by
  induction u with
  | nil => exact absurd (List.suffix_nil.1 hsuffix) hv
  | cons c u ih =>
    rw [List.cons_append]
    rcases hfront : r.read? (c :: (u ++ s)) with - | ⟨new, rest⟩
    · rw [rewrite_of_none hfront, List.cons_prefix_cons, not_and]
      intro _
      rcases List.suffix_cons_iff.1 hsuffix with rfl | hsuffix
      · exact absurd hfront hread
      · exact ih hsuffix
    · obtain ⟨x, new', rfl, hx⟩ := hhead hfront
      rw [rewrite_of_some hfront, List.cons_append, List.cons_prefix_cons]
      exact fun h => hx h.1.symm

/-! ### Two passes -/

/-- **Two passes are one** if nothing that the second one reads begins in a text
that the first one wrote, and in a text in which the first one reads nothing at
the front, the second one reads what it read before. -/
theorem rewrite_rewrite (s : Text)
    (hnew : ∀ {t new rest}, t <:+ s → f.read? t = some (new, rest) →
      ∀ v, v ≠ [] → v <:+ new → g.read? (v ++ f.rewrite rest) = none)
    (hread : ∀ {c s}, f.read? (c :: s) = none →
      g.read? (c :: f.rewrite s) =
        (g.read? (c :: s)).map fun (new, rest) => (new, f.rewrite rest)) :
    g.rewrite (f.rewrite s) = (f.orElse g).rewrite s := by
  induction s using rewrite_induction (f.orElse g) with
  | nil => rfl
  | kept c s hnone ih =>
    obtain ⟨hf, hg⟩ := Option.or_eq_none_iff.1 hnone
    have hnone' : g.read? (c :: f.rewrite s) = none := by rw [hread hf, hg, Option.map_none]
    rw [rewrite_of_none hf, rewrite_of_none hnone', rewrite_of_none hnone,
      ih fun ht => hnew (ht.trans (List.suffix_cons c s))]
  | replaced c s new rest hsome ih =>
    have hsuffix := (f.orElse g).suffix hsome
    have ih := ih fun ht => hnew (ht.trans (hsuffix.trans (List.suffix_cons c s)))
    rw [rewrite_of_some hsome, ← ih]
    rcases Option.or_eq_some_iff.1 hsome with hf | ⟨hf, hg⟩
    · rw [rewrite_of_some hf, rewrite_append_of_none (hnew List.suffix_rfl hf)]
    · have hsome' : g.read? (c :: f.rewrite s) = some (new, f.rewrite rest) := by
        rw [hread hf, hg, Option.map_some]
      rw [rewrite_of_none hf, rewrite_of_some hsome']

end Reader

end AnnotatedEquation.Text
