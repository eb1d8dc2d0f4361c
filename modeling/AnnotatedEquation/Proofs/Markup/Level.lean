/-
AnnotatedEquation/Proofs/Markup/Level.lean

The levels that are open behind a text, and with them the search for a
closing delimiter: it goes through a text that leaves its level open, and
it ends in a text that falls below the level it began with.

* `Delimiters.level?` counts the open levels, and tells whether a backslash
  ends the text;
* a text is `Closed` if it leaves the levels as they were, so that it can
  stand between two delimiters.

Main statements: the search finds exactly the closed contents
(`close?_eq_some_iff`, `content?_eq_some_iff`), and it succeeds in every
text that falls below the level it began with (`exists_close?_of_level?`).
-/
import AnnotatedEquation.Markup.Delimiter
import AnnotatedEquation.Text.Basic

namespace AnnotatedEquation.Delimiters

variable {d : Delimiters} {n m k : Nat} {e e' : Bool} {s t inside rest : Text}

/-! ### Levels -/

/-- The number of open levels behind a text that begins in level `n`, and
whether a backslash ends the text; `escaped` tells that a backslash stands
before it.  There is no answer for a text that closes the level it begins
in. -/
def level? (d : Delimiters) (n : Nat) (escaped : Bool) : Text → Option (Nat × Bool)
  | [] => some (n, escaped)
  | c :: s =>
    if c = d.opening ∧ ¬ escaped then level? d (n + 1) (c = '\\') s
    else if c = d.closing ∧ ¬ escaped then
      match n with
      | 0 => none
      | n + 1 => level? d n (c = '\\') s
    else level? d n (c = '\\') s

/-- The text leaves the levels as they were, and no backslash ends it. -/
def Closed (d : Delimiters) (s : Text) : Prop := d.level? 0 false s = some (0, false)

instance : Decidable (d.Closed s) := inferInstanceAs (Decidable (_ = _))

theorem level?_append (n : Nat) (e : Bool) (s t : Text) :
    d.level? n e (s ++ t) = (d.level? n e s).bind fun r => d.level? r.1 r.2 t := by
  induction s generalizing n e with
  | nil => rfl
  | cons c s ih =>
    simp only [List.cons_append, level?]
    split
    · exact ih _ _
    · split
      · cases n with
        | zero => rfl
        | succ n => exact ih _ _
      · exact ih _ _

theorem level?_tail {c : Char} {r : Nat × Bool} (h : d.level? n e (c :: s) = some r) :
    ∃ m e', d.level? m e' s = some r := by
  have h' : d.level? n e ([c] ++ s) = some r := h
  -- the first character alone leads to the level that the tail begins in
  rw [level?_append, Option.bind_eq_some_iff] at h'
  obtain ⟨⟨m, e'⟩, -, h'⟩ := h'
  exact ⟨m, e', h'⟩

/-- A text goes through the same way some levels further in. -/
theorem level?_add (h : d.level? n e s = some (m, e')) (k : Nat) :
    d.level? (n + k) e s = some (m + k, e') := by
  induction s generalizing n e with
  | nil =>
    simp only [level?, Option.some.injEq, Prod.mk.injEq] at h ⊢
    exact ⟨by rw [h.1], h.2⟩
  | cons c s ih =>
    simp only [level?] at h ⊢
    split
    · next hc =>
      rw [if_pos hc] at h
      have := ih h
      -- one level deeper on both sides
      rwa [Nat.add_right_comm] at this
    · next hc =>
      rw [if_neg hc] at h
      split
      · next hd =>
        rw [if_pos hd] at h
        cases n with
        | zero => simp at h
        | succ n =>
          rw [Nat.add_right_comm]
          exact ih h
      · next hd =>
        rw [if_neg hd] at h
        exact ih h

theorem Closed.level? (h : d.Closed s) (n : Nat) : d.level? n false s = some (n, false) := by
  have := level?_add h n
  rwa [Nat.zero_add] at this

theorem Closed.append (hs : d.Closed s) (ht : d.Closed t) : d.Closed (s ++ t) := by
  have hs : d.level? 0 false s = some (0, false) := hs
  rw [Closed, level?_append, hs]
  exact ht

theorem exists_level?_of_no_delimiter (hs : ∀ c ∈ s, c ≠ d.opening ∧ c ≠ d.closing) (n : Nat)
    (e : Bool) : ∃ e', d.level? n e s = some (n, e') := by
  induction s generalizing e with
  | nil => exact ⟨e, rfl⟩
  | cons c s ih =>
    have hc := hs c (by simp)
    simp only [Delimiters.level?, hc.1, hc.2, false_and, if_false]
    exact ih (fun x hx => hs x (by simp [hx])) _

/-- A text without delimiters stays in its level. -/
theorem level?_concat_of_no_delimiter {c : Char}
    (hs : ∀ x ∈ s ++ [c], x ≠ d.opening ∧ x ≠ d.closing) (n : Nat) (e : Bool) :
    d.level? n e (s ++ [c]) = some (n, decide (c = '\\')) := by
  have hs' : ∀ x ∈ s, x ≠ d.opening ∧ x ≠ d.closing := fun x hx => hs x (by simp [hx])
  obtain ⟨e', h⟩ := exists_level?_of_no_delimiter hs' n e
  have hc := hs c (by simp)
  rw [level?_append, h]
  simp [level?, hc.1, hc.2]

/-- A text without delimiters and backslashes leaves the levels as they
were. -/
theorem level?_of_plain (hs : ∀ c ∈ s, c ≠ d.opening ∧ c ≠ d.closing ∧ c ≠ '\\') (n : Nat) :
    d.level? n false s = some (n, false) := by
  induction s with
  | nil => rfl
  | cons c s ih =>
    obtain ⟨hopening, hclosing, hbackslash⟩ := hs c (by simp)
    have hrest := ih fun x hx => hs x (by simp [hx])
    simp only [level?, hopening, hclosing, false_and, if_false, hbackslash, decide_false]
    exact hrest

/-! ### The search for a closing delimiter -/

/-- The search goes through a text that leaves its level open. -/
theorem close?_append (h : d.level? n e s = some (m, e')) (t : Text) :
    d.close? n e (s ++ t) = (d.close? m e' t).map fun (i, r) => (s ++ i, r) := by
  induction s generalizing n e with
  | nil =>
    simp only [level?, Option.some.injEq, Prod.mk.injEq] at h
    obtain ⟨rfl, rfl⟩ := h
    simp
  | cons c s ih =>
    simp only [level?] at h
    simp only [List.cons_append, close?]
    split
    · next hc =>
      rw [if_pos hc] at h
      simp [ih h, Option.map_map, Function.comp_def]
    · next hc =>
      rw [if_neg hc] at h
      split
      · next hd =>
        rw [if_pos hd] at h
        cases n with
        | zero => simp at h
        | succ n => simp [ih h, Option.map_map, Function.comp_def]
      · next hd =>
        rw [if_neg hd] at h
        simp [ih h, Option.map_map, Function.comp_def]

theorem level?_of_close? (h : d.close? n e s = some (inside, rest)) :
    d.level? n e inside = some (0, false) := by
  induction s generalizing n e inside with
  | nil => simp [close?] at h
  | cons c s ih =>
    simp only [close?] at h
    split at h
    · next hc =>
      obtain ⟨⟨i, r⟩, hi, he⟩ := Option.map_eq_some_iff.1 h
      simp only [Prod.mk.injEq] at he
      obtain ⟨rfl, rfl⟩ := he
      simp only [level?]
      rw [if_pos hc]
      exact ih hi
    · next hc =>
      split at h
      · next hd =>
        cases n with
        | zero =>
          simp only [Option.some.injEq, Prod.mk.injEq] at h
          obtain ⟨rfl, -⟩ := h
          -- this is the delimiter that is looked for, and the content ends before it
          simpa [level?] using hd.2
        | succ n =>
          obtain ⟨⟨i, r⟩, hi, he⟩ := Option.map_eq_some_iff.1 h
          simp only [Prod.mk.injEq] at he
          obtain ⟨rfl, rfl⟩ := he
          simp only [level?]
          rw [if_neg hc, if_pos hd]
          exact ih hi
      · next hd =>
        obtain ⟨⟨i, r⟩, hi, he⟩ := Option.map_eq_some_iff.1 h
        simp only [Prod.mk.injEq] at he
        obtain ⟨rfl, rfl⟩ := he
        simp only [level?]
        rw [if_neg hc, if_neg hd]
        exact ih hi

/-- **The search finds exactly the texts that close all further levels**,
followed by an unescaped closing delimiter. -/
theorem close?_eq_some_iff (hd : d.opening ≠ d.closing) :
    d.close? n e s = some (inside, rest) ↔
      s = inside ++ d.closing :: rest ∧ d.level? n e inside = some (0, false) := by
  constructor
  · exact fun h => ⟨eq_of_close? h, level?_of_close? h⟩
  · rintro ⟨rfl, h⟩
    rw [close?_append h]
    simp [close?, hd.symm]

theorem content?_eq_some_iff (hd : d.opening ≠ d.closing) :
    d.content? s = some (inside, rest) ↔ s = inside ++ d.closing :: rest ∧ d.Closed inside :=
  close?_eq_some_iff hd

/-- **The search succeeds in a text that falls below the level it began
with**: of the `n + k + 1` levels open before the text, at most `k` are open
behind it. -/
theorem exists_close?_of_level? (h : d.level? (n + k + 1) e s = some (m, e')) (hm : m ≤ k) :
    ∃ inside rest, d.close? n e s = some (inside, rest) := by
  induction s generalizing n e with
  | nil =>
    simp only [level?, Option.some.injEq, Prod.mk.injEq] at h
    -- more levels would be open behind the text than may be
    omega
  | cons c s ih =>
    simp only [level?] at h
    simp only [close?]
    split
    · next hc =>
      rw [if_pos hc, show n + k + 1 + 1 = (n + 1) + k + 1 by omega] at h
      obtain ⟨i, r, hi⟩ := ih h
      exact ⟨c :: i, r, by simp [hi]⟩
    · next hc =>
      rw [if_neg hc] at h
      split
      · next hd =>
        rw [if_pos hd] at h
        cases n with
        -- the innermost level is the one that is looked for
        | zero => exact ⟨[], s, rfl⟩
        | succ n =>
          rw [Nat.add_right_comm] at h
          obtain ⟨i, r, hi⟩ := ih h
          exact ⟨c :: i, r, by simp [hi]⟩
      · next hd =>
        rw [if_neg hd] at h
        obtain ⟨i, r, hi⟩ := ih h
        exact ⟨c :: i, r, by simp [hi]⟩

theorem exists_content?_of_level? (h : d.level? (n + 1) false s = some (m, e')) (hm : m ≤ n) :
    ∃ inside rest, d.content? s = some (inside, rest) :=
  exists_close?_of_level? (n := 0) (by simpa using h) hm

/-! ### Positions -/

/-- Behind a character other than a backslash, a search told in positions
gives the end of the content that is read in the text that follows. -/
theorem matchAt?_eq_map_content? {line u : Text} {p : Nat} {c : Char}
    (h : line.drop p = u ++ c :: t) (hc : c ≠ '\\') :
    d.matchAt? line (p + (u ++ [c]).length) =
      (d.content? t).map fun (inside, _) => p + (u ++ [c]).length + inside.length + 1 := by
  have hchar : getElem? line (p + u.length) = some c := by
    rw [← List.getElem?_drop, h]
    simp
  have hdrop : line.drop (p + (u ++ [c]).length) = t := by
    rw [← List.drop_drop, h]
    simp
  rw [matchAt?, hdrop]
  simp [hchar, hc, content?]

theorem isSome_matchAt?_iff {line u : Text} {p : Nat} {c : Char} (h : line.drop p = u ++ c :: t)
    (hc : c ≠ '\\') :
    (d.matchAt? line (p + (u ++ [c]).length)).isSome ↔ (d.content? t).isSome := by
  rw [matchAt?_eq_map_content? h hc, Option.isSome_map]

end AnnotatedEquation.Delimiters
