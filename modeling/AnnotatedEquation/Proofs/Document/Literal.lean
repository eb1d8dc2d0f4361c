/-
AnnotatedEquation/Proofs/Document/Literal.lean

Reading the literals of colors, in a text and in one that was rewritten.

* a `ColorLiteral.Literal` is a literal as it is written: `rgb("#digits")`,
  letter case aside, or `#digits`, with all digits that there are;
* `ColorLiteral.literals` reads the literal at the front of a text.

A pass `Marks` a text if what it reads begins like a literal and what it writes
begins like the name of a color.  A literal that is read behind such a pass was
there before, unless it begins in what was written
(`ColorLiteral.read?_of_read?_rewrite`), and one that was there before is still
read if no part of it was replaced (`ColorLiteral.read?_cons_rewrite`).
-/
import AnnotatedEquation.Proofs.Document.ColorLiteral
import AnnotatedEquation.Proofs.Text.Rewriting

namespace AnnotatedEquation.ColorLiteral

open Text (Reader afterCaseless? caselessKey)

variable {p s t u v r rest digits : Text} {c x : Char}

/-! ### Literals -/

/-- A literal as it is written: whether it is in quotes, and its digits. -/
structure Literal where
  quoted : Bool
  digits : Text
  deriving DecidableEq, Repr

/-- The digits behind a hash, as many as there are. -/
def hashed? : Text → Option (Text × Text)
  | '#' :: s => some (s.takeWhile isHexDigit, s.dropWhile isHexDigit)
  | _ => none

/-- The digits between `rgb("#` and `")`. -/
def quoted? (s : Text) : Option (Text × Text) := do
  let s ← afterCaseless? "rgb(\"".toList s
  let (digits, s) ← hashed? s
  let s ← afterCaseless? "\")".toList s
  return (digits, s)

theorem hashed?_eq_some_iff :
    hashed? s = some (digits, rest) ↔
      ∃ t, s = '#' :: t ∧ digits = t.takeWhile isHexDigit ∧ rest = t.dropWhile isHexDigit := by
  rw [hashed?.eq_def]
  split
  · simp [eq_comm]
  · next hne =>
    refine iff_of_false (by simp) ?_
    rintro ⟨t, rfl, -⟩
    exact hne t rfl

theorem quoted?_eq_some_iff :
    quoted? s = some (digits, rest) ↔ ∃ t u, afterCaseless? "rgb(\"".toList s = some t ∧
      hashed? t = some (digits, u) ∧ afterCaseless? "\")".toList u = some rest := by
  simp only [quoted?, Option.bind_eq_bind, Option.bind_eq_some_iff, Option.pure_def,
    Option.some.injEq, Prod.mk.injEq, Prod.exists]
  constructor
  · rintro ⟨t, ht, d, u, hu, r, hr, rfl, rfl⟩
    exact ⟨t, u, ht, hu, hr⟩
  · rintro ⟨t, u, ht, hu, hr⟩
    exact ⟨t, ht, digits, u, hu, rest, hr, rfl, rfl⟩

theorem suffix_of_afterCaseless? (h : afterCaseless? p s = some rest) : rest <:+ s := by
  obtain ⟨u, rfl, -⟩ := Text.afterCaseless?_eq_some_iff.1 h
  exact List.suffix_append u rest

theorem suffix_of_hashed? (h : hashed? (c :: s) = some (digits, rest)) : rest <:+ s := by
  obtain ⟨t, hs, -, rfl⟩ := hashed?_eq_some_iff.1 h
  obtain ⟨-, rfl⟩ := List.cons.inj hs
  exact List.dropWhile_suffix _

theorem quoteStart_eq : "rgb(\"".toList = 'r' :: "gb(\"".toList := by decide

theorem quoteEnd_eq : "\")".toList = ['"', ')'] := by decide

/-- The literals in quotes begin like `rgb`, letter case aside. -/
theorem exists_of_quoted?_cons (h : quoted? (c :: s) = some (digits, rest)) :
    caselessKey 'r' = caselessKey c ∧ ∃ t u, afterCaseless? "gb(\"".toList s = some ('#' :: t) ∧
      hashed? ('#' :: t) = some (digits, u) ∧ afterCaseless? "\")".toList u = some rest := by
  obtain ⟨t, u, ht, hu, hr⟩ := quoted?_eq_some_iff.1 h
  rw [quoteStart_eq, afterCaseless?] at ht
  obtain ⟨hkey, ht⟩ := Option.ite_none_right_eq_some.1 ht
  obtain ⟨t, rfl, -⟩ := hashed?_eq_some_iff.1 hu
  exact ⟨hkey, t, u, ht, hu, hr⟩

theorem quoted?_cons (hkey : caselessKey 'r' = caselessKey c)
    (ht : afterCaseless? "gb(\"".toList s = some t) (hu : hashed? t = some (digits, u))
    (hr : afterCaseless? "\")".toList u = some rest) : quoted? (c :: s) = some (digits, rest) := by
  refine quoted?_eq_some_iff.2 ⟨t, u, ?_, hu, hr⟩
  rw [quoteStart_eq, afterCaseless?, if_pos hkey, ht]

/-- A literal in quotes. -/
def inQuotes : Reader Literal where
  read? s := (quoted? s).map fun (digits, rest) => (⟨true, digits⟩, rest)
  suffix h := by
    obtain ⟨⟨digits, rest⟩, hread, heq⟩ := Option.map_eq_some_iff.1 h
    obtain ⟨-, rfl⟩ := Prod.mk.inj heq
    obtain ⟨-, t, u, ht, hu, hr⟩ := exists_of_quoted?_cons hread
    refine (suffix_of_afterCaseless? hr).trans ((suffix_of_hashed? hu).trans ?_)
    exact (List.suffix_cons _ t).trans (suffix_of_afterCaseless? ht)

/-- A literal behind a bare hash. -/
def behindHash : Reader Literal where
  read? s := (hashed? s).map fun (digits, rest) => (⟨false, digits⟩, rest)
  suffix h := by
    obtain ⟨⟨digits, rest⟩, hread, heq⟩ := Option.map_eq_some_iff.1 h
    obtain ⟨-, rfl⟩ := Prod.mk.inj heq
    exact suffix_of_hashed? hread

/-- The literal at the front of a text. -/
def literals : Reader Literal := inQuotes.orElse behindHash

theorem quoted?_hash (s : Text) : quoted? ('#' :: s) = none := by
  rcases h : quoted? ('#' :: s) with - | ⟨digits, rest⟩
  · rfl
  · exact absurd (exists_of_quoted?_cons h).1 (by decide)

theorem read?_quoted_iff :
    literals.read? s = some (⟨true, digits⟩, rest) ↔ quoted? s = some (digits, rest) := by
  simp only [literals, Reader.orElse, inQuotes, behindHash, Option.or_eq_some_iff,
    Option.map_eq_some_iff, Prod.mk.injEq, Literal.mk.injEq, Prod.exists]
  simp

theorem read?_hashed_iff :
    literals.read? s = some (⟨false, digits⟩, rest) ↔ hashed? s = some (digits, rest) := by
  simp only [literals, Reader.orElse, inQuotes, behindHash, Option.or_eq_some_iff,
    Option.map_eq_some_iff, Prod.mk.injEq, Literal.mk.injEq, Prod.exists]
  constructor
  · simp
  · intro h
    obtain ⟨t, rfl, -⟩ := hashed?_eq_some_iff.1 h
    exact Or.inr ⟨by rw [quoted?_hash]; rfl, digits, rest, h, by simp⟩

theorem eq_of_hashed? {l : Literal} (h : hashed? s = some (digits, t))
    (hread : literals.read? s = some (l, rest)) : l = ⟨false, digits⟩ := by
  rw [read?_hashed_iff.2 h] at hread
  exact (Prod.mk.inj (Option.some.inj hread)).1.symm

/-- A literal begins with a letter like `r` or with a hash. -/
theorem front_of_read? {l : Literal} (h : literals.read? (c :: s) = some (l, rest)) :
    caselessKey 'r' = caselessKey c ∨ c = '#' := by
  obtain ⟨quoted, digits⟩ := l
  cases quoted with
  | true => exact Or.inl (exists_of_quoted?_cons (read?_quoted_iff.1 h)).1
  | false =>
    obtain ⟨t, heq, -⟩ := hashed?_eq_some_iff.1 (read?_hashed_iff.1 h)
    exact Or.inr (List.cons.inj heq).1

/-! ### Passes that mark what they write -/

/-- What the pass reads begins like a literal, and what it writes begins like the
name of a color. -/
structure Marks (f : Reader Text) : Prop where
  front : ∀ {c s new rest}, f.read? (c :: s) = some (new, rest) →
    caselessKey 'r' = caselessKey c ∨ c = '#'
  written : ∀ {s new rest}, f.read? s = some (new, rest) → ∃ more, new = 't' :: more

variable {f : Reader Text}

/-- A character that no name begins with was there before. -/
theorem Marks.eq_of_rewrite_eq_cons (hf : Marks f) (h : f.rewrite s = x :: u) (hx : x ≠ 't') :
    ∃ t, s = x :: t ∧ u = f.rewrite t := by
  rcases s with - | ⟨c, s⟩
  · simp at h
  · rcases hread : f.read? (c :: s) with - | ⟨new, rest⟩
    · rw [Reader.rewrite_of_none hread] at h
      obtain ⟨rfl, rfl⟩ := List.cons.inj h
      exact ⟨s, rfl, rfl⟩
    · obtain ⟨more, rfl⟩ := hf.written hread
      rw [Reader.rewrite_of_some hread] at h
      exact absurd (List.cons.inj h).1.symm hx

theorem Marks.read?_eq_none (hf : Marks f) (hr : caselessKey 'r' ≠ caselessKey c) (hc : c ≠ '#') :
    f.read? (c :: s) = none := by
  rcases hread : f.read? (c :: s) with - | ⟨new, rest⟩
  · rfl
  · exact ((hf.front hread).elim hr hc).elim

theorem Marks.rewrite_of_isHexDigit (hf : Marks f) (hc : isHexDigit c) :
    f.rewrite (c :: s) = c :: f.rewrite s := by
  refine Reader.rewrite_of_none (hf.read?_eq_none (fun hkey => ?_) ?_)
  · exact absurd (Text.isHexDigit_of_caselessKey_eq hc hkey) (by decide)
  · rintro rfl
    exact absurd hc (by decide)

/-- The digits at the front of a text stay, and no others come. -/
theorem Marks.digits_rewrite (hf : Marks f) (s : Text) :
    (f.rewrite s).takeWhile isHexDigit = s.takeWhile isHexDigit ∧
      (f.rewrite s).dropWhile isHexDigit = f.rewrite (s.dropWhile isHexDigit) := by
  induction s with
  | nil => exact ⟨rfl, rfl⟩
  | cons c s ih =>
    by_cases hc : isHexDigit c
    · rw [hf.rewrite_of_isHexDigit hc, List.takeWhile_cons_of_pos hc, List.takeWhile_cons_of_pos hc,
        List.dropWhile_cons_of_pos hc, List.dropWhile_cons_of_pos hc, ih.1]
      exact ⟨rfl, ih.2⟩
    · have hfront : ∃ x u, f.rewrite (c :: s) = x :: u ∧ ¬ isHexDigit x := by
        rcases hread : f.read? (c :: s) with - | ⟨new, rest⟩
        · exact ⟨c, f.rewrite s, Reader.rewrite_of_none hread, hc⟩
        · obtain ⟨more, rfl⟩ := hf.written hread
          exact ⟨'t', more ++ f.rewrite rest, Reader.rewrite_of_some hread, by decide⟩
      obtain ⟨x, u, hrewrite, hx⟩ := hfront
      rw [List.takeWhile_cons_of_neg hc, List.dropWhile_cons_of_neg hc, hrewrite,
        List.takeWhile_cons_of_neg hx, List.dropWhile_cons_of_neg hx]
      exact ⟨rfl, rfl⟩

/-! ### What is read behind a pass -/

/-- The digits at the front of a text that goes on as a rewritten one. -/
theorem Marks.digits_append_rewrite (hf : Marks f) (v s : Text) :
    (v ++ f.rewrite s).takeWhile isHexDigit = (v ++ s).takeWhile isHexDigit ∧
      ∃ v' s', v' <:+ v ∧ (v ++ s).dropWhile isHexDigit = v' ++ s' ∧
        (v ++ f.rewrite s).dropWhile isHexDigit = v' ++ f.rewrite s' := by
  induction v with
  | nil => exact ⟨(hf.digits_rewrite s).1, [], _, List.suffix_rfl, rfl, (hf.digits_rewrite s).2⟩
  | cons c v ih =>
    by_cases hc : isHexDigit c
    · obtain ⟨htake, v', s', hv', hdrop, hdrop'⟩ := ih
      rw [List.cons_append, List.cons_append, List.takeWhile_cons_of_pos hc,
        List.takeWhile_cons_of_pos hc, List.dropWhile_cons_of_pos hc, List.dropWhile_cons_of_pos hc,
        htake]
      exact ⟨rfl, v', s', hv'.trans (List.suffix_cons c v), hdrop, hdrop'⟩
    · rw [List.cons_append, List.cons_append, List.takeWhile_cons_of_neg hc,
        List.takeWhile_cons_of_neg hc, List.dropWhile_cons_of_neg hc, List.dropWhile_cons_of_neg hc]
      exact ⟨rfl, c :: v, s, List.suffix_rfl, rfl, rfl⟩

theorem Marks.afterCaseless?_of_rewrite (hf : Marks f)
    (hp : ∀ a ∈ p, caselessKey a ≠ caselessKey 't')
    (h : afterCaseless? p (v ++ f.rewrite s) = some r) :
    ∃ v' s', r = v' ++ f.rewrite s' ∧ afterCaseless? p (v ++ s) = some (v' ++ s') := by
  induction p generalizing v s with
  | nil => exact ⟨v, s, (Option.some.inj h).symm, rfl⟩
  | cons a p ih =>
    obtain ⟨ha, hp⟩ := List.forall_mem_cons.1 hp
    rcases v with - | ⟨c, v⟩
    · rw [List.nil_append] at h ⊢
      rcases hrewrite : f.rewrite s with - | ⟨x, u⟩
      · rw [hrewrite] at h
        cases h
      · rw [hrewrite, afterCaseless?] at h
        obtain ⟨hkey, h⟩ := Option.ite_none_right_eq_some.1 h
        have hx : x ≠ 't' := by
          rintro rfl
          exact ha hkey
        obtain ⟨t, rfl, rfl⟩ := hf.eq_of_rewrite_eq_cons hrewrite hx
        obtain ⟨v', s', hr, hafter⟩ := ih hp (v := []) h
        exact ⟨v', s', hr, by rw [afterCaseless?, if_pos hkey]; exact hafter⟩
    · rw [List.cons_append, afterCaseless?] at h ⊢
      obtain ⟨hkey, h⟩ := Option.ite_none_right_eq_some.1 h
      rw [if_pos hkey]
      exact ih hp h

theorem Marks.hashed?_of_rewrite (hf : Marks f)
    (h : hashed? (v ++ f.rewrite s) = some (digits, r)) :
    ∃ v' s', r = v' ++ f.rewrite s' ∧ hashed? (v ++ s) = some (digits, v' ++ s') := by
  obtain ⟨t, ht, rfl, rfl⟩ := hashed?_eq_some_iff.1 h
  -- the hash stands in front of a text that goes on as a rewritten one
  have hrest : ∃ v₁ s₁, t = v₁ ++ f.rewrite s₁ ∧ v ++ s = '#' :: (v₁ ++ s₁) := by
    rcases v with - | ⟨c, v⟩
    · obtain ⟨s₁, rfl, rfl⟩ := hf.eq_of_rewrite_eq_cons ht (by decide)
      exact ⟨[], s₁, rfl, rfl⟩
    · obtain ⟨rfl, rfl⟩ := List.cons.inj ht
      exact ⟨v, s, rfl, rfl⟩
  obtain ⟨v₁, s₁, rfl, hs⟩ := hrest
  obtain ⟨htake, v', s', -, hdrop, hdrop'⟩ := hf.digits_append_rewrite v₁ s₁
  exact ⟨v', s', hdrop', by rw [hs, hashed?, htake, hdrop]⟩

theorem Marks.quoted?_of_rewrite (hf : Marks f)
    (h : quoted? (v ++ f.rewrite s) = some (digits, r)) :
    ∃ v' s', r = v' ++ f.rewrite s' ∧ quoted? (v ++ s) = some (digits, v' ++ s') := by
  obtain ⟨t, u, ht, hu, hr⟩ := quoted?_eq_some_iff.1 h
  obtain ⟨v₁, s₁, rfl, ht'⟩ := hf.afterCaseless?_of_rewrite (by decide) ht
  obtain ⟨v₂, s₂, rfl, hu'⟩ := hf.hashed?_of_rewrite hu
  obtain ⟨v₃, s₃, rfl, hr'⟩ := hf.afterCaseless?_of_rewrite (by decide) hr
  exact ⟨v₃, s₃, rfl, quoted?_eq_some_iff.2 ⟨_, _, ht', hu', hr'⟩⟩

/-- **A literal that is read in front of a rewritten text was there before**, in
front of the text. -/
theorem Marks.read?_of_read?_rewrite (hf : Marks f) {l : Literal}
    (h : literals.read? (v ++ f.rewrite s) = some (l, r)) :
    ∃ v' s', r = v' ++ f.rewrite s' ∧ literals.read? (v ++ s) = some (l, v' ++ s') := by
  obtain ⟨quoted, digits⟩ := l
  cases quoted with
  | true =>
    obtain ⟨v', s', hr, hread⟩ := hf.quoted?_of_rewrite (read?_quoted_iff.1 h)
    exact ⟨v', s', hr, read?_quoted_iff.2 hread⟩
  | false =>
    obtain ⟨v', s', hr, hread⟩ := hf.hashed?_of_rewrite (read?_hashed_iff.1 h)
    exact ⟨v', s', hr, read?_hashed_iff.2 hread⟩

/-! ### What stays to be read -/

theorem Marks.afterCaseless?_rewrite (hf : Marks f)
    (hp : ∀ a ∈ p, caselessKey 'r' ≠ caselessKey a ∧ caselessKey '#' ≠ caselessKey a)
    (h : afterCaseless? p (v ++ s) = some r) :
    ∃ v' s', v' <:+ v ∧ r = v' ++ s' ∧
      afterCaseless? p (v ++ f.rewrite s) = some (v' ++ f.rewrite s') := by
  induction p generalizing v s with
  | nil => exact ⟨v, s, List.suffix_rfl, (Option.some.inj h).symm, rfl⟩
  | cons a p ih =>
    obtain ⟨⟨hr, hhash⟩, hp⟩ := List.forall_mem_cons.1 hp
    rcases v with - | ⟨c, v⟩
    · rcases s with - | ⟨c, s⟩
      · cases h
      · rw [List.nil_append, afterCaseless?] at h
        obtain ⟨hkey, h⟩ := Option.ite_none_right_eq_some.1 h
        have hnone : f.read? (c :: s) = none := by
          refine hf.read?_eq_none (hkey ▸ hr) ?_
          rintro rfl
          exact hhash hkey.symm
        rw [List.nil_append, Reader.rewrite_of_none hnone, afterCaseless?, if_pos hkey]
        exact ih hp (v := []) h
    · rw [List.cons_append, afterCaseless?] at h ⊢
      obtain ⟨hkey, h⟩ := Option.ite_none_right_eq_some.1 h
      rw [if_pos hkey]
      obtain ⟨v', s', hv', hr, hafter⟩ := ih hp h
      exact ⟨v', s', hv'.trans (List.suffix_cons c v), hr, hafter⟩

theorem Marks.hashed?_rewrite (hf : Marks f) (h : hashed? (v ++ s) = some (digits, rest))
    (hhash : v = [] → f.read? s = none) :
    ∃ v' s', v' <:+ v.tail ∧ rest = v' ++ s' ∧
      hashed? (v ++ f.rewrite s) = some (digits, v' ++ f.rewrite s') := by
  obtain ⟨t, ht, rfl, rfl⟩ := hashed?_eq_some_iff.1 h
  rcases v with - | ⟨c, v⟩
  · rw [List.nil_append] at ht
    subst ht
    refine ⟨[], t.dropWhile isHexDigit, List.suffix_rfl, rfl, ?_⟩
    rw [List.nil_append, Reader.rewrite_of_none (hhash rfl), hashed?, (hf.digits_rewrite t).1,
      (hf.digits_rewrite t).2, List.nil_append]
  · rw [List.cons_append] at ht
    obtain ⟨rfl, rfl⟩ := List.cons.inj ht
    obtain ⟨htake, v', s', hv', hdrop, hdrop'⟩ := hf.digits_append_rewrite v s
    exact ⟨v', s', hv', hdrop, by rw [List.cons_append, hashed?, htake, hdrop']⟩

/-- A literal in quotes stays if the pass does not replace it behind the hash. -/
theorem Marks.quoted?_rewrite (hf : Marks f) (h : quoted? (c :: (v ++ s)) = some (digits, rest))
    (hhash : ∀ t u, hashed? t = some (digits, u) → f.read? t = none) :
    ∃ v' s', v' <:+ v ∧ rest = v' ++ s' ∧
      quoted? (c :: (v ++ f.rewrite s)) = some (digits, v' ++ f.rewrite s') := by
  obtain ⟨hkey, t, u, ht, hu, hr⟩ := exists_of_quoted?_cons h
  obtain ⟨v₁, s₁, hv₁, ht₁, ht'⟩ := hf.afterCaseless?_rewrite (by decide) ht
  rw [ht₁] at hu
  obtain ⟨v₂, s₂, hv₂, rfl, hu'⟩ := hf.hashed?_rewrite hu fun hnil =>
    hhash s₁ u (by rwa [hnil] at hu)
  obtain ⟨v₃, s₃, hv₃, rfl, hr'⟩ := hf.afterCaseless?_rewrite (by decide) hr
  have hv := hv₃.trans (hv₂.trans ((List.tail_suffix v₁).trans hv₁))
  exact ⟨v₃, s₃, hv, rfl, quoted?_cons hkey ht' hu' hr'⟩

/-- **A literal that begins in front of a text is still read** when the text is
rewritten, if the pass does not replace it behind a hash. -/
theorem Marks.read?_append_rewrite (hf : Marks f) {l : Literal}
    (h : literals.read? (c :: (v ++ s)) = some (l, rest))
    (hhash : l.quoted → ∀ t u, hashed? t = some (l.digits, u) → f.read? t = none) :
    ∃ v' s', v' <:+ v ∧ rest = v' ++ s' ∧
      literals.read? (c :: (v ++ f.rewrite s)) = some (l, v' ++ f.rewrite s') := by
  obtain ⟨quoted, digits⟩ := l
  cases quoted with
  | true =>
    obtain ⟨v', s', hv', hrest, hread⟩ := hf.quoted?_rewrite (read?_quoted_iff.1 h) (hhash rfl)
    exact ⟨v', s', hv', hrest, read?_quoted_iff.2 hread⟩
  | false =>
    obtain ⟨v', s', hv', hrest, hread⟩ := hf.hashed?_rewrite (v := c :: v)
      (read?_hashed_iff.1 h) (fun hnil => absurd hnil (List.cons_ne_nil c v))
    exact ⟨v', s', hv', hrest, read?_hashed_iff.2 hread⟩

/-- **What is read at the front of a text that the pass keeps** is read there
behind the pass, too, if the pass does not replace it behind a hash. -/
theorem Marks.read?_cons_rewrite (hf : Marks f)
    (hhash : ∀ {digits rest}, literals.read? (c :: s) = some (⟨true, digits⟩, rest) →
      ∀ t u, hashed? t = some (digits, u) → f.read? t = none) :
    literals.read? (c :: f.rewrite s) =
      (literals.read? (c :: s)).map fun (l, rest) => (l, f.rewrite rest) := by
  rcases hread : literals.read? (c :: s) with - | ⟨l, rest⟩
  · rcases hread' : literals.read? (c :: f.rewrite s) with - | ⟨l, r⟩
    · rfl
    · obtain ⟨v', s', -, hbefore⟩ := hf.read?_of_read?_rewrite (v := [c]) hread'
      exact absurd (hread.symm.trans hbefore) (by simp)
  · have hkept : l.quoted → ∀ t u, hashed? t = some (l.digits, u) → f.read? t = none := by
      obtain ⟨quoted, digits⟩ := l
      rintro rfl
      exact hhash hread
    obtain ⟨v', s', hv', rfl, hread'⟩ := hf.read?_append_rewrite (v := []) hread hkept
    obtain rfl := List.suffix_nil.1 hv'
    exact hread'

end AnnotatedEquation.ColorLiteral
