/-
AnnotatedEquation/Proofs/Text/Occurrence.lean

Where a pattern occurs in a text that is put together from parts.  Whether
an occurrence can lie across the seam of two parts is told from the pattern
and one of the parts alone:

* a part `Stops` the pattern if no occurrence that begins before the part
  runs into it;
* a part `Bars` the pattern if no occurrence begins in it, whatever follows;
* a part that does both `Divides` what stands before it from what stands
  behind it.

Main statements: the pattern occurs in the whole exactly where it occurs in
one of the parts (`infix_append_of_stops`, `infix_append_of_bars`), also for
texts between fixed parts (`not_infix_fill`) and for lines put together
(`infix_unlines_iff`, `infix_joinWith_iff`), and a text is cut where the
pattern first occurs (`cutAt?_eq_some_iff`).
-/
import AnnotatedEquation.Text.Basic
import Mathlib.Data.List.Infix

namespace AnnotatedEquation.Text

variable {p s u v w : Text} {c : Char}

/-! ### Characters of a text -/

-- The text is gone through, and not all characters there are.
instance (priority := high) decidableForallMem {P : Char → Prop} [DecidablePred P] {s : Text} :
    Decidable (∀ c ∈ s, P c) := List.decidableBAll P s

instance (priority := high) decidableForallMemOption {P : Char → Prop} [DecidablePred P]
    {o : Option Char} : Decidable (∀ c ∈ o, P c) := Option.decidableForallMem o

/-! ### Seams -/

/-- The text does not begin with a character that stands inside the
pattern, so that no occurrence runs into it. -/
def Stops (p v : Text) : Prop := ∀ c ∈ v.head?, c ∉ p.tail

instance : Decidable (Stops p v) := inferInstanceAs (Decidable (∀ _ ∈ v.head?, _))

@[simp] theorem stops_nil : Stops p [] := by simp [Stops]

@[simp] theorem stops_cons : Stops p (c :: v) ↔ c ∉ p.tail := by simp [Stops]

/-- A beginning of `u ++ v` ends in `u`, or runs on into `v`. -/
theorem prefix_append_cases (h : p <+: u ++ v) :
    p <+: u ∨ ∃ c q, p = u ++ c :: q ∧ c :: q <+: v := by
  rcases List.prefix_or_prefix_of_prefix h (List.prefix_append u v) with h' | ⟨q, rfl⟩
  · exact Or.inl h'
  · cases q with
    | nil => exact Or.inl (by simp)
    | cons c q => exact Or.inr ⟨c, q, rfl, (List.prefix_append_right_inj u).1 h⟩

theorem prefix_of_stops (hv : Stops p v) (hu : u ≠ []) (h : p <+: u ++ v) : p <+: u := by
  rcases prefix_append_cases h with h' | ⟨c, q, rfl, r, rfl⟩
  · exact h'
  · -- the first character behind the seam would stand inside the pattern
    obtain ⟨a, u, rfl⟩ := List.exists_cons_of_ne_nil hu
    exact absurd hv (by simp)

theorem infix_cons_of_head_ne (hp : p ≠ []) (hc : p.head? ≠ some c) :
    p <:+: c :: s ↔ p <:+: s := by
  rw [List.infix_cons_iff]
  constructor
  · rintro (h | h)
    · obtain ⟨a, p, rfl⟩ := List.exists_cons_of_ne_nil hp
      exact absurd (congrArg some (List.cons_prefix_cons.1 h).1) hc
    · exact h
  · exact Or.inr

theorem infix_append_of_stops (hp : p ≠ []) (hv : Stops p v) :
    p <:+: u ++ v ↔ p <:+: u ∨ p <:+: v := by
  induction u with
  | nil => simp [hp]
  | cons a u ih =>
    rw [List.cons_append, List.infix_cons_iff, ih, List.infix_cons_iff, or_assoc]
    refine or_congr_left ⟨fun h => prefix_of_stops hv (by simp) h, fun h => ?_⟩
    exact h.trans (List.prefix_append _ v)

/-- A character that the pattern does not hold keeps occurrences apart. -/
theorem infix_append_cons_iff (hp : p ≠ []) (hc : c ∉ p) :
    p <:+: u ++ c :: v ↔ p <:+: u ∨ p <:+: v := by
  rw [infix_append_of_stops hp (stops_cons.2 fun h => hc (List.mem_of_mem_tail h)),
    infix_cons_of_head_ne hp fun h => hc (List.mem_of_mem_head? h)]

theorem prefix_append_cons_iff (hc : c ∉ p) : p <+: u ++ c :: v ↔ p <+: u := by
  refine ⟨fun h => ?_, fun h => h.trans (List.prefix_append _ _)⟩
  rcases prefix_append_cases h with h' | ⟨x, q, rfl, hx⟩
  · exact h'
  · exact absurd (List.cons_prefix_cons.1 hx).1 fun e => hc (by simp [e])

/-- A text that ends in another begins in what stands before it, or not. -/
theorem suffix_append_cases {t : Text} (h : t <:+ u ++ v) :
    t <:+ v ∨ ∃ w, w <:+ u ∧ w ≠ [] ∧ t = w ++ v := by
  rcases List.suffix_or_suffix_of_suffix h (List.suffix_append u v) with h' | ⟨w, rfl⟩
  · exact Or.inl h'
  · by_cases hw : w = []
    · exact Or.inl (by simp [hw])
    · exact Or.inr ⟨w, List.suffix_append_self_iff.1 h, hw, rfl⟩

/-! ### Parts in which nothing begins -/

/-- No occurrence of the pattern begins in the text, whatever follows. -/
def Bars (p u : Text) : Prop := ∀ w ∈ u.tails, w ≠ [] → ¬ w <+: p ∧ ¬ p <+: w

instance : Decidable (Bars p u) := inferInstanceAs (Decidable (∀ w ∈ _, _))

theorem Bars.not_prefix_append (h : Bars p u) (hu : u ≠ []) : ¬ p <+: u ++ v := by
  intro hp
  have ⟨h₁, h₂⟩ := h u (by simp) hu
  exact (List.prefix_or_prefix_of_prefix hp (List.prefix_append u v)).elim h₂ h₁

theorem Bars.of_suffix (h : Bars p u) (hw : w <:+ u) : Bars p w := fun t ht =>
  h t ((List.mem_tails t u).2 (((List.mem_tails t w).1 ht).trans hw))

theorem Bars.append (hu : Bars p u) (hv : Bars p v) : Bars p (u ++ v) := by
  intro t ht hne
  rw [List.mem_tails] at ht
  rcases suffix_append_cases ht with ht | ⟨w, hw, hw', rfl⟩
  · exact hv t ((List.mem_tails t v).2 ht) hne
  · obtain ⟨h₁, h₂⟩ := hu w ((List.mem_tails w u).2 hw) hw'
    refine ⟨fun h => h₁ ((List.prefix_append w v).trans h), fun h => ?_⟩
    exact (List.prefix_or_prefix_of_prefix h (List.prefix_append w v)).elim h₂ h₁

theorem bars_nil : Bars p [] := by
  intro w hw hne
  exact absurd (List.suffix_nil.1 ((List.mem_tails w []).1 hw)) hne

/-- A text without the first character of the pattern bars it. -/
theorem bars_of_not_mem (hp : p.head? = some c) (h : c ∉ u) : Bars p u := by
  obtain ⟨q, rfl⟩ := List.head?_eq_some_iff.1 hp
  intro w hw hne
  obtain ⟨a, w, rfl⟩ := List.exists_cons_of_ne_nil hne
  have ha : a ≠ c := by
    rintro rfl
    exact h (((List.mem_tails _ u).1 hw).mem List.mem_cons_self)
  exact ⟨fun hin => ha (List.cons_prefix_cons.1 hin).1,
    fun hin => ha (List.cons_prefix_cons.1 hin).1.symm⟩

/-- A text that bars a pattern bars all that begins with it. -/
theorem Bars.of_isPrefix {q : Text} (h : Bars p u) (hp : p <+: q) : Bars q u := by
  intro w hw hne
  obtain ⟨hout, hin⟩ := h w hw hne
  refine ⟨fun hq => ?_, fun hq => hin (hp.trans hq)⟩
  exact (List.prefix_or_prefix_of_prefix hq hp).elim hout hin

theorem infix_append_of_bars (h : Bars p u) : p <:+: u ++ v ↔ p <:+: v := by
  induction u with
  | nil => simp
  | cons a u ih =>
    rw [List.cons_append, List.infix_cons_iff, ih (h.of_suffix (List.suffix_cons a u))]
    exact or_iff_right (h.not_prefix_append (by simp))

/-- A text that ends in a character that the pattern does not hold bars the
pattern as soon as the pattern does not occur in it. -/
theorem bars_concat (hc : c ∉ p) (h : ¬ p <:+: u ++ [c]) : Bars p (u ++ [c]) := by
  intro w hw hne
  rw [List.mem_tails] at hw
  refine ⟨fun hp => hc ?_, fun hp => h (hp.isInfix.trans hw.isInfix)⟩
  have hlast : w.getLast hne = c := by simpa using hw.getLast hne
  exact hp.mem (hlast ▸ List.getLast_mem hne)

/-! ### Parts that keep occurrences apart -/

/-- No occurrence of the pattern touches the text, wherever it stands. -/
def Parts (p u : Text) : Prop := ∀ s v, p <:+: s ++ (u ++ v) ↔ p <:+: s ∨ p <:+: v

/-- No occurrence of the pattern runs into the text, and none begins in it. -/
def Divides (p u : Text) : Prop := u ≠ [] ∧ Stops p u ∧ Bars p u

instance : Decidable (Divides p u) := inferInstanceAs (Decidable (_ ∧ _))

theorem Divides.parts (h : Divides p u) (hp : p ≠ []) : Parts p u := by
  intro s v
  obtain ⟨hu, hs, hb⟩ := h
  have hstops : Stops p (u ++ v) := by
    obtain ⟨a, u, rfl⟩ := List.exists_cons_of_ne_nil hu
    simpa using hs
  rw [infix_append_of_stops hp hstops, infix_append_of_bars hb]

/-- A text without the pattern between two parts makes a part. -/
theorem Parts.between {x : Text} (hu : Parts p u) (hx : ¬ p <:+: x) (hv : Parts p v) :
    Parts p (u ++ (x ++ v)) := by
  intro s w
  have hmiddle : p <:+: x ++ (v ++ w) ↔ p <:+: w := by simp [hv x w, hx]
  rw [List.append_assoc, hu, List.append_assoc, hmiddle]

/-! ### Texts between fixed parts -/

/-- A first fixed part, and then some texts, each with the next fixed part
behind it. -/
def fill (u : Text) : List Text → List Text → Text
  | x :: xs, part :: parts => fill (u ++ x ++ part) xs parts
  | _, _ => u

/-- No occurrence of the pattern begins in a fixed part, and none runs into
one from the text before it. -/
def Fixed (p u : Text) (parts : List Text) : Prop :=
  Bars p u ∧ ∀ part ∈ parts, Divides p part

instance {parts : List Text} : Decidable (Fixed p u parts) := inferInstanceAs (Decidable (_ ∧ _))

/-- A pattern that the fixed parts keep apart occurs only where it occurs in
one of the texts between them. -/
theorem not_infix_fill {xs parts : List Text} (hp : p ≠ []) (h : Fixed p u parts)
    (hxs : ∀ x ∈ xs, ¬ p <:+: x) : ¬ p <:+: fill u xs parts := by
  obtain ⟨hu, hparts⟩ := h
  -- of what is put together so far we keep that an occurrence lies behind it
  have hbehind : ∀ v, p <:+: u ++ v → p <:+: v := fun v => (infix_append_of_bars hu).1
  clear hu
  induction xs generalizing u parts with
  | nil => exact fun hin => by simpa [hp] using hbehind [] (by simpa [fill] using hin)
  | cons x xs ih =>
    cases parts with
    | nil => exact fun hin => by simpa [hp] using hbehind [] (by simpa [fill] using hin)
    | cons part parts =>
      have hpart := (hparts part List.mem_cons_self).parts hp
      refine ih (fun y hy => hxs y (List.mem_cons_of_mem _ hy))
        (fun q hq => hparts q (List.mem_cons_of_mem _ hq)) fun v hin => ?_
      rw [List.append_assoc, List.append_assoc] at hin
      have hrest := hbehind _ hin
      rw [hpart] at hrest
      exact hrest.resolve_left (hxs x List.mem_cons_self)

/-! ### Lines put together -/

theorem unlines_append (lines more : List Text) :
    unlines (lines ++ more) = unlines lines ++ unlines more := List.flatMap_append

theorem unlines_cons (line : Text) (lines : List Text) :
    unlines (line :: lines) = line ++ '\n' :: unlines lines := by
  simp [unlines]

/-- Lines bar a pattern that begins with no line feed, if each of them does. -/
theorem bars_unlines {lines : List Text} (hn : Bars p ['\n'])
    (h : ∀ line ∈ lines, Bars p line) : Bars p (unlines lines) := by
  induction lines with
  | nil => exact bars_nil
  | cons line lines ih =>
    obtain ⟨hline, hlines⟩ := List.forall_mem_cons.1 h
    rw [unlines_cons, ← List.singleton_append]
    exact hline.append (hn.append (ih hlines))

theorem infix_unlines_iff (hp : p ≠ []) (hn : '\n' ∉ p) {parts : List Text} :
    p <:+: unlines parts ↔ ∃ part ∈ parts, p <:+: part := by
  induction parts with
  | nil => simp [unlines, hp]
  | cons part parts ih =>
    rw [unlines_cons, infix_append_cons_iff hp hn, ih]
    simp

theorem infix_unlines_of_mem {parts : List Text} {part : Text} (h : part ∈ parts) :
    part <:+: unlines parts := by
  obtain ⟨before, after, rfl⟩ := List.append_of_mem h
  exact ⟨unlines before, '\n' :: unlines after, by simp [unlines]⟩

theorem joinWith_cons_cons (glue a b : Text) (parts : List Text) :
    joinWith glue (a :: b :: parts) = a ++ glue ++ joinWith glue (b :: parts) :=
  List.intercalate_cons_cons

@[simp] theorem joinWith_nil (glue : Text) : joinWith glue [] = [] := rfl

@[simp] theorem joinWith_singleton (glue a : Text) : joinWith glue [a] = a :=
  List.intercalate_singleton

theorem joinWith_prefix_append (glue : Text) (parts more : List Text) :
    joinWith glue parts <+: joinWith glue (parts ++ more) := by
  induction parts with
  | nil => exact List.nil_prefix
  | cons part parts ih =>
    cases parts with
    | nil =>
      cases more with
      | nil => exact List.prefix_rfl
      | cons next more =>
        rw [List.singleton_append, joinWith_cons_cons, joinWith_singleton]
        exact ⟨_, (List.append_assoc ..).symm⟩
    | cons next parts =>
      rw [List.cons_append, List.cons_append, joinWith_cons_cons, joinWith_cons_cons]
      exact (List.prefix_append_right_inj _).2 ih

theorem infix_joinWith_iff (hp : p ≠ []) (hc : c ∉ p) {parts : List Text} :
    p <:+: joinWith [c] parts ↔ ∃ part ∈ parts, p <:+: part := by
  induction parts with
  | nil => simp [hp]
  | cons a parts ih =>
    cases parts with
    | nil => simp
    | cons b parts =>
      rw [joinWith_cons_cons, List.append_assoc, List.singleton_append,
        infix_append_cons_iff hp hc, ih]
      simp

/-! ### Wherever a pattern stands -/

/-- Wherever the pattern stands in the text, what begins there has the
property. -/
def Wherever (p : Text) (P : Text → Prop) (s : Text) : Prop := ∀ t, t <:+ s → p <+: t → P t

variable {P : Text → Prop}

theorem Wherever.of_suffix (h : Wherever p P s) (hu : u <:+ s) : Wherever p P u := by
  intro t ht
  exact h t (ht.trans hu)

theorem wherever_nil (hp : p ≠ []) : Wherever p P [] := by
  intro t ht hin
  rw [List.suffix_nil.1 ht, List.prefix_nil] at hin
  exact absurd hin hp

theorem wherever_cons_iff :
    Wherever p P (c :: s) ↔ (p <+: c :: s → P (c :: s)) ∧ Wherever p P s := by
  constructor
  · intro h
    exact ⟨h _ List.suffix_rfl, h.of_suffix (List.suffix_cons c s)⟩
  · rintro ⟨hfront, hrest⟩ t ht hin
    rcases List.suffix_cons_iff.1 ht with rfl | ht
    · exact hfront hin
    · exact hrest t ht hin

/-! ### Cutting at a pattern -/

/-- A text is cut at the occurrence of the pattern before which none
begins. -/
theorem cutAt?_eq_some_iff (hp : p ≠ []) :
    cutAt? p s = some (u, v) ↔
      s = u ++ (p ++ v) ∧ ∀ w, w <:+ u → w ≠ [] → ¬ p <+: w ++ (p ++ v) := by
  induction s generalizing u with
  | nil => simp [cutAt?, hp]
  | cons c s ih =>
    rw [cutAt?]
    rcases h : after? p (c :: s) with - | rest
    · rw [after?_eq_none_iff] at h
      simp only [Option.map_eq_some_iff, Prod.mk.injEq, Prod.exists]
      constructor
      · rintro ⟨u, v, hs, rfl, rfl⟩
        obtain ⟨rfl, hu⟩ := ih.1 hs
        refine ⟨rfl, fun w hw hne => ?_⟩
        rcases List.suffix_cons_iff.1 hw with rfl | hw
        · exact h
        · exact hu w hw hne
      · rintro ⟨hs, hu⟩
        cases u with
        | nil => exact absurd (hs ▸ List.prefix_append p v) h
        | cons a u =>
          obtain ⟨rfl, rfl⟩ := List.cons.inj hs
          exact ⟨u, v, ih.2 ⟨rfl, fun w hw => hu w (hw.trans (List.suffix_cons _ u))⟩, rfl, rfl⟩
    · have hs := after?_eq_some_iff.1 h
      simp only [Option.some.injEq, Prod.mk.injEq]
      constructor
      · rintro ⟨rfl, rfl⟩
        refine ⟨hs, fun w hw hne => absurd (List.suffix_nil.1 hw) hne⟩
      · rintro ⟨hs', hu⟩
        cases u with
        | nil => exact ⟨rfl, List.append_cancel_left (hs.symm.trans hs')⟩
        | cons a u =>
          exact absurd ⟨rest, hs.symm.trans hs'⟩ (hu _ List.suffix_rfl (by simp))

/-- A text is cut at an occurrence behind a stretch that bars the pattern. -/
theorem cutAt?_append_of_bars (hp : p ≠ []) (h : Bars p u) (v : Text) :
    cutAt? p (u ++ (p ++ v)) = some (u, v) :=
  (cutAt?_eq_some_iff hp).2
    ⟨rfl, fun _ hw hne => (h.of_suffix hw).not_prefix_append hne⟩

/-- A text is cut no later than at an occurrence that is known. -/
theorem exists_cutAt?_append (hp : p ≠ []) (u v : Text) :
    ∃ before w, cutAt? p (u ++ (p ++ v)) = some (before, w ++ v) ∧ before <+: u ∧
      w <:+ u ++ p := by
  induction u with
  | nil =>
    obtain ⟨a, q, rfl⟩ := List.exists_cons_of_ne_nil hp
    have hafter : after? (a :: q) (a :: (q ++ v)) = some v := after?_append (a :: q) v
    refine ⟨[], [], ?_, List.nil_prefix, List.nil_suffix⟩
    rw [List.nil_append, List.cons_append, cutAt?, hafter]
    rfl
  | cons c u ih =>
    obtain ⟨before, w, hcut, hbefore, hw⟩ := ih
    rcases hafter : after? p (c :: (u ++ (p ++ v))) with - | rest
    · refine ⟨c :: before, w, ?_, List.cons_prefix_cons.2 ⟨rfl, hbefore⟩,
        hw.trans (List.suffix_cons c _)⟩
      rw [List.cons_append, cutAt?, hafter, hcut]
      rfl
    · -- the pattern is at the front, and what is left of the known occurrence follows
      have hrest := after?_eq_some_iff.1 hafter
      have hfront : p <+: c :: u ++ p :=
        List.prefix_of_prefix_length_le ⟨rest, hrest.symm⟩ ⟨v, by simp⟩ (by simp; omega)
      obtain ⟨w, hw⟩ := hfront
      have hrest' : rest = w ++ v := by
        have : p ++ rest = p ++ (w ++ v) := by
          rw [← hrest, ← List.append_assoc p w v, hw]
          simp
        exact List.append_cancel_left this
      refine ⟨[], w, ?_, List.nil_prefix, ⟨p, hw⟩⟩
      rw [List.cons_append, cutAt?, hafter, hrest']

theorem cutAt?_singleton_eq_some_iff :
    cutAt? [c] s = some (u, v) ↔ s = u ++ c :: v ∧ c ∉ u := by
  rw [cutAt?_eq_some_iff (by simp)]
  refine and_congr_right fun _ => ⟨fun h hc => ?_, fun h w hw hne hc => ?_⟩
  · obtain ⟨a, b, rfl⟩ := List.append_of_mem hc
    exact h (c :: b) (List.suffix_append a _) (by simp) (by simp)
  · obtain ⟨a, w, rfl⟩ := List.exists_cons_of_ne_nil hne
    have ha : c = a := (List.cons_prefix_cons.1 hc).1
    exact h (hw.mem (by simp [ha]))

end AnnotatedEquation.Text
