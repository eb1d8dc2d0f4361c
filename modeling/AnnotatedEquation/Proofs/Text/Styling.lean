/-
AnnotatedEquation/Proofs/Text/Styling.lean

Leaving out the style sequences of a text that is put together from parts.  A
sequence that begins in one part may well end in the next one, as in a name
that ends in an escape character; it cannot if the next part begins with a
character that stands in no sequence.

Main statements: `Text.unstyled_append`, and `Text.suffix_unstyled_append` for
an ending in which no sequence begins.
-/
import AnnotatedEquation.Text.Styling

namespace AnnotatedEquation.Text

variable {c : Char} {s t : Text}

/-- A character that stands in a style sequence behind the escape character. -/
def isInStyle (c : Char) : Bool := c = '[' || isStyleParameter c || isStyleEnd c

theorem afterStyle?_eq_none_of_head_ne (h : c ≠ '\x1b') : afterStyle? (c :: s) = none := by
  rw [afterStyle?, after?, if_neg (Ne.symm h)]
  rfl

/-- A style sequence that begins in a text ends in it, if what follows the text
begins with a character that stands in no sequence. -/
theorem afterStyle?_append (hs : s ≠ []) (ht : ∀ c ∈ t.head?, ¬ isInStyle c) :
    afterStyle? (s ++ t) = (afterStyle? s).map (· ++ t) := by
  have hclass : ∀ c ∈ t.head?, c ≠ '[' ∧ isStyleParameter c = false ∧ isStyleEnd c = false := by
    intro c hc
    have h := ht c hc
    simpa [isInStyle, and_assoc] using h
  obtain ⟨c, s, rfl⟩ := List.exists_cons_of_ne_nil hs
  by_cases hc : c = '\x1b'
  · subst hc
    rcases s with - | ⟨d, s⟩
    -- the escape character is the last one of the text
    · rcases t with - | ⟨d, t⟩
      · rfl
      · have hd : ¬ '[' = d := Ne.symm (hclass d rfl).1
        simp [afterStyle?, after?, hd]
    · by_cases hd : '[' = d
      · subst hd
        simp only [afterStyle?, List.cons_append, after?, if_true, Option.bind_eq_bind,
          Option.bind_some, List.dropWhile_append]
        rcases s.dropWhile isStyleParameter with - | ⟨e, rest⟩
        -- all the rest of the text would be parameters
        · rcases t with - | ⟨e, t⟩
          · rfl
          · obtain ⟨-, hparameter, hend⟩ := hclass e rfl
            simp [hparameter, hend]
        · by_cases he : isStyleEnd e = true <;> simp [he]
      · simp [afterStyle?, after?, hd]
  · rw [List.cons_append, afterStyle?_eq_none_of_head_ne hc, afterStyle?_eq_none_of_head_ne hc,
      Option.map_none]

/-- **Style sequences are left out on both sides of a place**, if the second
side begins with a character that stands in no sequence. -/
theorem unstyled_append (s : Text) (ht : ∀ c ∈ t.head?, ¬ isInStyle c) :
    unstyled (s ++ t) = unstyled s ++ unstyled t := by
  fun_induction unstyled s with
  | case1 => rfl
  | case2 c s rest h ih =>
    have happend : afterStyle? (c :: (s ++ t)) = some (rest ++ t) := by
      rw [← List.cons_append, afterStyle?_append (List.cons_ne_nil c s) ht, h, Option.map_some]
    rw [List.cons_append, unstyled]
    split
    · next rest' h' =>
      obtain rfl := Option.some.inj (happend.symm.trans h')
      exact ih
    · next h' => exact absurd (happend.symm.trans h') (Option.some_ne_none _)
  | case3 c s h ih =>
    have happend : afterStyle? (c :: (s ++ t)) = none := by
      rw [← List.cons_append, afterStyle?_append (List.cons_ne_nil c s) ht, h, Option.map_none]
    rw [List.cons_append, unstyled]
    split
    · next rest' h' => exact absurd (happend.symm.trans h') (Option.some_ne_none _).symm
    · rw [ih, List.cons_append]

theorem unstyled_eq_self (h : '\x1b' ∉ s) : unstyled s = s := by
  induction s with
  | nil => rw [unstyled]
  | cons c s ih =>
    obtain ⟨hc, hs⟩ := not_or.1 (mt List.mem_cons.2 h)
    have hnone : afterStyle? (c :: s) = none := afterStyle?_eq_none_of_head_ne (Ne.symm hc)
    rw [unstyled]
    split
    · next rest h' => exact absurd (hnone.symm.trans h') (Option.some_ne_none _).symm
    · rw [ih hs]

theorem suffix_unstyled_append (s : Text) (ht : ∀ c ∈ t.head?, ¬ isInStyle c) (h : '\x1b' ∉ t) :
    t <:+ unstyled (s ++ t) := by
  rw [unstyled_append s ht, unstyled_eq_self h]
  exact List.suffix_append _ _

end AnnotatedEquation.Text
