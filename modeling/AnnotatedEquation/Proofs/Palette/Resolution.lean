/-
AnnotatedEquation/Proofs/Palette/Resolution.lean

Computations that look up the colors of terms on their way.  They give their
value unless one of the terms has no color, and then they are refused with
the first such term, so that what matters of a computation is its value and
the terms it looks up, in order.

* `guarded` is a value with the failure that may stand in its way;
* `Palette.refusal?` is the failure of a term, and `Palette.firstRefusal?`
  that of the first of some terms.

Main statements: guarded computations go together (`mapM_guarded`,
`InlineMath.renderM_guarded`, `Fragment.paintAll_guarded`), no known term is refused by a palette that is
long enough (`Palette.firstRefusal?_eq_none`), and one that is too short
refuses the first term beyond its end (`Palette.firstRefusal?_order`), also
where terms come again (`Palette.firstRefusal?_eraseDups`).
-/
import AnnotatedEquation.Escape.InlineMath
import AnnotatedEquation.Palette.Basic
import AnnotatedEquation.Proofs.Entries
import AnnotatedEquation.Proofs.Markup.Forest

namespace AnnotatedEquation

variable {α β : Type}

/-! ### Terms, each once -/

/-- Leaving out the copies of an element that gives nothing changes
nothing. -/
theorem findSome?_filter_ne [BEq α] [LawfulBEq α] {f : α → Option β} {a : α} (ha : f a = none)
    (l : List α) : (l.filter fun b => !b == a).findSome? f = l.findSome? f := by
  induction l with
  | nil => rfl
  | cons b l ih =>
    by_cases hb : b == a
    · rw [List.filter_cons_of_neg (by simp [hb]), List.findSome?_cons, eq_of_beq hb, ha, ih]
    · rw [List.filter_cons_of_pos (by simp [hb]), List.findSome?_cons, List.findSome?_cons, ih]

theorem findSome?_eraseDups [BEq α] [LawfulBEq α] (f : α → Option β) (l : List α) :
    l.eraseDups.findSome? f = l.findSome? f := by
  induction hn : l.length using Nat.strongRecOn generalizing l with
  | _ n ih =>
    subst hn
    cases l with
    | nil => rfl
    | cons a l =>
      rw [List.eraseDups_cons, List.findSome?_cons, List.findSome?_cons]
      rcases ha : f a with - | b
      · have hcopies := findSome?_filter_ne ha l
        exact (ih _ (Nat.lt_succ_of_le (List.length_filter_le _ l)) _ rfl).trans hcopies
      · rfl

theorem find?_eraseDups [BEq α] [LawfulBEq α] (f : α → Bool) (l : List α) :
    l.eraseDups.find? f = l.find? f := by
  rw [← List.findSome?_guard, ← List.findSome?_guard, findSome?_eraseDups]

/-! ### Guarded values -/

/-- A value, unless something was refused. -/
def guarded (refusal : Option Failure) (value : α) : Except Failure α :=
  match refusal with
  | none => .ok value
  | some failure => .error failure

@[simp] theorem guarded_none (value : α) : guarded none value = .ok value := rfl

theorem eq_of_guarded_eq_ok {r : Option Failure} {value value' : α}
    (h : guarded r value = .ok value') : value = value' := by
  cases r with
  | none => exact Except.ok.inj h
  | some failure => cases h

theorem exists_guarded_eq_ok_iff {r : Option Failure} {value : α} :
    (∃ v, guarded r value = .ok v) ↔ r = none := by
  cases r <;> simp [guarded]

theorem guarded_eq_error_iff {r : Option Failure} {value : α} {failure : Failure} :
    guarded r value = .error failure ↔ r = some failure := by
  cases r <;> simp [guarded]

theorem guarded_bind_pure (r : Option Failure) (value : α) (f : α → β) :
    (guarded r value >>= fun x => pure (f x)) = guarded r (f value) := by
  cases r <;> rfl

theorem mapM_guarded {f : α → Except Failure β} {r : α → Option Failure} {g : α → β}
    (h : ∀ x, f x = guarded (r x) (g x)) (xs : List α) :
    xs.mapM f = guarded (xs.findSome? r) (xs.map g) := by
  induction xs with
  | nil => rfl
  | cons x xs ih =>
    rw [List.mapM_cons, h, ih, List.findSome?_cons, List.map_cons]
    rcases r x with - | failure
    · exact guarded_bind_pure _ _ _
    · rfl

/-! ### Prose with inline math -/

/-- Prose is refused with the first math in it that is refused, and otherwise
put together as if none could be. -/
theorem InlineMath.renderM_guarded {writeText : Text → Text} {f : Text → Except Failure Text}
    {r : Text → Option Failure} {g : Text → Text} (h : ∀ math, f math = guarded (r math) (g math))
    (m : InlineMath) :
    m.renderM writeText f =
      guarded (m.rest.findSome? fun piece => r piece.1) (m.render writeText g) := by
  have hpiece : ∀ piece : Text × Text,
      (do return (← f piece.1) ++ writeText piece.2 : Except Failure Text) =
        guarded (r piece.1) (g piece.1 ++ writeText piece.2) := by
    intro piece
    rw [h]
    exact guarded_bind_pure _ _ _
  rw [renderM, mapM_guarded hpiece, guarded_bind_pure, ← List.flatMap_def]
  rfl

/-! ### Painted forests -/

open Fragment (writeAll termsAll) in
/-- **Painting a forest** looks up its terms in order, and gives the writing
of the forest unless one is refused. -/
theorem Fragment.paintAll_guarded {choose : Text → Except Failure (Text → Text)}
    {r : Text → Option Failure} {w : Text → Text → Text}
    (h : ∀ term, choose term = guarded (r term) (w term)) (fs : List Fragment) :
    paintAll choose fs = guarded ((termsAll fs).findSome? r) (writeAll w fs) := by
  induction fs using forest_induction with
  | nil => simp [paintAll]
  | plain text fs ih =>
    rw [paintAll, paint, ih, termsAll_plain, writeAll_plain]
    exact guarded_bind_pure _ _ _
  | tagged term body fs ihBody ihRest =>
    rw [paintAll, paint, h, ihBody, ihRest, termsAll_tagged, writeAll_tagged, List.cons_append,
      List.findSome?_cons, List.findSome?_append]
    rcases r term with - | failure
    · rcases (termsAll body).findSome? r with - | failure
      · exact guarded_bind_pure _ _ _
      · rfl
    · rfl

/-! ### Colors of terms -/

namespace Palette

variable (p : Palette) (order : List Text)

/-- The failure of a term that has no color. -/
def refusal? (term : Text) : Option Failure :=
  match p.colorFor order term with
  | .ok _ => none
  | .error failure => some failure

/-- The color of a term, for terms that have one. -/
def color (term : Text) : Text := (p.colorFor order term).toOption.getD []

/-- The failure of the first of some terms that has no color. -/
def firstRefusal? (terms : List Text) : Option Failure := terms.findSome? (p.refusal? order)

theorem colorFor_guarded (term : Text) :
    p.colorFor order term = guarded (p.refusal? order term) (p.color order term) := by
  rw [refusal?, color]
  rcases p.colorFor order term with failure | color <;> rfl

theorem termColors_guarded :
    p.termColors order =
      guarded (p.firstRefusal? order order.eraseDups)
        (order.eraseDups.map fun term => (term, p.color order term)) := by
  refine mapM_guarded (fun term => ?_) _
  rw [colorFor_guarded]
  exact guarded_bind_pure _ _ _

theorem firstRefusal?_append (terms more : List Text) :
    p.firstRefusal? order (terms ++ more) =
      (p.firstRefusal? order terms).or (p.firstRefusal? order more) :=
  List.findSome?_append

/-- Terms that come again change nothing about the first refusal. -/
theorem firstRefusal?_eraseDups (terms : List Text) :
    p.firstRefusal? order terms.eraseDups = p.firstRefusal? order terms :=
  findSome?_eraseDups _ _

variable {p order}

theorem refusal?_of_not_mem {term : Text} (h : term ∉ order) :
    p.refusal? order term = some (.unknownTerm term) := by
  rw [refusal?, colorFor, List.idxOf?_eq_none_iff.2 h]

theorem refusal?_of_mem {term : Text} (h : term ∈ order) :
    p.refusal? order term = none ∨
      ∃ index, p.refusal? order term = some (.paletteTooShort term index p.name p.size) := by
  obtain ⟨index, hindex⟩ := Option.isSome_iff_exists.1 (List.isSome_idxOf?.2 h)
  rw [refusal?, colorFor, hindex]
  rcases hcolor : p.colors[index]? with - | color
  · exact Or.inr ⟨index, by simp only [hcolor]⟩
  · exact Or.inl (by simp only [hcolor])

theorem refusal?_eq_none_iff {term : Text} :
    p.refusal? order term = none ↔ ∃ color, p.colorFor order term = .ok color := by
  rw [refusal?]
  rcases p.colorFor order term with failure | color <;> simp

/-- No term is refused exactly if all of them have colors. -/
theorem firstRefusal?_eq_none_iff {terms : List Text} :
    p.firstRefusal? order terms = none ↔
      ∀ term ∈ terms, ∃ color, p.colorFor order term = .ok color := by
  rw [firstRefusal?, List.findSome?_eq_none_iff]
  exact forall₂_congr fun _ _ => refusal?_eq_none_iff

theorem mem_of_colorFor {term color : Text} (h : p.colorFor order term = .ok color) :
    term ∈ order := by
  by_contra hterm
  have hrefusal := refusal?_eq_none_iff.2 ⟨color, h⟩
  rw [refusal?_of_not_mem hterm] at hrefusal
  cases hrefusal

/-- The color of a term is one of the colors of the palette. -/
theorem mem_colors_of_colorFor {term color : Text} (h : p.colorFor order term = .ok color) :
    p.color order term = color ∧ color ∈ p.colors := by
  refine ⟨by rw [Palette.color, h]; rfl, ?_⟩
  rw [colorFor] at h
  split at h
  · cases h
  · next index _ =>
    split at h
    · cases h
    · next hcolor =>
      obtain rfl := Except.ok.inj h
      exact List.mem_of_getElem? hcolor

/-- What holds of the colors of the palette holds of those of the terms. -/
theorem forall_color {P : Text → Prop} (hcolors : ∀ color ∈ p.colors, P color) {terms : List Text}
    (h : p.firstRefusal? order terms = none) : ∀ term ∈ terms, P (p.color order term) := by
  intro term hterm
  obtain ⟨color, hcolor⟩ := firstRefusal?_eq_none_iff.1 h term hterm
  obtain ⟨heq, hmem⟩ := mem_colors_of_colorFor hcolor
  rw [heq]
  exact hcolors color hmem

/-- If the terms of the order have colors, then exactly the known terms
have. -/
theorem firstRefusal?_eq_none_iff_mem {terms : List Text} (h : p.firstRefusal? order order = none) :
    p.firstRefusal? order terms = none ↔ ∀ term ∈ terms, term ∈ order := by
  rw [firstRefusal?_eq_none_iff]
  refine forall₂_congr fun term _ => ⟨fun ⟨_, hcolor⟩ => mem_of_colorFor hcolor, fun hterm => ?_⟩
  exact firstRefusal?_eq_none_iff.1 h term hterm

/-- Known terms change nothing about the first refusal behind the term
order. -/
theorem firstRefusal?_order_append {terms : List Text} (hterms : ∀ term ∈ terms, term ∈ order)
    (more : List Text) :
    p.firstRefusal? order (order ++ (terms ++ more)) = p.firstRefusal? order (order ++ more) := by
  rw [firstRefusal?_append, firstRefusal?_append, firstRefusal?_append]
  rcases h : p.firstRefusal? order order with - | failure
  · rw [(firstRefusal?_eq_none_iff_mem h).2 hterms, Option.none_or]
  · rfl

/-- **A palette that is long enough refuses no term of the order.** -/
theorem firstRefusal?_eq_none {terms : List Text} (hsize : order.length ≤ p.size)
    (hterms : ∀ term ∈ terms, term ∈ order) : p.firstRefusal? order terms = none := by
  rw [firstRefusal?, List.findSome?_eq_none_iff]
  intro term hterm
  obtain ⟨index, hindex⟩ := Option.isSome_iff_exists.1 (List.isSome_idxOf?.2 (hterms term hterm))
  obtain ⟨hlt, -⟩ := List.idxOf?_eq_some_iff.1 hindex
  have hcolors : index < p.colors.length := Nat.lt_of_lt_of_le hlt hsize
  have hcolor : p.colors[index]? = some p.colors[index] := List.getElem?_eq_getElem hcolors
  rw [refusal?, colorFor, hindex]
  simp only [hcolor]

theorem guarded_eq_ok {terms : List Text} (hsize : order.length ≤ p.size)
    (hterms : ∀ term ∈ terms, term ∈ order) (value : α) :
    guarded (p.firstRefusal? order terms) value = .ok value := by
  rw [firstRefusal?_eq_none hsize hterms, guarded_none]

theorem refusal?_getElem (hnodup : order.Nodup) {i : Nat} (hi : i < order.length) :
    p.refusal? order order[i] =
      if i < p.size then none else some (.paletteTooShort order[i] i p.name p.size) := by
  have hindex : order.idxOf? order[i] = some i := by
    refine List.idxOf?_eq_some_iff.2 ⟨hi, rfl, fun j hj heq => ?_⟩
    exact Nat.ne_of_lt hj ((List.Nodup.getElem_inj_iff hnodup).1 heq)
  rw [refusal?, colorFor, hindex]
  by_cases hsize : i < p.size
  · have hcolors : i < p.colors.length := hsize
    have hcolor : p.colors[i]? = some p.colors[i] := List.getElem?_eq_getElem hcolors
    simp only [hcolor, if_pos hsize]
  · have hcolor : p.colors[i]? = none := List.getElem?_eq_none (Nat.le_of_not_lt hsize)
    simp only [hcolor, if_neg hsize]

/-- **A palette that is too short refuses the first term beyond its end.** -/
theorem firstRefusal?_order (hnodup : order.Nodup) (h : p.size < order.length) :
    p.firstRefusal? order order =
      some (.paletteTooShort order[p.size] p.size p.name p.size) := by
  -- the terms before that one have the colors of the palette
  have hfirst : p.firstRefusal? order (order.take p.size) = none := by
    rw [firstRefusal?, List.findSome?_eq_none_iff]
    intro term hterm
    obtain ⟨i, hi, rfl⟩ := List.mem_take_iff_getElem.1 hterm
    rw [refusal?_getElem hnodup, if_pos (by omega)]
  have hnext : p.refusal? order order[p.size] =
      some (.paletteTooShort order[p.size] p.size p.name p.size) := by
    rw [refusal?_getElem hnodup h, if_neg (Nat.lt_irrefl _)]
  have horder : order.take p.size ++ order[p.size] :: order.drop (p.size + 1) = order := by
    rw [← List.drop_eq_getElem_cons h, List.take_append_drop]
  calc p.firstRefusal? order order
      = p.firstRefusal? order (order.take p.size ++ order[p.size] :: order.drop (p.size + 1)) := by
        rw [horder]
    _ = some (.paletteTooShort order[p.size] p.size p.name p.size) := by
        rw [firstRefusal?_append, hfirst, Option.none_or, firstRefusal?, List.findSome?_cons, hnext]

end Palette

end AnnotatedEquation
