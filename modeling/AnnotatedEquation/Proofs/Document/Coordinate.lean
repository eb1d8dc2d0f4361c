/-
AnnotatedEquation/Proofs/Document/Coordinate.lean

The commands that drop anchors into the equation of the slides, found again
in its text from left to right.

* `Beamer.afterCoordinate?` recognises a command at the front of a text,
  with any number in it;
* `Beamer.dropCoordinates` deletes all commands of a text.

Main statement: without its commands, the anchored writing of a forest is the
colored one, if the author wrote no beginning of a command
(`Beamer.dropCoordinates_writeAllFrom`).
-/
import AnnotatedEquation.Proofs.Document.Bare

namespace AnnotatedEquation.Beamer

open Fragment (EveryAll writeAll writeAllFrom termsAll)

variable {s u v rest : Text} {fs : List Fragment} {n : Nat} {c : Char}

/-! ### Commands that drop anchors -/

/-- What tells that a picture of the document begins. -/
def pictureStart : Text := "\\tikz[baseline".toList

/-- What follows a command that drops an anchor, in a text that begins with
one. -/
def afterCoordinate? (s : Text) : Option Text := do
  let s ← Text.after? coordinateHead s
  if s.takeWhile Char.isDigit = [] then none
  else Text.after? [')', ';'] (s.dropWhile Char.isDigit)

theorem length_afterCoordinate? (h : afterCoordinate? s = some rest) : rest.length < s.length := by
  simp only [afterCoordinate?, Option.bind_eq_bind, Option.bind_eq_some_iff] at h
  obtain ⟨t, ht, h⟩ := h
  obtain rfl := Text.after?_eq_some_iff.1 ht
  split at h
  · cases h
  · have hdrop := Text.after?_eq_some_iff.1 h
    have hle := (List.dropWhile_suffix (l := t) Char.isDigit).length_le
    rw [hdrop] at hle
    simp only [List.length_append, List.length_cons] at hle ⊢
    omega

/-- The text without the commands that drop anchors. -/
def dropCoordinates : Text → Text
  | [] => []
  | c :: s =>
    match _h : afterCoordinate? (c :: s) with
    | some rest => dropCoordinates rest
    | none => c :: dropCoordinates s
termination_by s => s.length
decreasing_by
  · exact length_afterCoordinate? _h
  · simp

@[simp] theorem dropCoordinates_nil : dropCoordinates [] = [] := by rw [dropCoordinates]

theorem dropCoordinates_of_some (h : afterCoordinate? s = some rest) :
    dropCoordinates s = dropCoordinates rest := by
  cases s with
  | nil => exact absurd (length_afterCoordinate? h) (by simp)
  | cons c s =>
    rw [dropCoordinates]
    split <;> simp_all

theorem dropCoordinates_cons (h : afterCoordinate? (c :: s) = none) :
    dropCoordinates (c :: s) = c :: dropCoordinates s := by
  rw [dropCoordinates]
  split <;> simp_all

/-! ### Where a command stands -/

theorem afterCoordinate?_eq_none (h : ¬ pictureStart <+: s) : afterCoordinate? s = none := by
  have hhead : pictureStart <+: coordinateHead := by decide
  have hafter : Text.after? coordinateHead s = none :=
    Text.after?_eq_none_iff.2 fun hs => h (hhead.trans hs)
  rw [afterCoordinate?, hafter]
  rfl

/-- A stretch of text in which no picture begins stays as it is. -/
theorem dropCoordinates_append (h : ∀ w, w <:+ u → w ≠ [] → ¬ pictureStart <+: w ++ v) :
    dropCoordinates (u ++ v) = u ++ dropCoordinates v := by
  induction u with
  | nil => rfl
  | cons c u ih =>
    have hfront : afterCoordinate? (c :: (u ++ v)) = none :=
      afterCoordinate?_eq_none (h (c :: u) List.suffix_rfl (by simp))
    have hrest := ih fun w hw => h w (hw.trans (List.suffix_cons c u))
    rw [List.cons_append, dropCoordinates_cons hfront, hrest, List.cons_append]

theorem dropCoordinates_append_of_bars (h : Text.Bars pictureStart u) :
    dropCoordinates (u ++ v) = u ++ dropCoordinates v :=
  dropCoordinates_append fun _ hw hne => (h.of_suffix hw).not_prefix_append hne

theorem afterCoordinate?_coordinate (n : Nat) (v : Text) :
    afterCoordinate? (coordinate n ++ v) = some v := by
  have hdigits : ∀ c ∈ Text.ofNat n, c.isDigit = true := fun c hc =>
    Nat.isDigit_of_mem_toDigits (by decide) (by decide) hc
  have hcoordinate : coordinate n ++ v = coordinateHead ++ (Text.ofNat n ++ ([')', ';'] ++ v)) := by
    rw [coordinate_eq, List.append_assoc, List.append_assoc]
  have hafter : Text.after? coordinateHead (coordinate n ++ v) =
      some (Text.ofNat n ++ ([')', ';'] ++ v)) := by
    rw [hcoordinate, Text.after?_append]
  have htake : (Text.ofNat n ++ ([')', ';'] ++ v)).takeWhile Char.isDigit = Text.ofNat n := by
    rw [List.takeWhile_append_of_pos hdigits]
    simp
  have hdrop : (Text.ofNat n ++ ([')', ';'] ++ v)).dropWhile Char.isDigit = [')', ';'] ++ v := by
    rw [List.dropWhile_append_of_pos hdigits]
    simp
  have hne : Text.ofNat n ≠ [] := Nat.toDigits_ne_nil
  rw [afterCoordinate?, hafter, Option.bind_eq_bind, Option.bind_some, htake, if_neg hne, hdrop,
    Text.after?_append]

/-- The end of a piece stays as it is, and the command behind it goes. -/
theorem dropCoordinates_coordinate (n : Nat) (v : Text) :
    dropCoordinates ('}' :: (coordinate n ++ v)) = '}' :: dropCoordinates v := by
  have hbrace : ¬ pictureStart <+: '}' :: (coordinate n ++ v) := fun h =>
    absurd (List.cons_prefix_cons.1 h).1 (by decide)
  rw [dropCoordinates_cons (afterCoordinate?_eq_none hbrace),
    dropCoordinates_of_some (afterCoordinate?_coordinate n v)]

/-! ### Anchored equations -/

theorem halts_pictureStart : Fragment.Halts pictureStart anchored := by
  refine Fragment.halts_of_front (u := Latex.coloredStart) (by decide) (by decide) ?_
  intro n term inner
  exact ⟨_, (anchored_eq n term inner).symm⟩

/-- No picture begins in what stands before the content of a colored
piece. -/
theorem bars_header {term : Text} (hname : Mark.IsTermName term) :
    Text.Bars pictureStart (Latex.coloredStart ++ term ++ ['}', '{']) := by
  have hbracket : '[' ∉ term := fun hc => hname.2 _ hc (by simp)
  have hstart : Text.Bars pictureStart Latex.coloredStart := by decide
  have hterm : Text.Bars pictureStart (term ++ ['}'] ++ ['{']) := by
    refine Text.bars_concat (by decide) fun hin => ?_
    have hmem : '[' ∈ term ++ ['}'] ++ ['{'] := hin.mem (by decide)
    simp [hbracket] at hmem
  simpa using hstart.append hterm

/-- **Without the commands that drop anchors, the anchored writing of a forest
is the colored one**, if the author wrote no beginning of a picture. -/
theorem dropCoordinates_writeAllFrom (hfs : EveryAll (fun term _ => Mark.IsTermName term) fs)
    (hclean : ¬ pictureStart <:+: writeAll Mark.write fs) (n : Nat)
    (hv : Text.Stops pictureStart v) :
    dropCoordinates (writeAllFrom anchored n fs ++ v) =
      writeAll (fun term => Latex.colored (colorName term)) fs ++ dropCoordinates v := by
  induction fs using Fragment.forest_induction generalizing n v with
  | nil => simp
  | plain text fs ih =>
    rw [Fragment.writeAll_plain] at hclean
    have hrest := ih (Fragment.everyAll_plain.1 hfs)
      (fun h => hclean (h.trans (List.suffix_append _ _).isInfix)) n hv
    have htext : dropCoordinates (text ++ (writeAllFrom anchored n fs ++ v)) =
        text ++ dropCoordinates (writeAllFrom anchored n fs ++ v) :=
      dropCoordinates_append fun w hw hne =>
        Fragment.not_prefix_writeAllFrom_append halts_pictureStart hclean hw hne hv
    rw [Fragment.writeAllFrom_plain, Fragment.writeAll_plain, List.append_assoc, htext, hrest,
      List.append_assoc]
  | tagged term body fs ihBody ihRest =>
    obtain ⟨⟨hname, hbody⟩, hrest⟩ := Fragment.everyAll_tagged.1 hfs
    obtain ⟨hcleanBody, hcleanRest⟩ := Mark.not_infix_of_tagged hclean
    have hrest' := ihRest hrest hcleanRest (n + 1 + (termsAll body).length) hv
    rw [Fragment.writeAllFrom_tagged, Fragment.writeAll_tagged, anchored_eq, Latex.colored_eq]
    -- what stands behind the content of the piece
    generalize hback : writeAllFrom anchored (n + 1 + (termsAll body).length) fs ++ v = back
    have hinner := ihBody hbody hcleanBody (n + 1) (v := '}' :: (coordinate n ++ back))
      (Text.stops_cons.2 (by decide))
    have hparts : ∀ (a b d e f g h : Text),
        a ++ (b ++ (d ++ (e ++ (f ++ g)))) ++ h ++ v =
          (a ++ b ++ d) ++ (e ++ (f ++ (g ++ (h ++ v)))) := by
      intro a b d e f g h
      simp only [List.append_assoc]
    rw [hparts, hback, dropCoordinates_append_of_bars (bars_header hname), List.singleton_append,
      hinner, dropCoordinates_coordinate, ← hback, hrest']
    simp only [List.append_assoc, List.cons_append, List.nil_append]

end AnnotatedEquation.Beamer
