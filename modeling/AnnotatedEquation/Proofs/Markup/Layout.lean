/-
AnnotatedEquation/Proofs/Markup/Layout.lean

Forests put one after the other with plain text between them, and forests
without the blanks at their ends.

Main statements: a writing of joined forests joins their writings
(`writeAll_joinAll`), a writing of a trimmed forest is trimmed
(`writeAll_trimAll`), and neither changes the tagged pieces
(`termsAll_joinAll`, `pieces_trimAll`).
-/
import AnnotatedEquation.Proofs.Markup.Forest
import AnnotatedEquation.Proofs.Text.Part

namespace AnnotatedEquation.Fragment

variable {text term : Text} {fs gs body : List Fragment} {P : Text → List Fragment → Prop}

/-! ### Joining -/

/-- Forests one after the other, with plain text between neighbours. -/
def joinAll (glue : Text) (forests : List (List Fragment)) : List Fragment :=
  [plain glue].intercalate forests

theorem joinAll_cons_cons (glue : Text) (fs gs : List Fragment) (forests : List (List Fragment)) :
    joinAll glue (fs :: gs :: forests) = fs ++ plain glue :: joinAll glue (gs :: forests) := by
  simp [joinAll, List.intercalate_cons_cons]

@[simp] theorem joinAll_nil (glue : Text) : joinAll glue [] = [] := rfl

@[simp] theorem joinAll_singleton (glue : Text) (fs : List Fragment) :
    joinAll glue [fs] = fs :=
  List.intercalate_singleton

theorem writeAll_joinAll (w : Text → Text → Text) (glue : Text)
    (forests : List (List Fragment)) :
    writeAll w (joinAll glue forests) = Text.joinWith glue (forests.map (writeAll w)) := by
  induction forests with
  | nil => simp
  | cons fs forests ih =>
    cases forests with
    | nil => simp
    | cons gs forests =>
      rw [joinAll_cons_cons, writeAll_append, writeAll_plain, ih]
      simp [Text.joinWith_cons_cons]

theorem termsAll_joinAll (glue : Text) (forests : List (List Fragment)) :
    termsAll (joinAll glue forests) = forests.flatMap termsAll := by
  induction forests with
  | nil => simp
  | cons fs forests ih =>
    cases forests with
    | nil => simp
    | cons gs forests =>
      rw [joinAll_cons_cons, termsAll_append, termsAll_plain, ih]
      simp

theorem everyAll_joinAll {glue : Text} {forests : List (List Fragment)}
    (h : ∀ fs ∈ forests, EveryAll P fs) : EveryAll P (joinAll glue forests) := by
  induction forests with
  | nil => simp
  | cons fs forests ih =>
    cases forests with
    | nil => simpa using h
    | cons gs forests =>
      rw [joinAll_cons_cons, everyAll_append, everyAll_plain]
      exact ⟨h fs (by simp), ih fun x hx => h x (by simp [hx])⟩

/-! ### Trimming -/

/-- A forest without the blanks at its front. -/
def trimStartAll : List Fragment → List Fragment
  | [] => []
  | plain text :: fs =>
    if Text.trimStart text = [] then trimStartAll fs else plain (Text.trimStart text) :: fs
  | tagged term body :: fs => tagged term body :: fs

/-- A forest without the blanks at its back. -/
def trimEndAll : List Fragment → List Fragment
  | [] => []
  | plain text :: fs =>
    match trimEndAll fs with
    | [] => if Text.trimEnd text = [] then [] else [plain (Text.trimEnd text)]
    | gs => plain text :: gs
  | tagged term body :: fs => tagged term body :: trimEndAll fs

/-- A forest without the blanks at its two ends. -/
def trimAll (fs : List Fragment) : List Fragment := trimEndAll (trimStartAll fs)

/-- A writing of tagged pieces that trimming takes nothing from. -/
def Solid (w : Text → Text → Text) : Prop :=
  ∀ term inner, ∃ a mid b, w term inner = a :: (mid ++ [b]) ∧
    Text.isBlank a = false ∧ Text.isBlank b = false

variable {w : Text → Text → Text}

theorem Solid.ne_nil (hw : Solid w) (term inner : Text) : w term inner ≠ [] := by
  obtain ⟨a, mid, b, h, -, -⟩ := hw term inner
  simp [h]

theorem Solid.trimStart_append (hw : Solid w) (term inner rest : Text) :
    Text.trimStart (w term inner ++ rest) = w term inner ++ rest := by
  obtain ⟨a, mid, b, h, ha, -⟩ := hw term inner
  rw [h, List.cons_append, Text.trimStart_cons ha]

theorem Solid.trimEnd (hw : Solid w) (term inner : Text) :
    Text.trimEnd (w term inner) = w term inner := by
  obtain ⟨a, mid, b, h, -, hb⟩ := hw term inner
  rw [h, ← List.cons_append, Text.trimEnd_concat hb]

theorem writeAll_trimStartAll (hw : Solid w) (fs : List Fragment) :
    writeAll w (trimStartAll fs) = Text.trimStart (writeAll w fs) := by
  induction fs with
  | nil => rfl
  | cons f fs ih =>
    cases f with
    | plain text =>
      rw [trimStartAll, writeAll_plain, Text.trimStart_append]
      split
      · exact ih
      · simp
    | tagged term body =>
      rw [trimStartAll, writeAll_tagged, hw.trimStart_append]

theorem trimEndAll_eq_nil_iff (hw : Solid w) (fs : List Fragment) :
    trimEndAll fs = [] ↔ Text.trimEnd (writeAll w fs) = [] := by
  induction fs with
  | nil => simp [trimEndAll, Text.trimEnd]
  | cons f fs ih =>
    cases f with
    | plain text =>
      rw [trimEndAll, writeAll_plain, Text.trimEnd_append]
      split
      · next h =>
        -- what follows is blank, so it depends on the text alone
        rw [if_pos (ih.1 h)]
        split <;> simp_all
      · next h =>
        rw [if_neg fun h' => h (ih.2 h')]
        exact iff_of_false (by simp) fun h' => h (ih.2 (List.append_eq_nil_iff.1 h').2)
    | tagged term body =>
      rw [trimEndAll, writeAll_tagged, Text.trimEnd_append]
      split <;> simp [hw.trimEnd, hw.ne_nil]

theorem writeAll_trimEndAll (hw : Solid w) (fs : List Fragment) :
    writeAll w (trimEndAll fs) = Text.trimEnd (writeAll w fs) := by
  induction fs with
  | nil => rfl
  | cons f fs ih =>
    have hnil := trimEndAll_eq_nil_iff hw fs
    cases f with
    | plain text =>
      rw [trimEndAll, writeAll_plain, Text.trimEnd_append]
      split
      · next h =>
        rw [if_pos (hnil.1 h)]
        split <;> simp_all
      · next h =>
        -- something is left behind the text, which stays as it is
        rw [if_neg fun h' => h (hnil.2 h'), writeAll_plain, ih]
    | tagged term body =>
      rw [trimEndAll, writeAll_tagged, writeAll_tagged, Text.trimEnd_append, ih]
      split
      · next h => rw [h, hw.trimEnd, List.append_nil]
      · rfl

/-- **Trimming a forest trims every writing of it** that shows no blanks at
the ends of its tagged pieces. -/
theorem writeAll_trimAll (hw : Solid w) (fs : List Fragment) :
    writeAll w (trimAll fs) = Text.trim (writeAll w fs) := by
  rw [trimAll, writeAll_trimEndAll hw, writeAll_trimStartAll hw, Text.trim]

/-! ### The tagged pieces -/

/-- The tagged pieces of a forest that no other piece holds. -/
def pieces : List Fragment → List Fragment
  | [] => []
  | plain _ :: fs => pieces fs
  | tagged term body :: fs => tagged term body :: pieces fs

theorem pieces_trimStartAll (fs : List Fragment) : pieces (trimStartAll fs) = pieces fs := by
  induction fs with
  | nil => rfl
  | cons f fs ih =>
    cases f with
    | plain text =>
      rw [trimStartAll]
      split
      · exact ih
      · rfl
    | tagged term body => rfl

theorem pieces_trimEndAll (fs : List Fragment) : pieces (trimEndAll fs) = pieces fs := by
  induction fs with
  | nil => rfl
  | cons f fs ih =>
    cases f with
    | plain text =>
      rw [trimEndAll, pieces, ← ih]
      split
      · next h =>
        rw [h]
        split <;> rfl
      · rfl
    | tagged term body => rw [trimEndAll, pieces, pieces, ih]

theorem pieces_trimAll (fs : List Fragment) : pieces (trimAll fs) = pieces fs := by
  rw [trimAll, pieces_trimEndAll, pieces_trimStartAll]

theorem termsAll_pieces (fs : List Fragment) : termsAll (pieces fs) = termsAll fs := by
  induction fs with
  | nil => rfl
  | cons f fs ih => cases f <;> simp [pieces, ih]

theorem everyAll_pieces : EveryAll P (pieces fs) ↔ EveryAll P fs := by
  induction fs with
  | nil => rfl
  | cons f fs ih => cases f <;> simp [pieces, ih]

theorem termsAll_trimAll (fs : List Fragment) : termsAll (trimAll fs) = termsAll fs := by
  rw [← termsAll_pieces, pieces_trimAll, termsAll_pieces]

theorem everyAll_trimAll : EveryAll P (trimAll fs) ↔ EveryAll P fs := by
  rw [← everyAll_pieces, pieces_trimAll, everyAll_pieces]

end AnnotatedEquation.Fragment
