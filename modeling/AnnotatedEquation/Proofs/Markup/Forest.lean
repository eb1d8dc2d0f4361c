/-
AnnotatedEquation/Proofs/Markup/Forest.lean

Forests of tagged pieces, apart from the texts that they come from.

* `Fragment.forest_induction` is the induction over a forest: plain text in
  front, or a tagged piece in front with a forest inside it;
* `Fragment.writeAllFrom` is a writing that numbers the tagged pieces in the
  order in which they open;
* `Fragment.tidyAll` puts neighbouring plain texts together and leaves empty
  ones out.

Main statements: no writing and no list of terms tells a forest from its
tidy form (`writeAllFrom_tidyAll`, `termsAll_tidyAll`), and an occurrence
that begins before a forest sees its leading plain text alone
(`prefix_leading_of_prefix`).  A pattern occurs in one writing of a forest if
it occurs in another that keeps its occurrences apart
(`infix_writeAllFrom_congr`).
-/
import AnnotatedEquation.Markup.Fragment
import AnnotatedEquation.Proofs.Text.Occurrence

namespace AnnotatedEquation.Fragment

variable {p u v text term : Text} {f : Fragment} {fs gs body : List Fragment} {n : Nat}

/-! ### Induction over a forest -/

/-- The induction over a forest, from its front and into its pieces. -/
@[elab_as_elim]
theorem forest_induction {motive : List Fragment → Prop} (nil : motive [])
    (plain : ∀ text fs, motive fs → motive (plain text :: fs))
    (tagged : ∀ term body fs, motive body → motive fs → motive (tagged term body :: fs)) :
    ∀ fs, motive fs
  | [] => nil
  | .plain text :: fs => plain text fs (forest_induction nil plain tagged fs)
  | .tagged term body :: fs =>
    tagged term body fs (forest_induction nil plain tagged body)
      (forest_induction nil plain tagged fs)

mutual

/-- Every tagged piece of a fragment has a property, told of its term and the
forest inside it. -/
def Every (P : Text → List Fragment → Prop) : Fragment → Prop
  | plain _ => True
  | tagged term body => P term body ∧ EveryAll P body

/-- Every tagged piece of a forest has a property. -/
def EveryAll (P : Text → List Fragment → Prop) : List Fragment → Prop
  | [] => True
  | f :: fs => Every P f ∧ EveryAll P fs

end

variable {P Q : Text → List Fragment → Prop}

@[simp] theorem everyAll_nil : EveryAll P [] := by simp [EveryAll]

@[simp] theorem everyAll_plain : EveryAll P (plain text :: fs) ↔ EveryAll P fs := by
  simp [EveryAll, Every]

@[simp] theorem everyAll_tagged :
    EveryAll P (tagged term body :: fs) ↔ (P term body ∧ EveryAll P body) ∧ EveryAll P fs := by
  simp [EveryAll, Every]

theorem EveryAll.and (hP : EveryAll P fs) (hQ : EveryAll Q fs) :
    EveryAll (fun term body => P term body ∧ Q term body) fs := by
  induction fs using forest_induction with
  | nil => simp
  | plain text fs ih => exact everyAll_plain.2 (ih (everyAll_plain.1 hP) (everyAll_plain.1 hQ))
  | tagged term body fs ihb ih =>
    obtain ⟨⟨h₁, h₂⟩, h₃⟩ := everyAll_tagged.1 hP
    obtain ⟨⟨k₁, k₂⟩, k₃⟩ := everyAll_tagged.1 hQ
    exact everyAll_tagged.2 ⟨⟨⟨h₁, k₁⟩, ihb h₂ k₂⟩, ih h₃ k₃⟩

theorem EveryAll.mono (hP : EveryAll P fs) (h : ∀ term body, P term body → Q term body) :
    EveryAll Q fs := by
  induction fs using forest_induction with
  | nil => simp
  | plain text fs ih => exact everyAll_plain.2 (ih (everyAll_plain.1 hP))
  | tagged term body fs ihb ih =>
    obtain ⟨⟨h₁, h₂⟩, h₃⟩ := everyAll_tagged.1 hP
    exact everyAll_tagged.2 ⟨⟨h _ _ h₁, ihb h₂⟩, ih h₃⟩

theorem everyAll_append : EveryAll P (fs ++ gs) ↔ EveryAll P fs ∧ EveryAll P gs := by
  induction fs with
  | nil => simp
  | cons f fs ih => simp only [List.cons_append, EveryAll, ih, and_assoc]

/-! ### Terms and writings -/

@[simp] theorem termsAll_nil : termsAll [] = [] := by simp [termsAll]

@[simp] theorem termsAll_plain : termsAll (plain text :: fs) = termsAll fs := by
  simp [termsAll, terms]

@[simp] theorem termsAll_tagged :
    termsAll (tagged term body :: fs) = term :: termsAll body ++ termsAll fs := by
  simp [termsAll, terms]

theorem termsAll_append (fs gs : List Fragment) :
    termsAll (fs ++ gs) = termsAll fs ++ termsAll gs := by
  induction fs with
  | nil => simp
  | cons f fs ih => simp only [List.cons_append, termsAll, ih, List.append_assoc]

theorem everyAll_iff_forall_mem_terms {Q : Text → Prop} :
    EveryAll (fun term _ => Q term) fs ↔ ∀ term ∈ termsAll fs, Q term := by
  induction fs using forest_induction with
  | nil => simp
  | plain text fs ih => simpa using ih
  | tagged term body fs ihb ih =>
    rw [everyAll_tagged, ihb, ih, termsAll_tagged]
    simp only [List.cons_append, List.mem_cons, List.mem_append, or_imp, forall_and, forall_eq,
      and_assoc]

mutual

/-- The fragment as text, for a writing that is told the number of the
tagged piece, counted from `n` in the order in which the pieces open. -/
def writeFrom (w : Nat → Text → Text → Text) (n : Nat) : Fragment → Text
  | plain text => text
  | tagged term body => w n term (writeAllFrom w (n + 1) body)

/-- A forest as text, for a writing that is told the numbers of the tagged
pieces. -/
def writeAllFrom (w : Nat → Text → Text → Text) (n : Nat) : List Fragment → Text
  | [] => []
  | f :: fs => writeFrom w n f ++ writeAllFrom w (n + (terms f).length) fs

end

variable {w : Nat → Text → Text → Text}

@[simp] theorem writeAllFrom_nil : writeAllFrom w n [] = [] := by simp [writeAllFrom]

@[simp] theorem writeAllFrom_plain :
    writeAllFrom w n (plain text :: fs) = text ++ writeAllFrom w n fs := by
  simp [writeAllFrom, writeFrom, terms]

@[simp] theorem writeAllFrom_tagged :
    writeAllFrom w n (tagged term body :: fs) =
      w n term (writeAllFrom w (n + 1) body)
        ++ writeAllFrom w (n + 1 + (termsAll body).length) fs := by
  simp [writeAllFrom, writeFrom, terms, Nat.add_comm, Nat.add_assoc]

theorem writeAll_eq_writeAllFrom (w : Text → Text → Text) (n : Nat) (fs : List Fragment) :
    writeAll w fs = writeAllFrom (fun _ => w) n fs := by
  induction fs using forest_induction generalizing n with
  | nil => simp [writeAll]
  | plain text fs ih => simp [writeAll, write, ← ih]
  | tagged term body fs ihb ih => simp [writeAll, write, ← ih, ← ihb]

@[simp] theorem writeAll_nil {w : Text → Text → Text} : writeAll w [] = [] := by simp [writeAll]

@[simp] theorem writeAll_plain {w : Text → Text → Text} :
    writeAll w (plain text :: fs) = text ++ writeAll w fs := by
  simp [writeAll, write]

@[simp] theorem writeAll_tagged {w : Text → Text → Text} :
    writeAll w (tagged term body :: fs) = w term (writeAll w body) ++ writeAll w fs := by
  simp [writeAll, write]

theorem writeAll_append (w : Text → Text → Text) (fs gs : List Fragment) :
    writeAll w (fs ++ gs) = writeAll w fs ++ writeAll w gs := by
  induction fs with
  | nil => simp
  | cons f fs ih => simp only [List.cons_append, writeAll, ih, List.append_assoc]

/-- Two writings of a forest are the same if they are for its terms. -/
theorem writeAll_congr {w w' : Text → Text → Text}
    (h : ∀ term ∈ termsAll fs, w term = w' term) : writeAll w fs = writeAll w' fs := by
  induction fs using forest_induction with
  | nil => simp
  | plain text fs ih =>
    rw [writeAll_plain, writeAll_plain, ih fun term hterm => h term (by simpa using hterm)]
  | tagged term body fs ihBody ihRest =>
    have hbody := ihBody fun t ht => h t (by simp [ht])
    have hrest := ihRest fun t ht => h t (by simp [ht])
    rw [writeAll_tagged, writeAll_tagged, h term (by simp), hbody, hrest]

/-! ### Plain text in front -/

/-- The plain text in front of the first tagged piece. -/
def leading : List Fragment → Text
  | plain text :: fs => text ++ leading fs
  | _ => []

theorem isPrefix_leading (w : Nat → Text → Text → Text) (n : Nat) (fs : List Fragment) :
    leading fs <+: writeAllFrom w n fs := by
  induction fs with
  | nil => exact List.nil_prefix
  | cons f fs ih =>
    cases f with
    | plain text => simpa [leading] using (List.prefix_append_right_inj text).2 ih
    | tagged term body => exact List.nil_prefix

/-- A writing of tagged pieces that no occurrence of the pattern runs into. -/
def Halts (p : Text) (w : Nat → Text → Text → Text) : Prop :=
  ∀ n term inner rest, Text.Stops p (w n term inner ++ rest)

/-- What all pieces begin with tells that no occurrence runs into them. -/
theorem halts_of_front (hne : u ≠ []) (hstops : Text.Stops p u)
    (hfront : ∀ n term inner, u <+: w n term inner) : Halts p w := by
  intro n term inner rest
  obtain ⟨a, u, rfl⟩ := List.exists_cons_of_ne_nil hne
  obtain ⟨back, hback⟩ := hfront n term inner
  rw [← hback]
  simpa using hstops

/-- **An occurrence that begins before a forest sees its leading plain text
alone**, in every writing that it cannot run into. -/
theorem prefix_leading_of_prefix (hw : Halts p w) (hu : u ≠ []) (hv : Text.Stops p v)
    (h : p <+: u ++ (writeAllFrom w n fs ++ v)) : p <+: u ++ leading fs := by
  induction fs generalizing u n with
  | nil => simpa [leading] using Text.prefix_of_stops hv hu (by simpa using h)
  | cons f fs ih =>
    cases f with
    | plain text =>
      rw [writeAllFrom_plain, List.append_assoc, ← List.append_assoc u] at h
      simpa [leading] using ih (by simp [hu]) h
    | tagged term body =>
      rw [writeAllFrom_tagged, List.append_assoc] at h
      simpa [leading] using Text.prefix_of_stops (hw _ _ _ _) hu h

/-- Before a forest, the pattern begins nowhere in a plain text if it does
not occur in another writing of that text and the forest. -/
theorem not_prefix_writeAllFrom_append {w' : Text → Text → Text} (hw : Halts p w)
    (hclean : ¬ p <:+: text ++ writeAll w' fs) (hu : u <:+ text) (hne : u ≠ [])
    (hv : Text.Stops p v) : ¬ p <+: u ++ (writeAllFrom w n fs ++ v) := by
  intro hprefix
  have hleading := prefix_leading_of_prefix hw hne hv hprefix
  have hother : u ++ leading fs <+: u ++ writeAll w' fs := by
    rw [List.prefix_append_right_inj, writeAll_eq_writeAllFrom w' 0]
    exact isPrefix_leading _ _ _
  obtain ⟨t, rfl⟩ := hu
  apply hclean
  rw [List.append_assoc]
  exact (hleading.trans hother).isInfix.trans (List.suffix_append _ _).isInfix

theorem not_prefix_of_clean {w w' : Text → Text → Text} (hw : Halts p fun _ => w)
    (hclean : ¬ p <:+: text ++ writeAll w' fs) (hu : u <:+ text) (hne : u ≠ [])
    (hv : Text.Stops p v) : ¬ p <+: u ++ (writeAll w fs ++ v) := by
  rw [writeAll_eq_writeAllFrom w 0]
  exact not_prefix_writeAllFrom_append hw hclean hu hne hv

theorem not_prefix_append_writeAll {w w' : Text → Text → Text} (hw : Halts p fun _ => w)
    (hclean : ¬ p <:+: text ++ writeAll w' fs) (hu : u <:+ text) (hne : u ≠ []) :
    ¬ p <+: u ++ writeAll w fs := by
  have h := not_prefix_of_clean hw hclean hu hne Text.stops_nil
  rwa [List.append_nil] at h

/-- Whether an occurrence begins before a forest is the same for all writings
that it cannot run into. -/
theorem prefix_writeAllFrom_congr {w' : Nat → Text → Text → Text} (hw : Halts p w)
    (hw' : Halts p w') (hu : u ≠ []) (n m : Nat) :
    p <+: u ++ writeAllFrom w n fs ↔ p <+: u ++ writeAllFrom w' m fs := by
  have hle : ∀ {w w' : Nat → Text → Text → Text} (n m : Nat), Halts p w →
      p <+: u ++ writeAllFrom w n fs → p <+: u ++ writeAllFrom w' m fs := by
    intro w w' n m hw h
    have h' : p <+: u ++ (writeAllFrom w n fs ++ []) := by simpa using h
    have hleading := prefix_leading_of_prefix hw hu Text.stops_nil h'
    exact hleading.trans ((List.prefix_append_right_inj u).2 (isPrefix_leading w' m fs))
  exact ⟨hle n m hw, hle m n hw'⟩

/-! ### Writings that keep occurrences apart -/

/-- A writing of tagged pieces in which an occurrence of the pattern lies in
the term or in the piece, or outside. -/
def Frames (p : Text) (w : Nat → Text → Text → Text) : Prop :=
  ∀ n term inner u v, p <:+: u ++ (w n term inner ++ v) ↔
    p <:+: u ∨ p <:+: term ∨ p <:+: inner ∨ p <:+: v

/-- What stands around the term and the piece keeps occurrences apart. -/
theorem frames_of_parts {front middle : Text} {back : Nat → Text}
    (hfront : Text.Parts p front) (hmiddle : Text.Parts p middle)
    (hback : ∀ n, Text.Parts p (back n))
    (hw : ∀ n term inner, w n term inner = front ++ (term ++ (middle ++ (inner ++ back n)))) :
    Frames p w := by
  intro n term inner u v
  simp only [hw, List.append_assoc]
  rw [hfront, hmiddle, hback]

theorem frames_of_divides {front middle back : Text} (hp : p ≠ [])
    (h : ∀ u ∈ [front, middle, back], Text.Divides p u)
    (hw : ∀ n term inner, w n term inner = front ++ (term ++ (middle ++ (inner ++ back)))) :
    Frames p w := by
  have hparts : ∀ u ∈ [front, middle, back], Text.Parts p u := by
    intro u hu
    exact (h u hu).parts hp
  have hback : Text.Parts p back := hparts back (by simp)
  exact frames_of_parts (hparts front (by simp)) (hparts middle (by simp)) (fun _ => hback) hw

/-- **Whether the pattern occurs in a forest is the same for all such
writings**, whatever stands before it. -/
theorem infix_writeAllFrom_congr {w' : Nat → Text → Text → Text} (hw : Frames p w)
    (hw' : Frames p w') (u : Text) (n m : Nat) :
    p <:+: u ++ writeAllFrom w n fs ↔ p <:+: u ++ writeAllFrom w' m fs := by
  induction fs using forest_induction generalizing u n m with
  | nil => simp
  | plain text fs ih =>
    simp only [writeAllFrom_plain, ← List.append_assoc]
    exact ih (u ++ text) n m
  | tagged term body fs ihBody ihRest =>
    have hbody := ihBody [] (n + 1) (m + 1)
    have hrest := ihRest [] (n + 1 + (termsAll body).length) (m + 1 + (termsAll body).length)
    simp only [List.nil_append] at hbody hrest
    rw [writeAllFrom_tagged, writeAllFrom_tagged, hw, hw', hbody, hrest]

theorem infix_writeAll_congr {w w' : Text → Text → Text} (hw : Frames p fun _ => w)
    (hw' : Frames p fun _ => w') : p <:+: writeAll w fs ↔ p <:+: writeAll w' fs := by
  have h : p <:+: [] ++ writeAllFrom (fun _ => w) 0 fs ↔
      p <:+: [] ++ writeAllFrom (fun _ => w') 0 fs := infix_writeAllFrom_congr hw hw' [] 0 0
  rw [writeAll_eq_writeAllFrom w 0, writeAll_eq_writeAllFrom w' 0]
  simpa only [List.nil_append] using h

/-! ### Tidy forests -/

/-- A fragment in front of a forest; two plain texts become one, and an empty
one is left out. -/
def before : Fragment → List Fragment → List Fragment
  | plain [], fs => fs
  | plain (c :: s), plain t :: fs => plain (c :: s ++ t) :: fs
  | f, fs => f :: fs

mutual

/-- A fragment with tidy forests inside it. -/
def tidy : Fragment → Fragment
  | plain text => plain text
  | tagged term body => tagged term (tidyAll body)

/-- A forest without empty texts and without neighbouring plain ones. -/
def tidyAll : List Fragment → List Fragment
  | [] => []
  | f :: fs => (tidy f).before (tidyAll fs)

end

@[simp] theorem before_tagged : before (tagged term body) fs = tagged term body :: fs := rfl

@[simp] theorem before_nil_plain : before (plain []) fs = fs := rfl

theorem before_plain_append (u v : Text) (fs : List Fragment) :
    before (plain u) (before (plain v) fs) = before (plain (u ++ v)) fs := by
  cases u with
  | nil => rfl
  | cons a u =>
    cases v with
    | nil => simp
    | cons b v => rcases fs with - | ⟨- | -, fs⟩ <;> simp [before]

@[simp] theorem writeAllFrom_before_plain :
    writeAllFrom w n (before (plain u) fs) = u ++ writeAllFrom w n fs := by
  rcases u with - | ⟨c, u⟩
  · rfl
  · rcases fs with - | ⟨- | -, fs⟩ <;> simp [before]

@[simp] theorem termsAll_before_plain : termsAll (before (plain u) fs) = termsAll fs := by
  rcases u with - | ⟨c, u⟩
  · rfl
  · rcases fs with - | ⟨- | -, fs⟩ <;> simp [before]

@[simp] theorem everyAll_before_plain : EveryAll P (before (plain u) fs) ↔ EveryAll P fs := by
  rcases u with - | ⟨c, u⟩
  · rfl
  · rcases fs with - | ⟨- | -, fs⟩ <;> simp [before]

@[simp] theorem tidyAll_nil : tidyAll [] = [] := by simp [tidyAll]

@[simp] theorem tidyAll_plain : tidyAll (plain text :: fs) = (plain text).before (tidyAll fs) := by
  simp [tidyAll, tidy]

@[simp] theorem tidyAll_tagged :
    tidyAll (tagged term body :: fs) = tagged term (tidyAll body) :: tidyAll fs := by
  simp [tidyAll, tidy]

@[simp] theorem termsAll_tidyAll (fs : List Fragment) : termsAll (tidyAll fs) = termsAll fs := by
  induction fs using forest_induction with
  | nil => simp
  | plain text fs ih => simp [ih]
  | tagged term body fs ihb ih => simp [ih, ihb]

@[simp] theorem writeAllFrom_tidyAll (w : Nat → Text → Text → Text) (n : Nat)
    (fs : List Fragment) : writeAllFrom w n (tidyAll fs) = writeAllFrom w n fs := by
  induction fs using forest_induction generalizing n with
  | nil => simp
  | plain text fs ih => simp [ih]
  | tagged term body fs ihb ih => simp [ih, ihb]

@[simp] theorem writeAll_tidyAll (w : Text → Text → Text) (fs : List Fragment) :
    writeAll w (tidyAll fs) = writeAll w fs := by
  simp [writeAll_eq_writeAllFrom w 0]

end AnnotatedEquation.Fragment
