/-
AnnotatedEquation/Proofs/Escape/Pairing.lean

Inline math by the places of its delimiters.  `InlineMath.read` goes through a
text once and cuts it at the dollar signs; here the delimiters are numbered by
their places, and the pieces are what stands between these places, taken in
pairs from the left.

* `InlineMath.delimiters` are the places of the delimiters, and
  `InlineMath.between` the pieces that some places pair off;
* `InlineMath.Sealed` tells of a text that a dollar sign behind it is the first
  delimiter.

Main statements: reading pairs off the delimiters (`InlineMath.read_eq_between`),
and a writing of the text that adds no delimiter and escapes none leaves all
math where it is (`InlineMath.read_render`, `InlineMath.length_delimiters_render`).
-/
import AnnotatedEquation.Escape.InlineMath

namespace AnnotatedEquation.InlineMath

variable {escaped : Bool} {s u v m : Text} {c : Char} {start : Nat} {places : List Nat}

/-! ### Delimiters and their places -/

/-- Whether a delimiter stands at a place: a dollar sign not directly behind a
backslash, where `escaped` tells that a backslash stands before the text. -/
def IsDelimiter (escaped : Bool) (s : Text) (i : Nat) : Prop :=
  s[i]? = some '$' ∧ ¬ (match i with | 0 => escaped = true | i + 1 => s[i]? = some '\\')

instance (escaped : Bool) (s : Text) : DecidablePred (IsDelimiter escaped s)
  | 0 => inferInstanceAs (Decidable (_ ∧ ¬ _))
  | _ + 1 => inferInstanceAs (Decidable (_ ∧ ¬ _))

/-- The places of the delimiters. -/
def delimiters (escaped : Bool) (s : Text) : List Nat :=
  (List.range s.length).filter fun i => IsDelimiter escaped s i

/-- The pieces between some places, which open and close math by turns; a last
place without a partner is passed over. -/
def between (s : Text) : (start : Nat) → (places : List Nat) → InlineMath
  | start, i :: j :: places =>
    let more := between s (j + 1) places
    ⟨s.extract start i, (s.extract (i + 1) j, more.first) :: more.rest⟩
  | start, _ => ⟨s.drop start, []⟩

@[simp] theorem delimiters_nil : delimiters escaped [] = [] := rfl

theorem delimiters_cons (escaped : Bool) (c : Char) (s : Text) :
    delimiters escaped (c :: s) =
      (if c = '$' ∧ ¬ escaped then [0] else []) ++ (delimiters (c = '\\') s).map (· + 1) := by
  have hsucc : ∀ i, IsDelimiter escaped (c :: s) (i + 1) ↔ IsDelimiter (c = '\\') s i := by
    intro i
    cases i <;> simp [IsDelimiter]
  have hzero : IsDelimiter escaped (c :: s) 0 ↔ c = '$' ∧ ¬ escaped := by simp [IsDelimiter]
  have hrest : (List.map Nat.succ (List.range s.length)).filter
      (fun i => IsDelimiter escaped (c :: s) i) = (delimiters (c = '\\') s).map (· + 1) := by
    rw [List.filter_map, delimiters]
    congr 1
    refine List.filter_congr fun i _ => ?_
    exact decide_eq_decide.2 (hsucc i)
  rw [delimiters, List.length_cons, List.range_succ_eq_map, List.filter_cons, hrest]
  by_cases h : c = '$' ∧ ¬ escaped
  · rw [if_pos h, if_pos (decide_eq_true (hzero.2 h)), List.singleton_append]
  · rw [if_neg h, if_neg (by simpa using mt hzero.1 h), List.nil_append]

theorem pairwise_delimiters (escaped : Bool) (s : Text) : (delimiters escaped s).Pairwise (· < ·) :=
  List.pairwise_lt_range.filter _

theorem eq_dollar_of_mem_delimiters {i : Nat} (h : i ∈ delimiters escaped s) : s[i]? = some '$' :=
  (of_decide_eq_true (List.mem_filter.1 h).2 : IsDelimiter escaped s i).1

/-! ### Reading by places -/

/-- The pieces between some places, one after the other. -/
def cuts (s : Text) : (start : Nat) → (places : List Nat) → Text × List Text
  | start, [] => (s.drop start, [])
  | start, i :: places =>
    let (piece, pieces) := cuts s (i + 1) places
    (s.extract start i, piece :: pieces)

theorem cuts_cons_succ (c : Char) (s : Text) (start : Nat) (places : List Nat) :
    cuts (c :: s) (start + 1) (places.map (· + 1)) = cuts s start places := by
  induction places generalizing start with
  | nil => simp [cuts]
  | cons i places ih => simp [cuts, ih, List.extract]

/-- A first character that is no delimiter belongs to the first piece. -/
theorem cuts_cons_zero (c : Char) (s : Text) (places : List Nat) :
    cuts (c :: s) 0 (places.map (· + 1)) = (c :: (cuts s 0 places).1, (cuts s 0 places).2) := by
  cases places with
  | nil => simp [cuts]
  | cons i places => simp [cuts, cuts_cons_succ, List.extract]

theorem split_cons (escaped : Bool) (c : Char) (s : Text) :
    split escaped (c :: s) =
      if c = '$' ∧ ¬ escaped then ([], (split (c = '\\') s).1 :: (split (c = '\\') s).2)
      else (c :: (split (c = '\\') s).1, (split (c = '\\') s).2) := rfl

theorem split_eq_cuts (escaped : Bool) (s : Text) :
    split escaped s = cuts s 0 (delimiters escaped s) := by
  induction s generalizing escaped with
  | nil => rfl
  | cons c s ih =>
    rw [split_cons, delimiters_cons, ih]
    by_cases h : c = '$' ∧ ¬ escaped
    · rw [if_pos h, if_pos h, List.singleton_append, cuts, cuts_cons_succ]
      simp [List.extract]
    · rw [if_neg h, if_neg h, List.nil_append, cuts_cons_zero]

/-- A piece goes on at its dollar sign. -/
theorem extract_append_dollar {i : Nat} (hi : s[i]? = some '$') (hstart : start ≤ i) :
    s.extract start i ++ '$' :: s.drop (i + 1) = s.drop start := by
  obtain ⟨hlt, hget⟩ := List.getElem?_eq_some_iff.1 hi
  have hdrop : '$' :: s.drop (i + 1) = (s.drop start).drop (i - start) := by
    rw [List.drop_drop, Nat.add_sub_cancel' hstart, List.drop_eq_getElem_cons hlt, hget]
  rw [hdrop, List.extract, List.take_append_drop]

theorem pairOff_cuts (hdollar : ∀ i ∈ places, s[i]? = some '$') (hplaces : places.Pairwise (· < ·))
    (hstart : ∀ i ∈ places, start ≤ i) :
    pairOff (cuts s start places).1 (cuts s start places).2 = between s start places := by
  fun_induction between s start places with
  | case1 start i j places more ih =>
    obtain ⟨-, hplaces⟩ := List.pairwise_cons.1 hplaces
    obtain ⟨hj, hplaces⟩ := List.pairwise_cons.1 hplaces
    have hmore := ih (fun k hk => hdollar k (by simp [hk])) hplaces hj
    simp only [cuts, pairOff, hmore, more]
  | case2 places start hshort =>
    rcases places with - | ⟨i, - | ⟨j, places⟩⟩
    · rfl
    · -- the partnerless dollar sign goes back to where it was
      simp only [cuts, pairOff]
      rw [extract_append_dollar (hdollar i (by simp)) (hstart i (by simp))]
    · exact (hshort i j places rfl).elim

/-- **Reading pairs off the delimiters.** -/
theorem read_eq_between (s : Text) : read s = between s 0 (delimiters false s) := by
  rw [read, split_eq_cuts]
  exact pairOff_cuts (fun i hi => eq_dollar_of_mem_delimiters hi) (pairwise_delimiters false s)
    fun i _ => Nat.zero_le i

example : delimiters false "\\$1 or $x$, $".toList = [7, 9, 12] ∧
    read "\\$1 or $x$, $".toList = ⟨"\\$1 or ".toList, [(['x'], ", $".toList)]⟩ := by
  decide

/-! ### Texts without delimiters -/

/-- Whether a backslash stands before what follows a text. -/
def behind (escaped : Bool) (u : Text) : Bool := u.foldl (fun _ c => c = '\\') escaped

@[simp] theorem behind_nil : behind escaped [] = escaped := rfl

@[simp] theorem behind_cons : behind escaped (c :: u) = behind (c = '\\') u := rfl

theorem behind_append : behind escaped (u ++ v) = behind (behind escaped u) v := List.foldl_append

theorem behind_false_iff : behind false u = false ↔ u.getLast? ≠ some '\\' := by
  rcases List.eq_nil_or_concat u with rfl | ⟨u, c, rfl⟩
  · simp
  · simp [behind_append]

theorem delimiters_append (escaped : Bool) (u v : Text) :
    delimiters escaped (u ++ v) =
      delimiters escaped u ++ (delimiters (behind escaped u) v).map (· + u.length) := by
  induction u generalizing escaped with
  | nil => simp
  | cons c u ih =>
    have hlength : ∀ i, i + u.length + 1 = i + (c :: u).length := fun i => by simp; omega
    rw [List.cons_append, delimiters_cons, ih, delimiters_cons escaped c u, List.map_append,
      List.map_map, behind_cons, List.append_assoc]
    simp only [Function.comp_def, hlength]

/-- A text without delimiters is one piece. -/
theorem split_append (h : delimiters escaped u = []) (v : Text) :
    split escaped (u ++ v) =
      (u ++ (split (behind escaped u) v).1, (split (behind escaped u) v).2) := by
  induction u generalizing escaped with
  | nil => rfl
  | cons c u ih =>
    rw [delimiters_cons, List.append_eq_nil_iff, List.map_eq_nil_iff] at h
    have hc : ¬ (c = '$' ∧ ¬ escaped) := by
      intro hc
      simp [hc] at h
    rw [List.cons_append, split_cons, if_neg hc, ih h.2]
    rfl

theorem split_of_delimiters (h : delimiters escaped s = []) : split escaped s = (s, []) := by
  simpa [split] using split_append h []

/-- A text without delimiters that does not end in a backslash, so that a dollar
sign behind it is the first delimiter. -/
structure Sealed (u : Text) : Prop where
  clear : delimiters false u = []
  ends : behind false u = false

theorem Sealed.split_append_dollar (h : Sealed u) (v : Text) :
    split false (u ++ '$' :: v) = (u, (split false v).1 :: (split false v).2) := by
  rw [split_append h.clear, h.ends]
  simp [split_cons]

theorem Sealed.delimiters_append_dollar (h : Sealed u) (v : Text) :
    delimiters false (u ++ '$' :: v) =
      u.length :: (delimiters false v).map (· + (u.length + 1)) := by
  rw [delimiters_append, h.clear, h.ends, delimiters_cons]
  simp [Function.comp_def, Nat.add_assoc, Nat.add_comm 1]

/-- A text goes up to its first delimiter. -/
theorem clear_or_sealed (escaped : Bool) (s : Text) :
    delimiters escaped s = [] ∨
      ∃ u v, s = u ++ '$' :: v ∧ delimiters escaped u = [] ∧ behind escaped u = false := by
  induction s generalizing escaped with
  | nil => exact Or.inl rfl
  | cons c s ih =>
    by_cases h : c = '$' ∧ ¬ escaped
    · exact Or.inr ⟨[], s, by simp [h.1], rfl, by simpa using h.2⟩
    · refine (ih (c = '\\')).imp (fun hs => ?_) ?_
      · rw [delimiters_cons, if_neg h, hs]
        rfl
      · rintro ⟨u, v, rfl, hu, hbehind⟩
        refine ⟨c :: u, v, rfl, ?_, hbehind⟩
        rw [delimiters_cons, if_neg h, hu]
        rfl

/-- **A text by its math**: it has no delimiter, or a single one, or it goes on
behind its first math. -/
@[elab_as_elim]
theorem induction {motive : Text → Prop} (clear : ∀ s, delimiters false s = [] → motive s)
    (unclosed : ∀ u v, Sealed u → delimiters false v = [] → motive (u ++ '$' :: v))
    (closed : ∀ u m s, Sealed u → Sealed m → motive s → motive (u ++ '$' :: (m ++ '$' :: s)))
    (s : Text) : motive s := by
  induction hn : s.length using Nat.strongRecOn generalizing s with
  | _ n ih =>
    subst hn
    rcases clear_or_sealed false s with h | ⟨u, v, rfl, hu, hubehind⟩
    · exact clear s h
    · rcases clear_or_sealed false v with h | ⟨m, s, rfl, hm, hmbehind⟩
      · exact unclosed u v ⟨hu, hubehind⟩ h
      · refine closed u m s ⟨hu, hubehind⟩ ⟨hm, hmbehind⟩ (ih s.length ?_ s rfl)
        simp only [List.length_append, List.length_cons]
        omega

theorem read_of_delimiters (h : delimiters false s = []) : read s = ⟨s, []⟩ := by
  simp only [read, split_of_delimiters h, pairOff]

theorem read_unclosed (hu : Sealed u) (hv : delimiters false v = []) :
    read (u ++ '$' :: v) = ⟨u ++ '$' :: v, []⟩ := by
  simp only [read, hu.split_append_dollar, split_of_delimiters hv, pairOff]

theorem read_closed (hu : Sealed u) (hm : Sealed m) (s : Text) :
    read (u ++ '$' :: (m ++ '$' :: s)) = ⟨u, (m, (read s).first) :: (read s).rest⟩ := by
  simp only [read, hu.split_append_dollar, hm.split_append_dollar, pairOff]

/-! ### Writing that keeps the math -/

/-- A writing of text that adds no delimiter and escapes none. -/
structure Keeps (writeText : Text → Text) : Prop where
  clear : ∀ s, delimiters false (writeText s) = []
  ends : ∀ s, behind false s = false → behind false (writeText s) = false

variable {writeText : Text → Text}

theorem Keeps.sealed (h : Keeps writeText) (hu : Sealed u) : Sealed (writeText u) :=
  ⟨h.clear u, h.ends u hu.ends⟩

theorem render_closed (hu : Sealed u) (hm : Sealed m) (s : Text) :
    (read (u ++ '$' :: (m ++ '$' :: s))).render writeText delimited =
      writeText u ++ '$' :: (m ++ '$' :: (read s).render writeText delimited) := by
  rw [read_closed hu hm]
  simp [render, delimited]

/-- **The math is found again** in the text that is written, byte for byte. -/
theorem read_render (h : Keeps writeText) (s : Text) :
    read ((read s).render writeText delimited) =
      ⟨writeText (read s).first, (read s).rest.map fun (math, text) => (math, writeText text)⟩ := by
  induction s using InlineMath.induction with
  | clear s hs =>
    rw [read_of_delimiters hs]
    simpa [render] using read_of_delimiters (h.clear s)
  | unclosed u v hu hv =>
    rw [read_unclosed hu hv]
    simpa [render] using read_of_delimiters (h.clear (u ++ '$' :: v))
  | closed u m s hu hm ih =>
    rw [render_closed hu hm, read_closed (h.sealed hu) hm, ih, read_closed hu hm]
    rfl

/-- Every delimiter of the text that is written belongs to a math. -/
theorem length_delimiters_render (h : Keeps writeText) (s : Text) :
    (delimiters false ((read s).render writeText delimited)).length = 2 * (read s).rest.length := by
  induction s using InlineMath.induction with
  | clear s hs =>
    rw [read_of_delimiters hs]
    simp [render, h.clear]
  | unclosed u v hu hv =>
    rw [read_unclosed hu hv]
    simp [render, h.clear]
  | closed u m s hu hm ih =>
    rw [render_closed hu hm, read_closed hu hm, (h.sealed hu).delimiters_append_dollar,
      hm.delimiters_append_dollar, List.length_cons, List.length_map, List.length_cons, List.length_map,
      ih, List.length_cons]
    omega

end AnnotatedEquation.InlineMath
