/-
AnnotatedEquation/Proofs/Markup/Matching.lean

The matching of delimiters, told by counting.

* `Delimiters.EscapedAt` tells that a backslash stands directly before a
  position, and `Delimiters.StandsAt` that a character stands there and is not
  escaped;
* `Delimiters.unescaped` counts how often a character stands unescaped in a
  stretch of a text;
* `Delimiters.outnumbered` is the set of positions up to which closing
  delimiters outnumber opening ones, by more than a number of levels.

Each character that the search reads on changes the number of open levels and
leaves the set as it is (`outnumbered_of_opening`, `outnumbered_of_closing`,
`outnumbered_of_neither`).  So the search ends at the least position of the set
(`close?_eq_isLeast`), and reads nothing behind it.

Main statement: `Delimiters.matchAt?_first_outnumbered`.
-/
import AnnotatedEquation.Proofs.Markup.Level
import AnnotatedEquation.Proofs.Text.Position
import Mathlib.Order.Bounds.Basic
import Mathlib.Order.Nat

namespace AnnotatedEquation.Delimiters

variable {d : Delimiters} {s s' t inside rest : Text} {c : Char} {i j k n start stop : Nat}

/-! ### Counting in a stretch -/

/-- A backslash stands directly before the position. -/
def EscapedAt (s : Text) (i : Nat) : Prop := 0 < i ∧ s[i - 1]? = some '\\'

instance : Decidable (EscapedAt s i) := inferInstanceAs (Decidable (_ ∧ _))

/-- The character stands at the position and is not escaped. -/
def StandsAt (c : Char) (s : Text) (i : Nat) : Prop := s[i]? = some c ∧ ¬ EscapedAt s i

instance : Decidable (StandsAt c s i) := inferInstanceAs (Decidable (_ ∧ _))

/-- How often the character stands unescaped from position `i` up to before
position `j`. -/
def unescaped (c : Char) (s : Text) (i j : Nat) : Nat :=
  (List.range' i (j - i)).countP fun k => StandsAt c s k

/-- The positions from `start` on up to which, the position itself included,
unescaped closing delimiters outnumber unescaped opening ones by more than
`deeper`. -/
def outnumbered (d : Delimiters) (s : Text) (start : Nat) (deeper : Nat := 0) : Set Nat :=
  {i | start ≤ i ∧ i < s.length ∧
    unescaped d.opening s start (i + 1) + deeper < unescaped d.closing s start (i + 1)}

theorem mem_outnumbered_iff :
    i ∈ d.outnumbered s start n ↔ start ≤ i ∧ i < s.length ∧
      unescaped d.opening s start (i + 1) + n < unescaped d.closing s start (i + 1) := Iff.rfl

@[simp] theorem unescaped_self : unescaped c s i i = 0 := by simp [unescaped]

theorem unescaped_head (h : i < j) :
    unescaped c s i j = (if StandsAt c s i then 1 else 0) + unescaped c s (i + 1) j := by
  have hlength : j - i = (j - (i + 1)) + 1 := by omega
  rw [unescaped, unescaped, hlength, List.range'_succ, List.countP_cons, Nat.add_comm]
  simp

theorem unescaped_last (h : i ≤ j) :
    unescaped c s i (j + 1) = unescaped c s i j + if StandsAt c s j then 1 else 0 := by
  have hlength : j + 1 - i = (j - i) + 1 := by omega
  have hlast : i + (j - i) = j := by omega
  rw [unescaped, unescaped, hlength, List.range'_1_concat, List.countP_append, hlast]
  simp [List.countP_cons]

/-- Two texts that agree from the position before a stretch on agree on what
stands unescaped in the stretch. -/
theorem unescaped_congr (h : ∀ k, i - 1 ≤ k → k < j → s'[k]? = s[k]?) :
    unescaped c s' i j = unescaped c s i j := by
  rw [unescaped, unescaped]
  refine List.countP_congr fun k hk => ?_
  obtain ⟨hi, hj⟩ := List.mem_range'_1.1 hk
  have hhere : s'[k]? = s[k]? := h k (by omega) (by omega)
  have hbefore : s'[k - 1]? = s[k - 1]? := h (k - 1) (by omega) (by omega)
  have hstands : StandsAt c s' k ↔ StandsAt c s k := by
    simp only [StandsAt, EscapedAt, hhere, hbefore]
  simpa only [decide_eq_true_eq] using hstands

theorem StandsAt.ne_of_ne {c' : Char} (h : StandsAt c s i) (hc : c ≠ c') : ¬ StandsAt c' s i :=
  fun h' => hc (Option.some.inj (h.1.symm.trans h'.1))

/-! ### One character of the search -/

/-- Two sets of positions agree if neither has one before `i + 1` and they
agree from there on. -/
theorem outnumbered_eq {m : Nat} (hnot : i ∉ d.outnumbered s i n)
    (h : ∀ k, i < k → (unescaped d.opening s i (k + 1) + n < unescaped d.closing s i (k + 1) ↔
      unescaped d.opening s (i + 1) (k + 1) + m < unescaped d.closing s (i + 1) (k + 1))) :
    d.outnumbered s i n = d.outnumbered s (i + 1) m := by
  ext k
  constructor
  · intro hk
    have hik : i < k := Nat.lt_of_le_of_ne hk.1 fun heq => hnot (heq ▸ hk)
    exact ⟨hik, hk.2.1, (h k hik).1 hk.2.2⟩
  · rintro ⟨hik, hlt, hk⟩
    exact ⟨Nat.le_of_lt hik, hlt, (h k hik).2 hk⟩

theorem outnumbered_of_opening (hd : d.opening ≠ d.closing) (h : StandsAt d.opening s i) :
    d.outnumbered s i n = d.outnumbered s (i + 1) (n + 1) := by
  have hclosing := h.ne_of_ne hd
  refine outnumbered_eq ?_ fun k hk => ?_
  · rintro ⟨-, -, hlt⟩
    simp [unescaped_head, h, hclosing] at hlt
  · rw [unescaped_head (c := d.opening) (by omega), unescaped_head (c := d.closing) (by omega),
      if_pos h, if_neg hclosing]
    omega

theorem outnumbered_of_closing (hd : d.opening ≠ d.closing) (h : StandsAt d.closing s i) :
    d.outnumbered s i (n + 1) = d.outnumbered s (i + 1) n := by
  have hopening := h.ne_of_ne hd.symm
  refine outnumbered_eq ?_ fun k hk => ?_
  · rintro ⟨-, -, hlt⟩
    simp [unescaped_head, h, hopening] at hlt
  · rw [unescaped_head (c := d.opening) (by omega), unescaped_head (c := d.closing) (by omega),
      if_neg hopening, if_pos h]
    omega

theorem outnumbered_of_neither (hopening : ¬ StandsAt d.opening s i)
    (hclosing : ¬ StandsAt d.closing s i) :
    d.outnumbered s i n = d.outnumbered s (i + 1) n := by
  refine outnumbered_eq ?_ fun k hk => ?_
  · rintro ⟨-, -, hlt⟩
    simp [unescaped_head, hopening, hclosing] at hlt
  · rw [unescaped_head (c := d.opening) (by omega), unescaped_head (c := d.closing) (by omega),
      if_neg hopening, if_neg hclosing]
    omega

/-- An unescaped closing delimiter closes the innermost level. -/
theorem isLeast_outnumbered_of_closing (hd : d.opening ≠ d.closing)
    (h : StandsAt d.closing s i) : IsLeast (d.outnumbered s i) i := by
  refine ⟨⟨Nat.le_refl i, (List.getElem?_eq_some_iff.1 h.1).1, ?_⟩, fun k hk => hk.1⟩
  simp [unescaped_head, h, h.ne_of_ne hd.symm]

/-! ### The whole search -/

/-- **The search ends at the first position at which the closing delimiters
outnumber the opening ones** by more than the levels that were open. -/
theorem close?_eq_isLeast (hd : d.opening ≠ d.closing) (ht : s.drop i = t) :
    (d.close? n (EscapedAt s i) t).map (fun r => i + r.1.length) = some j ↔
      IsLeast (d.outnumbered s i n) j := by
  induction t generalizing i n with
  | nil =>
    have hlength : s.length ≤ i := List.drop_eq_nil_iff.1 ht
    refine iff_of_false (by simp [close?]) ?_
    rintro ⟨⟨hij, hj, -⟩, -⟩
    omega
  | cons c t ih =>
    have hchar : s[i]? = some c := by
      rw [← List.head?_drop, ht, List.head?_cons]
    have hrest : s.drop (i + 1) = t := by
      rw [← List.drop_drop, ht, List.drop_one, List.tail_cons]
    have hescaped : EscapedAt s (i + 1) ↔ c = '\\' := by simp [EscapedAt, hchar]
    -- reading on gives the position that the search in the rest ends at
    have hon : ∀ m (f : Text × Text → Text × Text), (∀ r, f r = (c :: r.1, r.2)) →
        ((d.close? m (c = '\\') t).map f).map (fun r => i + r.1.length) =
          (d.close? m (EscapedAt s (i + 1)) t).map fun r => i + 1 + r.1.length := by
      intro m f hf
      rw [Option.map_map, decide_eq_decide.2 hescaped]
      refine congrArg (fun f => Option.map f _) (funext fun r => ?_)
      simp only [Function.comp_apply, hf, List.length_cons]
      omega
    have hstands : ∀ x, StandsAt x s i ↔ c = x ∧ ¬ EscapedAt s i := by simp [StandsAt, hchar]
    simp only [close?, decide_eq_true_eq]
    by_cases hopening : StandsAt d.opening s i
    · rw [if_pos ((hstands _).1 hopening), hon _ _ fun _ => rfl, ih hrest,
        outnumbered_of_opening hd hopening]
    · rw [if_neg fun h => hopening ((hstands _).2 h)]
      by_cases hclosing : StandsAt d.closing s i
      · rw [if_pos ((hstands _).1 hclosing)]
        cases n with
        | zero =>
          have hleast := isLeast_outnumbered_of_closing hd hclosing
          simp only [Option.map_some, List.length_nil, Nat.add_zero, Option.some.injEq]
          exact ⟨fun h => h ▸ hleast, hleast.unique⟩
        | succ n => rw [hon _ _ fun _ => rfl, ih hrest, outnumbered_of_closing hd hclosing]
      · rw [if_neg fun h => hclosing ((hstands _).2 h), hon _ _ fun _ => rfl, ih hrest,
          outnumbered_of_neither hopening hclosing]

theorem matchAt?_eq_map (start : Nat) :
    d.matchAt? s start =
      ((d.close? 0 (EscapedAt s start) (s.drop start)).map
        fun r => start + r.1.length).map (· + 1) := by
  rw [matchAt?, Option.map_map]
  rfl

theorem matchAt?_eq_some_iff (hd : d.opening ≠ d.closing) :
    d.matchAt? s start = some stop ↔ ∃ i, IsLeast (d.outnumbered s start) i ∧ i + 1 = stop := by
  rw [matchAt?_eq_map, Option.map_eq_some_iff]
  simp only [close?_eq_isLeast hd rfl]

theorem matchAt?_eq_none_iff (hd : d.opening ≠ d.closing) :
    d.matchAt? s start = none ↔ d.outnumbered s start = ∅ := by
  constructor
  · intro h
    rw [Set.eq_empty_iff_forall_notMem]
    intro i hi
    -- of all such positions there is a first one
    classical
    have hleast := Set.Nonempty.isLeast_natFind ⟨i, hi⟩
    rw [(matchAt?_eq_some_iff hd).2 ⟨_, hleast, rfl⟩] at h
    cases h
  · intro h
    rcases hmatch : d.matchAt? s start with - | stop
    · rfl
    · obtain ⟨i, hi, -⟩ := (matchAt?_eq_some_iff hd).1 hmatch
      rw [h] at hi
      exact absurd hi.1 (Set.notMem_empty i)

/-! ### What the search reads -/

/-- The position at which the search ends is told by what stands up to it. -/
theorem isLeast_outnumbered_congr (h : ∀ k, start - 1 ≤ k → k < j + 1 → s'[k]? = s[k]?)
    (hj : IsLeast (d.outnumbered s start) j) : IsLeast (d.outnumbered s' start) j := by
  have hlength : ∀ k, start ≤ k → k ≤ j → (k < s'.length ↔ k < s.length) := by
    intro k hstart hk
    rw [← not_iff_not, Nat.not_lt, Nat.not_lt, ← List.getElem?_eq_none_iff,
      ← List.getElem?_eq_none_iff, h k (by omega) (by omega)]
  have hmem : ∀ k ≤ j, (k ∈ d.outnumbered s' start ↔ k ∈ d.outnumbered s start) := by
    intro k hk
    have hcount : ∀ c, unescaped c s' start (k + 1) = unescaped c s start (k + 1) :=
      fun c => unescaped_congr fun m hm hmk => h m hm (by omega)
    rw [mem_outnumbered_iff, mem_outnumbered_iff, hcount, hcount]
    exact and_congr_right fun hstart => and_congr_left fun _ => hlength k hstart hk
  refine ⟨(hmem j (Nat.le_refl j)).2 hj.1, fun k hk => ?_⟩
  by_contra hlt
  have hk' := (hmem k (by omega)).1 hk
  exact hlt (hj.2 hk')

/-- Up to the position at which the search ends, closing delimiters do not
outnumber opening ones. -/
theorem le_unescaped_of_isLeast (hj : IsLeast (d.outnumbered s start) j) (hstart : start ≤ k)
    (hk : k ≤ j) : unescaped d.closing s start k ≤ unescaped d.opening s start k := by
  rcases Nat.eq_or_lt_of_le hstart with rfl | hlt
  · simp
  · obtain ⟨m, rfl⟩ := Nat.exists_eq_add_of_lt hlt
    by_contra hnot
    have hm : start + m ∈ d.outnumbered s start :=
      ⟨Nat.le_add_right .., by have := hj.1.2.1; omega, by omega⟩
    have := hj.2 hm
    omega

/-- The closing delimiter that the search ends at stands unescaped, and before
it as many levels are closed as are opened. -/
theorem standsAt_of_isLeast (hd : d.opening ≠ d.closing)
    (hj : IsLeast (d.outnumbered s start) j) :
    StandsAt d.closing s j ∧ unescaped d.opening s start j = unescaped d.closing s start j := by
  obtain ⟨hstart, -, hlt⟩ := hj.1
  have hle := le_unescaped_of_isLeast hj hstart (Nat.le_refl j)
  rw [unescaped_last hstart, unescaped_last hstart] at hlt
  by_cases hclosing : StandsAt d.closing s j
  · rw [if_pos hclosing, if_neg (hclosing.ne_of_ne hd.symm)] at hlt
    exact ⟨hclosing, by omega⟩
  · rw [if_neg hclosing] at hlt
    omega

theorem getLast?_content_of_isLeast (hd : d.opening ≠ d.closing)
    (hj : IsLeast (d.outnumbered s start) j) : (s.extract start j).getLast? ≠ some '\\' := by
  obtain ⟨hstart, hlt, -⟩ := hj.1
  have hescaped := (standsAt_of_isLeast hd hj).1.2
  rcases Nat.eq_or_lt_of_le hstart with rfl | hpos
  · simp
  · rw [Text.getLast?_extract hpos (Nat.le_of_lt hlt)]
    exact fun hlast => hescaped ⟨by omega, hlast⟩

/-- The content of a match, if nothing escapes its first character, closes all
levels that it opens. -/
theorem closed_content_of_matchAt? (hd : d.opening ≠ d.closing) (hstart : ¬ EscapedAt s start)
    (h : d.matchAt? s start = some (j + 1)) : d.Closed (s.extract start j) := by
  rw [matchAt?_eq_map, decide_eq_false hstart, Option.map_map, Option.map_eq_some_iff] at h
  obtain ⟨⟨inside, rest⟩, hcontent, hj⟩ := h
  obtain ⟨hs, hclosed⟩ := (content?_eq_some_iff hd).1 hcontent
  obtain rfl : start + inside.length = j := Nat.succ.inj hj
  rw [(Text.eq_of_drop_eq_append hs).1]
  exact hclosed

/-- A text that closes all levels that it opens can be put between two
delimiters anywhere. -/
theorem Closed.matchAt?_enclosed (hd : d.opening ≠ d.closing) (hopening : d.opening ≠ '\\')
    (h : d.Closed inside) (u v : Text) :
    d.matchAt? (u ++ d.opening :: (inside ++ d.closing :: v)) (u.length + 1) =
      some (u.length + 1 + inside.length + 1) := by
  have hdrop : (u ++ d.opening :: (inside ++ d.closing :: v)).drop u.length =
      [] ++ d.opening :: (inside ++ d.closing :: v) := by simp
  have hmatch := matchAt?_eq_map_content? (d := d) hdrop hopening
  rw [(content?_eq_some_iff hd).2 ⟨rfl, h⟩] at hmatch
  exact hmatch

/-- **Matching is exact and local.**  A match ends behind the first position at
which unescaped closing delimiters outnumber unescaped opening ones, and there
is none exactly if there is no such position.  The content of a match has as
many of one kind as of the other, never more closing than opening ones in
front, and no backslash at its end.  The match depends on nothing but the
characters from before its content up to its end, and its content, unless it
stands behind a backslash, is matched again between any two delimiters. -/
theorem matchAt?_first_outnumbered (hd : d.opening ≠ d.closing) (hopening : d.opening ≠ '\\')
    (s : Text) (start : Nat) :
    (∀ stop, d.matchAt? s start = some stop ↔
      ∃ i, IsLeast (d.outnumbered s start) i ∧ i + 1 = stop) ∧
    (d.matchAt? s start = none ↔ d.outnumbered s start = ∅) ∧
    ∀ i, d.matchAt? s start = some (i + 1) →
      unescaped d.opening s start i = unescaped d.closing s start i ∧
      (∀ k, start ≤ k → k ≤ i →
        unescaped d.closing s start k ≤ unescaped d.opening s start k) ∧
      (s.extract start i).getLast? ≠ some '\\' ∧
      (∀ s' : Text, (∀ k, start - 1 ≤ k → k < i + 1 → s'[k]? = s[k]?) →
        d.matchAt? s' start = some (i + 1)) ∧
      (¬ EscapedAt s start → ∀ u v : Text,
        d.matchAt? (u ++ d.opening :: (s.extract start i ++ d.closing :: v)) (u.length + 1) =
          some (u.length + 1 + (s.extract start i).length + 1)) := by
  refine ⟨fun stop => matchAt?_eq_some_iff hd, matchAt?_eq_none_iff hd, fun i hmatch => ?_⟩
  obtain ⟨j, hj, hji⟩ := (matchAt?_eq_some_iff hd).1 hmatch
  obtain rfl : j = i := Nat.succ.inj hji
  refine ⟨(standsAt_of_isLeast hd hj).2, fun k => le_unescaped_of_isLeast hj,
    getLast?_content_of_isLeast hd hj, fun s' h => ?_, fun hstart => ?_⟩
  · exact (matchAt?_eq_some_iff hd).2 ⟨j, isLeast_outnumbered_congr h hj, rfl⟩
  · exact (closed_content_of_matchAt? hd hstart hmatch).matchAt?_enclosed hd hopening

/-- A root of a fraction that ends in an escaped brace. -/
def rootOfFraction : Text := "\\sqrt\x7b\\frac\x7ba\x7d\x7bb\\\x7d\x7d\x7d + 1".toList

theorem matchAt?_first_outnumbered_rootOfFraction :
    braces.opening ≠ braces.closing ∧ braces.opening ≠ '\\' ∧
      braces.matchAt? rootOfFraction 6 = some 20 ∧ ¬ EscapedAt rootOfFraction 6 ∧
      unescaped '{' rootOfFraction 6 19 = unescaped '}' rootOfFraction 6 19 ∧
      braces.matchAt? (rootOfFraction.take 20) 6 = some 20 ∧
      braces.matchAt?
        ("x\\".toList ++ '{' :: (rootOfFraction.extract 6 19 ++ '}' :: "\x7d y".toList)) 3 =
          some 17 := by
  have hmatch : braces.matchAt? rootOfFraction 6 = some (19 + 1) := by decide
  have hstart : ¬ EscapedAt rootOfFraction 6 := by decide
  obtain ⟨-, -, hcontent⟩ := matchAt?_first_outnumbered (d := braces) (by decide) (by decide)
    rootOfFraction 6
  obtain ⟨hcount, -, -, hlocal, henclosed⟩ := hcontent 19 hmatch
  refine ⟨by decide, by decide, hmatch, hstart, hcount, hlocal _ fun k _ hk => ?_, ?_⟩
  · exact List.getElem?_take_of_lt hk
  · exact henclosed hstart "x\\".toList "\x7d y".toList

end AnnotatedEquation.Delimiters
