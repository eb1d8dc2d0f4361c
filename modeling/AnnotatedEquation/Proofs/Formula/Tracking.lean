/-
AnnotatedEquation/Proofs/Formula/Tracking.lean

The cursor reads what the reader reads, and nothing goes wrong on the way.

What is left to be read from a position, `n` characters, bounds the fuel that is
needed there: `3 * n` for a step, and one or two more for the calls above it.  A
step moves the cursor, and a text that is read within a source lacks at least
one character of it; both are seen where the call returns or begins.

* `Tracks` relates a reading of the reader to one of the cursor;
* `Correct fuel` tells that the cursor tracks the reader wherever that much fuel
  suffices.

Main statements: every amount of fuel is correct (`correct`), and so every
source is read to its end, or an odd digit of it is refused
(`run_reads_source`).
-/
import AnnotatedEquation.Proofs.Formula.Cursor
import AnnotatedEquation.Proofs.Formula.Reading

namespace AnnotatedEquation.Formula.Cursor

variable {α β : Type} {n m : Nat} {source s inner : Text} {pos least fuel : Nat} {c : Char}

/-! ### Tracking -/

/-- The cursor reads the same nodes, moves at least to `least`, and stands
before the same rest; or else both refuse the same digit. -/
def Tracks (source : Text) (least : Nat) (nodes : α → Formula) (x : Except Char (Front α n))
    (y : Except Fault (Formula × Nat)) : Prop :=
  match x with
  | .ok front =>
    ∃ next, y = .ok (nodes front.value, next) ∧ least ≤ next ∧ At source next front.rest
  | .error c => y = .error (.oddDigit c)

theorem Tracks.bind {nodes : α → Formula} {nodes' : β → Formula} {least' : Nat}
    {x : Except Char (Front α n)} {y : Except Fault (Formula × Nat)}
    {f : Front α n → Except Char (Front β m)} {g : Formula × Nat → Except Fault (Formula × Nat)}
    (h : Tracks source least nodes x y)
    (hf : ∀ value rest hrest next, least ≤ next → At source next rest →
      Tracks source least' nodes' (f ⟨value, rest, hrest⟩) (g (nodes value, next))) :
    Tracks source least' nodes' (x >>= f) (y >>= g) := by
  cases x with
  | ok front =>
    obtain ⟨next, rfl, hle, hat⟩ := h
    exact hf front.value front.rest front.le_bound next hle hat
  | error c =>
    obtain rfl : y = .error (.oddDigit c) := h
    rfl

/-- A text is read within the source, and then what is read is put to use. -/
theorem tracks_bind_read {nodes : α → Formula} {x : Except Char Formula} {y : Except Fault Formula}
    {f : Formula → Except Char (Front α n)} {g : Formula → Except Fault (Formula × Nat)}
    (h : y = x.mapError .oddDigit) (hf : ∀ v, Tracks source least nodes (f v) (g v)) :
    Tracks source least nodes (x >>= f) (y >>= g) := by
  subst h
  cases x with
  | ok v => exact hf v
  | error c => rfl

/-- Where this much fuel suffices, the cursor tracks the reader. -/
structure Correct (fuel : Nat) : Prop where
  loop : ∀ {source s pos}, At source pos s → 3 * (source.length - pos) + 1 ≤ fuel →
    loop fuel source pos = (read s).mapError .oddDigit
  step : ∀ {source s pos c}, source.drop pos = c :: s → Text.isBlank c = false →
    3 * (source.length - pos) ≤ fuel →
    Tracks source (pos + 1) (fun node => [node]) (Formula.step c s) (step fuel source pos)
  command : ∀ {source s pos}, source.drop pos = '\\' :: s → 3 * (source.length - pos) ≤ fuel + 1 →
    Tracks source (pos + 1) (fun node => [node]) (Formula.command s) (command fuel source pos)
  argument : ∀ {source s pos}, At source pos s → 0 < pos →
    3 * (source.length - pos) + 2 ≤ fuel →
    Tracks source pos id (Formula.argument s) (argument fuel source pos)

/-- A text is read within a longer source. -/
theorem Correct.read_within (h : Correct fuel) (hinner : inner.length < source.length)
    (hfuel : 3 * inner.length + 1 ≤ fuel) :
    (within source inner >>= fun inner => Cursor.loop fuel inner 0)
      = (read inner).mapError .oddDigit := by
  rw [within, if_pos hinner]
  exact h.loop (at_drop inner 0) (by simpa using hfuel)

/-! ### The loop -/

theorem read_trimStart (s : Text) : read (Text.trimStart s) = read s := by
  induction s with
  | nil => rfl
  | cons c s ih =>
    by_cases hc : Text.isBlank c
    · rw [read_blank hc, Text.trimStart, List.dropWhile_cons_of_pos hc]
      exact ih
    · rw [Text.trimStart_cons (by simpa using hc)]

theorem At.read_eq (h : At source pos s) : read (source.drop pos) = read s := by
  rw [← read_trimStart, h, read_trimStart]

theorem step_blank (h : source.drop pos = c :: s) (hc : Text.isBlank c) (fuel : Nat) :
    Cursor.step (fuel + 1) source pos = .ok ([], pos + 1) := by
  rw [Cursor.step, charAt_of_drop h, pure_bind, if_pos hc]
  rfl

theorem Correct.loop_succ (h : Correct fuel) (hat : At source pos s)
    (hfuel : 3 * (source.length - pos) + 1 ≤ fuel + 1) :
    Cursor.loop (fuel + 1) source pos = (read s).mapError .oddDigit := by
  rw [← hat.read_eq, Cursor.loop]
  rcases hdrop : source.drop pos with - | ⟨c, t⟩
  · rw [List.drop_eq_nil_iff] at hdrop
    rw [if_neg (Nat.not_lt.2 hdrop), read]
    rfl
  have hlength := length_of_drop hdrop
  obtain ⟨hpos, -, hbehind⟩ := getElem_of_drop hdrop
  rw [if_pos hpos]
  by_cases hc : Text.isBlank c
  · obtain ⟨k, rfl⟩ : ∃ k, fuel = k + 1 := ⟨fuel - 1, by omega⟩
    have hrest := h.loop (at_of_drop hbehind) (by omega)
    rw [step_blank hdrop hc, read_blank hc]
    simp only [bind, Except.bind, advanced, Nat.lt_succ_self, if_true, hrest]
    cases read t <;> rfl
  · have hc : Text.isBlank c = false := by simpa using hc
    have hstep := h.step hdrop hc (by omega)
    rw [read]
    simp only [hc]
    rcases hnode : Formula.step c t with odd | ⟨node, rest, hle⟩
    · rw [hnode] at hstep
      obtain hstep : Cursor.step fuel source pos = .error (.oddDigit odd) := hstep
      rw [hstep]
      rfl
    · rw [hnode] at hstep
      obtain ⟨next, hstep, hnext, hatRest⟩ := hstep
      have hrest := h.loop hatRest (by omega)
      rw [hstep]
      simp only [bind, Except.bind, advanced, Nat.lt_of_succ_le hnext, if_true, hrest]
      cases read rest <;> rfl

/-! ### Parts of commands -/

theorem number_append (s : Text) : (number s).value ++ (number s).rest = s := by
  have htake : s.takeWhile Text.isDecimal ++ s.dropWhile Text.isDecimal = s :=
    List.takeWhile_append_dropWhile
  unfold number
  split
  · next t h =>
    split
    · exact htake
    · rw [List.append_assoc, List.cons_append, List.takeWhile_append_dropWhile, ← h]
      exact htake
  · exact htake

/-- The reader and the cursor find the same name, and the same text behind it. -/
theorem behindName_spec (h : source.drop pos = '\\' :: s) :
    (commandName s).value = s.takeWhile isLetter ∧
      source.drop (behindName source pos (s.takeWhile isLetter)) = (commandName s).rest ∧
      pos + 1 + (s.takeWhile isLetter).length ≤ behindName source pos (s.takeWhile isLetter) := by
  obtain ⟨-, -, hbehind⟩ := getElem_of_drop h
  have hdrop : source.drop (pos + 1 + (s.takeWhile isLetter).length) = s.dropWhile isLetter := by
    rw [← List.drop_drop, hbehind]
    have hsplit := List.takeWhile_append_dropWhile (p := isLetter) (l := s)
    exact (congrArg (List.drop _) hsplit.symm).trans List.drop_left
  have hhead := getElem?_of_drop hdrop
  unfold commandName
  rw [behindName, hhead]
  split
  · next t ht =>
    have hstar : (s.dropWhile isLetter).head? = some '*' := by rw [ht]; rfl
    obtain ⟨-, -, hrest⟩ := getElem_of_drop (hdrop.trans ht)
    rw [if_pos hstar]
    exact ⟨rfl, hrest, Nat.le_succ _⟩
  · next hstar =>
    have hne : (s.dropWhile isLetter).head? ≠ some '*' := by
      intro hsome
      obtain ⟨t, ht⟩ := List.head?_eq_some_iff.1 hsome
      exact hstar t ht
    rw [if_neg hne]
    exact ⟨rfl, hdrop, Nat.le_refl _⟩

/-- What the cursor does at a layout command. -/
theorem At.behind_layout (h : At source pos s) (swallowsDot : Bool) :
    At source
      (if swallowsDot ∧ source[skipBlanks source pos]? = some '.' then skipBlanks source pos + 1
        else skipBlanks source pos)
      (afterLayout swallowsDot s).rest := by
  have hdrop := h.drop_skip
  rw [getElem?_of_drop hdrop]
  rcases htrim : Text.trimStart s with - | ⟨c, t⟩
  · simpa [afterLayout, first?_of_blank htrim, Front.of] using h.skip
  · obtain ⟨hlt, hfirst⟩ := first?_of_trimStart htrim
    rw [htrim] at hdrop
    by_cases hc : c = '.'
    · subst hc
      cases swallowsDot with
      | true =>
        simpa [afterLayout, hfirst, Front.of, Front.inside, Front.within] using
          at_of_drop (getElem_of_drop hdrop).2.2
      | false => simpa [afterLayout, hfirst, Front.of] using h.skip
    · simpa [afterLayout, hfirst, Front.of, hc] using h.skip

/-- The content of a group that is not read. -/
theorem At.finds_raw (h : At source pos s) :
    (readEnclosed .braces source pos).1.getD [] = (rawGroup s).value ∧
      At source (readEnclosed .braces source pos).2 (rawGroup s).rest ∧
      pos ≤ (readEnclosed .braces source pos).2 := by
  unfold rawGroup
  rcases h.finds_enclosed (.inl rfl) with
    ⟨hnone, hread⟩ | ⟨inside, rest, h₁, h₂, next, hsome, hread, hdrop, hle, -⟩
  · rw [hnone, hread]
    exact ⟨rfl, h.skip, (drop_skipBlanks source pos).2⟩
  · rw [hsome, hread]
    exact ⟨rfl, at_of_drop hdrop, by omega⟩

/-! ### One more call -/

theorem leaf_cases (hc : c ≠ '^' ∧ c ≠ '_') (hdecimal : Text.isDecimal c = false) :
    leaf c = if c = '\'' then .ok .prime
      else if Text.isOddDigit c then .error c else .ok (.char c) := by
  simp [leaf, hc, hdecimal]

theorem Correct.step_succ (h : Correct fuel) (hdrop : source.drop pos = c :: s)
    (hblank : Text.isBlank c = false) (hfuel : 3 * (source.length - pos) ≤ fuel + 1) :
    Tracks source (pos + 1) (fun node => [node]) (Formula.step c s)
      (Cursor.step (fuel + 1) source pos) := by
  have hlength := length_of_drop hdrop
  obtain ⟨-, -, hbehind⟩ := getElem_of_drop hdrop
  have hat : At source (pos + 1) s := at_of_drop hbehind
  have hnotblank : ¬ Text.isBlank c = true := by simp [hblank]
  rw [Formula.step, Cursor.step, charAt_of_drop hdrop, pure_bind, if_neg hnotblank]
  by_cases hbackslash : c = '\\'
  · subst hbackslash
    rw [if_pos rfl, if_pos rfl]
    exact h.command hdrop hfuel
  rw [if_neg hbackslash, if_neg hbackslash]
  by_cases hbrace : c = '{'
  · subst hbrace
    rw [if_pos rfl, if_pos rfl]
    have htrim : Text.trimStart ('{' :: s) = '{' :: s := Text.trimStart_cons hblank s
    rcases (at_of_drop hdrop).finds_level (d := .braces) (.inl rfl) with
      ⟨hnone, hread⟩ | ⟨t, inside, rest, next, ht, hcontent, hread, hrest, hle, hend⟩
    · have hstays : skipBlanks source pos = pos := by
        have := length_of_drop ((at_of_drop hdrop).drop_skip.trans htrim)
        omega
      rw [content?_of_none (hnone s htrim), hread, hstays]
      exact ⟨pos + 1, rfl, Nat.le_refl _, hat⟩
    · obtain rfl : s = t := (List.cons.inj (htrim.symm.trans ht)).2
      obtain ⟨h₁, h₂, hinside⟩ := content?_of_some hcontent
      rw [hinside, hread]
      refine tracks_bind_read (h.read_within (by omega) (by omega)) fun body => ?_
      exact ⟨_, rfl, by have := (drop_skipBlanks source next).2; omega, (at_of_drop hrest).skip⟩
  rw [if_neg hbrace, if_neg hbrace]
  by_cases hmark : c = '^' ∨ c = '_'
  · rw [if_pos hmark, if_pos hmark]
    refine (h.argument hat (Nat.succ_pos _) (by omega)).bind fun f rest _ next hnext hrest => ?_
    exact ⟨next, rfl, hnext, hrest⟩
  rw [if_neg hmark, if_neg hmark]
  by_cases hprime : c = '\''
  · subst hprime
    exact ⟨pos + 1, rfl, Nat.le_refl _, hat⟩
  rw [if_neg hprime]
  by_cases hdecimal : Text.isDecimal c
  · rw [if_pos hdecimal, if_pos hdecimal, hbehind]
    refine ⟨_, rfl, Nat.le_add_right _ _, at_of_drop ?_⟩
    rw [← List.drop_drop, hbehind]
    exact (congrArg (List.drop _) (number_append s).symm).trans List.drop_left
  rw [if_neg hdecimal, if_neg hdecimal,
    leaf_cases (not_or.1 hmark) (by simpa using hdecimal), if_neg hprime]
  by_cases hodd : Text.isOddDigit c
  · rw [if_pos hodd, if_pos hodd]
    rfl
  · rw [if_neg hodd, if_neg hodd]
    exact ⟨pos + 1, rfl, Nat.le_refl _, hat⟩

theorem Correct.command_succ (h : Correct fuel) (hdrop : source.drop pos = '\\' :: s)
    (hfuel : 3 * (source.length - pos) ≤ fuel + 2) :
    Tracks source (pos + 1) (fun node => [node]) (Formula.command s)
      (Cursor.command (fuel + 1) source pos) := by
  have hlength := length_of_drop hdrop
  obtain ⟨-, -, hbehind⟩ := getElem_of_drop hdrop
  obtain ⟨hvalue, hrest, hstart⟩ := behindName_spec hdrop
  rw [Formula.command, Cursor.command, hbehind]
  generalize commandName s = front at hvalue hrest
  obtain ⟨name, rest, hle⟩ := front
  simp only at hvalue hrest
  subst hvalue
  simp only
  by_cases hname : s.takeWhile isLetter = []
  · rw [if_pos hname, if_pos hname, getElem?_of_drop hbehind]
    cases s with
    | nil =>
      have hend : source.drop (pos + 2) = [] :=
        List.drop_eq_nil_of_le (Nat.le_succ_of_le (List.drop_eq_nil_iff.1 hbehind))
      exact ⟨pos + 2, rfl, Nat.le_succ _, at_of_drop hend⟩
    | cons c s => exact ⟨pos + 2, rfl, Nat.le_succ _, at_of_drop (getElem_of_drop hbehind).2.2⟩
  rw [if_neg hname, if_neg hname]
  have hletters : 0 < (s.takeWhile isLetter).length := List.length_pos_of_ne_nil hname
  have hsuffix : (s.takeWhile isLetter).length ≤ s.length :=
    (List.takeWhile_prefix _).length_le
  generalize s.takeWhile isLetter = name at *
  generalize behindName source pos name = start at *
  have hat : At source start rest := at_of_drop hrest
  -- an argument is read from behind the name on
  have harg : ∀ {t next}, At source next t → start ≤ next →
      Tracks source next id (Formula.argument t) (Cursor.argument fuel source next) :=
    fun hat hle => h.argument hat (by omega) (by omega)
  cases CommandClass.of name with
  | layout swallowsDot =>
    refine ⟨_, rfl, ?_, hat.behind_layout swallowsDot⟩
    have := (drop_skipBlanks source start).2
    split <;> omega
  | fraction =>
    refine (harg hat (Nat.le_refl _)).bind fun top rest₁ h₁ next₁ hle₁ hat₁ => ?_
    refine (harg hat₁ hle₁).bind fun bottom rest₂ h₂ next₂ hle₂ hat₂ => ?_
    exact ⟨next₂, rfl, by omega, hat₂⟩
  | binomial =>
    refine (harg hat (Nat.le_refl _)).bind fun top rest₁ h₁ next₁ hle₁ hat₁ => ?_
    refine (harg hat₁ hle₁).bind fun bottom rest₂ h₂ next₂ hle₂ hat₂ => ?_
    exact ⟨next₂, rfl, by omega, hat₂⟩
  | root =>
    rcases hat.finds_enclosed (d := .brackets) (.inr rfl) with
      ⟨hnone, hread⟩ | ⟨degree, rest₁, h₁, h₂, next₁, hsome, hread, hdrop₁, hle₁, hend⟩
    · simp only [hnone, hread]
      refine (harg hat.skip (drop_skipBlanks source start).2).bind
        fun radicand rest₁ h₁ next hle₁ hat₁ => ?_
      exact ⟨next, rfl, by have := (drop_skipBlanks source start).2; omega, hat₁⟩
    · simp only [hsome, hread]
      refine (harg (at_of_drop hdrop₁) (by omega)).bind
        fun radicand rest₂ h₃ next hle₂ hat₂ => ?_
      refine tracks_bind_read (h.read_within (by omega) (by omega)) fun f => ?_
      exact ⟨next, rfl, by omega, hat₂⟩
  | text =>
    obtain ⟨hraw, hat₁, hle₁⟩ := hat.finds_raw
    simp only [hraw]
    exact ⟨_, rfl, by omega, hat₁⟩
  | operator =>
    obtain ⟨hraw, hat₁, hle₁⟩ := hat.finds_raw
    simp only [hraw]
    exact ⟨_, rfl, by omega, hat₁⟩
  | textColor =>
    obtain ⟨hraw, hat₁, hle₁⟩ := hat.finds_raw
    simp only [hraw]
    refine (harg hat₁ hle₁).bind fun body rest₂ h₂ next hle₂ hat₂ => ?_
    exact ⟨next, rfl, by omega, hat₂⟩
  | restColor =>
    obtain ⟨hraw, hat₁, hle₁⟩ := hat.finds_raw
    have hinner : (source.drop (readEnclosed .braces source start).2).length < source.length := by
      rw [List.length_drop]
      omega
    have hread := h.read_within hinner (by rw [List.length_drop]; omega)
    rw [hat₁.read_eq] at hread
    simp only [hraw]
    refine tracks_bind_read hread fun f => ?_
    exact ⟨source.length, rfl, by omega, at_of_drop List.drop_length⟩
  | htmlClass =>
    obtain ⟨-, hat₁, hle₁⟩ := hat.finds_raw
    refine (harg hat₁ hle₁).bind fun body rest₂ h₂ next hle₂ hat₂ => ?_
    exact ⟨next, rfl, by omega, hat₂⟩
  | function =>
    refine (harg hat (Nat.le_refl _)).bind fun f rest₁ h₁ next hle₁ hat₁ => ?_
    exact ⟨next, rfl, by omega, hat₁⟩
  | symbol => exact ⟨start, rfl, by omega, hat⟩

theorem argument_nil : Formula.argument [] = .ok (.last []) := by
  rw [Formula.argument]
  rfl

theorem step_singleton (hc : c ≠ '\\') :
    Formula.step c [] = (leaf c).map fun node => Front.of node [] := by
  rw [Formula.step, if_neg hc]
  by_cases hbrace : c = '{'
  · subst hbrace
    rfl
  rw [if_neg hbrace]
  by_cases hmark : c = '^' ∨ c = '_'
  · rw [if_pos hmark, argument_nil, leaf, if_pos hmark]
    rfl
  rw [if_neg hmark]
  by_cases hdecimal : Text.isDecimal c
  · have hprime : c ≠ '\'' := by
      rintro rfl
      exact absurd hdecimal (by decide)
    rw [if_pos hdecimal, leaf, if_neg hmark, if_neg hprime, if_pos hdecimal]
    rfl
  · rw [if_neg hdecimal]
    cases leaf c <;> rfl

/-- A character that is an argument is read as a text of its own. -/
theorem read_singleton (hblank : Text.isBlank c = false) (hc : c ≠ '\\') :
    read [c] = (leaf c).map ([·]) := by
  have hnotblank : ¬ Text.isBlank c = true := by simp [hblank]
  rw [read, if_neg hnotblank, step_singleton hc]
  cases leaf c with
  | ok node =>
    show (do return node :: (← read [])) = _
    rw [read]
    rfl
  | error c => rfl

theorem isBlank_of_trimStart {t : Text} (h : Text.trimStart s = c :: t) :
    Text.isBlank c = false := by
  have := List.head?_dropWhile_not Text.isBlank s
  rw [show s.dropWhile Text.isBlank = c :: t from h] at this
  simpa using this

theorem Correct.argument_succ (h : Correct fuel) (hat : At source pos s) (hpos : 0 < pos)
    (hfuel : 3 * (source.length - pos) + 2 ≤ fuel + 1) :
    Tracks source pos id (Formula.argument s) (Cursor.argument (fuel + 1) source pos) := by
  rw [Formula.argument, Cursor.argument]
  rcases hat.finds_enclosed (d := .braces) (.inl rfl) with
    ⟨hnone, hread⟩ | ⟨inside, rest, h₁, h₂, next, hsome, hread, hdrop, hle, hend⟩
  · have hskip := (drop_skipBlanks source pos).2
    have hdrop := hat.skip.drop_skip
    have hskip' := (drop_skipBlanks source (skipBlanks source pos)).2
    simp only [hnone, hread]
    generalize skipBlanks source (skipBlanks source pos) = here at hdrop hskip'
    rcases htrim : Text.trimStart s with - | ⟨c, t⟩
    · rw [htrim, List.drop_eq_nil_iff] at hdrop
      rw [first?_of_blank htrim, dif_neg (Nat.not_lt.2 hdrop)]
      exact ⟨_, rfl, by omega, at_of_drop (List.drop_eq_nil_of_le hdrop)⟩
    · rw [htrim] at hdrop
      obtain ⟨hlt, hfirst⟩ := first?_of_trimStart htrim
      obtain ⟨hin, hc, hbehind⟩ := getElem_of_drop hdrop
      have hblank := isBlank_of_trimStart htrim
      rw [hfirst, dif_pos hin, hc]
      by_cases hbackslash : c = '\\'
      · subst hbackslash
        have hstep := h.step hdrop hblank (by omega)
        rw [Formula.step, if_pos rfl] at hstep
        refine hstep.bind fun node rest hle next hnext hrest => ?_
        rw [advanced, if_pos (Nat.lt_of_succ_le hnext)]
        exact ⟨next, rfl, by omega, hrest⟩
      · have hinner : [c].length < source.length := by
          rw [List.length_singleton]
          omega
        have hread := h.read_within hinner (by rw [List.length_singleton]; omega)
        rw [if_neg hbackslash, hread, read_singleton hblank hbackslash]
        simp only [if_neg hbackslash]
        cases leaf c with
        | ok node => exact ⟨here + 1, rfl, by omega, at_of_drop hbehind⟩
        | error c => rfl
  · simp only [hsome, hread]
    refine tracks_bind_read (h.read_within (by omega) (by omega)) fun f => ?_
    exact ⟨next, rfl, by omega, at_of_drop hdrop⟩

/-- Every amount of fuel is correct. -/
theorem correct (fuel : Nat) : Correct fuel := by
  induction fuel with
  | zero =>
    refine ⟨fun _ h => by omega, fun hdrop _ h => ?_, fun hdrop h => ?_, fun _ _ h => by omega⟩
    all_goals
      have := length_of_drop hdrop
      omega
  | succ fuel ih =>
    exact ⟨ih.loop_succ, ih.step_succ, ih.command_succ, ih.argument_succ⟩

/-! ### Whole sources -/

/-- The fuel that suffices for a source. -/
def fuelFor (source : Text) : Nat := 3 * source.length + 1

theorem run_eq_read (source : Text) (extra : Nat) :
    run (fuelFor source + extra) source = (read source).mapError .oddDigit :=
  (correct _).loop (at_drop source 0) (by simp [fuelFor])

/-- **Every source is read to its end and converted, or else an odd digit of it
is refused.**  The fuel suffices, all characters are read inside of the source,
every step moves the cursor, and what is read within a source is shorter. -/
theorem run_reads_source (source : Text) (extra : Nat) :
    (∃ f, run (fuelFor source + extra) source = .ok f ∧ convert source = .ok (toTypst f)) ∨
      ∃ c ∈ source, Text.isOddDigit c ∧
        run (fuelFor source + extra) source = .error (.oddDigit c) ∧ convert source = .error c := by
  have hends := ends_read source
  rw [run_eq_read]
  rcases hread : read source with c | f
  · rw [hread] at hends
    exact .inr ⟨c, hends.1, hends.2, rfl, by rw [convert, hread]; rfl⟩
  · exact .inl ⟨f, rfl, convert_of_read hread⟩

end AnnotatedEquation.Formula.Cursor
