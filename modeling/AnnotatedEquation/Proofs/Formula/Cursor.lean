/-
AnnotatedEquation/Proofs/Formula/Cursor.lean

Reading formulas at a position of a source, with everything that could go wrong
told as a fault.

The reader takes texts apart, and its types tell that it ends.  Here a cursor
moves over one source instead: characters are read at positions, the texts of
groups are slices that are read anew, and the fuel limits the depth of all calls
together.  A character behind the end, a step that does not move the cursor, a
slice that is no shorter than the source and fuel that does not suffice are
faults.

A blank is skipped wherever a group is looked for, also where none is found; a
backslash at the end of the source moves the cursor one past the end.

* `Cursor.loop` reads a source from a position on;
* `Cursor.At source pos s` tells that the text `s` stands at the cursor, up to
  blanks in front of it.

Main statements: looking for a group and skipping blanks keep to the text at the
cursor (`At.skip`, `At.finds_enclosed`).
-/
import AnnotatedEquation.Proofs.Formula.Outcome
import AnnotatedEquation.Proofs.Text.Part
import Mathlib.Data.List.DropRight

namespace AnnotatedEquation.Formula

namespace Cursor

/-! ### The machine -/

/-- What can go wrong. -/
inductive Fault where
  /-- A character was read behind the end of the source. -/
  | outside
  /-- A step left the cursor where it was. -/
  | stalled
  /-- A text was to be read within a source that is no longer. -/
  | unbounded
  /-- A digit that can stand in no number. -/
  | oddDigit (c : Char)
  /-- The fuel did not suffice. -/
  | exhausted
  deriving DecidableEq, Repr

/-- The character at the cursor. -/
def charAt (source : Text) (pos : Nat) : Except Fault Char :=
  if h : pos < source.length then .ok source[pos] else .error .outside

/-- Moves the cursor over blanks. -/
def skipBlanks (source : Text) (pos : Nat) : Nat :=
  if h : pos < source.length then
    if Text.isBlank source[pos] then skipBlanks source (pos + 1) else pos
  else pos
termination_by source.length - pos

/-- The content of a level of delimiters at the cursor, blanks aside, and where
the cursor is moved. -/
def readEnclosed (d : Delimiters) (source : Text) (pos : Nat) : Option Text × Nat :=
  let pos := skipBlanks source pos
  if h : pos < source.length then
    if source[pos] = d.opening then
      match d.matchAt? source (pos + 1) with
      | some next => (some ((source.take (next - 1)).drop (pos + 1)), next)
      | none => (none, pos)
    else (none, pos)
  else (none, pos)

/-- A text that is read within the source. -/
def within (source inner : Text) : Except Fault Text :=
  if inner.length < source.length then .ok inner else .error .unbounded

/-- The result of a step from a position. -/
def advanced (pos : Nat) (result : Formula × Nat) : Except Fault (Formula × Nat) :=
  if pos < result.2 then .ok result else .error .stalled

/-- The position behind the name of the command at a backslash, and behind a
star that belongs to it. -/
def behindName (source : Text) (pos : Nat) (name : Text) : Nat :=
  let next := pos + 1 + name.length
  if source[next]? = some '*' then next + 1 else next

mutual

/-- The nodes from the cursor to the end of the source. -/
def loop : Nat → Text → Nat → Except Fault Formula
  | 0, _, _ => .error .exhausted
  | fuel + 1, source, pos =>
    if pos < source.length then do
      let (nodes, next) ← step fuel source pos >>= advanced pos
      return nodes ++ (← loop fuel source next)
    else .ok []

/-- The node at the cursor, if there is one, and where the cursor is moved. -/
def step : Nat → Text → Nat → Except Fault (Formula × Nat)
  | 0, _, _ => .error .exhausted
  | fuel + 1, source, pos => do
    let c ← charAt source pos
    if Text.isBlank c then return ([], pos + 1)
    else if c = '\\' then command fuel source pos
    else if c = '{' then
      match readEnclosed .braces source pos with
      | (some inner, next) => do
        let body ← within source inner >>= fun inner => loop fuel inner 0
        return ([.group body], skipBlanks source next)
      | (none, next) => return ([.char c], next + 1)
    else if c = '^' ∨ c = '_' then do
      let (argument, next) ← argument fuel source (pos + 1)
      return ([.script c argument], next)
    else if c = '\'' then return ([.prime], pos + 1)
    else if Text.isDecimal c then
      let digits := (number (source.drop (pos + 1))).value
      return ([.number (c :: digits)], pos + 1 + digits.length)
    else if Text.isOddDigit c then .error (.oddDigit c)
    else return ([.char c], pos + 1)

/-- The command at the cursor. -/
def command : Nat → Text → Nat → Except Fault (Formula × Nat)
  | 0, _, _ => .error .exhausted
  | fuel + 1, source, pos =>
    let name := (source.drop (pos + 1)).takeWhile isLetter
    if name = [] then .ok ([.symbol source[pos + 1]?], pos + 2)
    else
      let pos := behindName source pos name
      match CommandClass.of name with
      | .layout swallowsDot =>
        let pos := skipBlanks source pos
        .ok ([.layout], if swallowsDot ∧ source[pos]? = some '.' then pos + 1 else pos)
      | .fraction => do
        let (top, pos) ← argument fuel source pos
        let (bottom, pos) ← argument fuel source pos
        return ([.fraction top bottom], pos)
      | .binomial => do
        let (top, pos) ← argument fuel source pos
        let (bottom, pos) ← argument fuel source pos
        return ([.binomial top bottom], pos)
      | .root =>
        match readEnclosed .brackets source pos with
        | (some degree, pos) => do
          let (radicand, pos) ← argument fuel source pos
          let degree ← within source degree >>= fun inner => loop fuel inner 0
          return ([.root degree radicand], pos)
        | (none, pos) => do
          let (radicand, pos) ← argument fuel source pos
          return ([.sqrt radicand], pos)
      | .text =>
        let (raw, pos) := readEnclosed .braces source pos
        .ok ([.text (raw.getD [])], pos)
      | .operator =>
        let (raw, pos) := readEnclosed .braces source pos
        .ok ([.operator (raw.getD [])], pos)
      | .textColor => do
        let (color, pos) := readEnclosed .braces source pos
        let (body, pos) ← argument fuel source pos
        return ([.colored (color.getD []) body], pos)
      | .restColor => do
        let (color, pos) := readEnclosed .braces source pos
        let rest ← within source (source.drop pos) >>= fun inner => loop fuel inner 0
        return ([.colored (color.getD []) rest], source.length)
      | .htmlClass => do
        let (_, pos) := readEnclosed .braces source pos
        let (body, pos) ← argument fuel source pos
        return ([.classed body], pos)
      | .function => do
        let (argument, pos) ← argument fuel source pos
        return ([.apply name argument], pos)
      | .symbol => .ok ([.named name], pos)

/-- The argument at the cursor: a group, one command or one character. -/
def argument : Nat → Text → Nat → Except Fault (Formula × Nat)
  | 0, _, _ => .error .exhausted
  | fuel + 1, source, pos =>
    match readEnclosed .braces source pos with
    | (some inner, pos) => do
      let body ← within source inner >>= fun inner => loop fuel inner 0
      return (body, pos)
    | (none, pos) =>
      let pos := skipBlanks source pos
      if h : pos < source.length then
        if source[pos] = '\\' then step fuel source pos >>= advanced pos
        else do
          let nodes ← within source [source[pos]] >>= fun inner => loop fuel inner 0
          return (nodes, pos + 1)
      else .ok ([], pos)

end

/-- The nodes of a source. -/
def run (fuel : Nat) (source : Text) : Except Fault Formula := loop fuel source 0

/-! ### The text at the cursor -/

/-- The text stands at the cursor, up to blanks in front of it. -/
def At (source : Text) (pos : Nat) (s : Text) : Prop :=
  Text.trimStart (source.drop pos) = Text.trimStart s

variable {source s t inside rest : Text} {pos next : Nat} {c : Char} {d : Delimiters}

theorem at_drop (source : Text) (pos : Nat) : At source pos (source.drop pos) := rfl

theorem at_of_drop (h : source.drop pos = s) : At source pos s := by rw [At, h]

theorem drop_eq_cons (h : pos < source.length) :
    source.drop pos = source[pos] :: source.drop (pos + 1) := List.drop_eq_getElem_cons h

theorem length_of_drop (h : source.drop pos = c :: s) : pos + s.length + 1 = source.length := by
  have := congrArg List.length h
  simp only [List.length_drop, List.length_cons] at this
  omega

theorem getElem_of_drop (h : source.drop pos = c :: s) :
    ∃ hpos : pos < source.length, source[pos] = c ∧ source.drop (pos + 1) = s := by
  have hpos : pos < source.length := by have := length_of_drop h; omega
  rw [drop_eq_cons hpos, List.cons.injEq] at h
  exact ⟨hpos, h.1, h.2⟩

theorem charAt_of_drop (h : source.drop pos = c :: s) : charAt source pos = pure c := by
  obtain ⟨hpos, hc, -⟩ := getElem_of_drop h
  rw [charAt, dif_pos hpos, hc]
  rfl

theorem getElem?_of_drop (h : source.drop pos = s) : source[pos]? = s.head? := by
  rw [← h, List.head?_drop]

/-- Skipping blanks leads to the text without blanks. -/
theorem drop_skipBlanks (source : Text) (pos : Nat) :
    source.drop (skipBlanks source pos) = Text.trimStart (source.drop pos) ∧
      pos ≤ skipBlanks source pos := by
  induction pos using skipBlanks.induct source with
  | case1 pos h hblank ih =>
    rw [skipBlanks, dif_pos h, if_pos hblank, drop_eq_cons h, Text.trimStart,
      List.dropWhile_cons_of_pos hblank]
    exact ⟨ih.1, Nat.le_of_succ_le ih.2⟩
  | case2 pos h hblank =>
    rw [skipBlanks, dif_pos h, if_neg hblank, drop_eq_cons h,
      Text.trimStart_cons (by simpa using hblank)]
    exact ⟨rfl, Nat.le_refl _⟩
  | case3 pos h =>
    rw [skipBlanks, dif_neg h, List.drop_eq_nil_of_le (Nat.le_of_not_lt h)]
    exact ⟨rfl, Nat.le_refl _⟩

theorem At.drop_skip (h : At source pos s) :
    source.drop (skipBlanks source pos) = Text.trimStart s :=
  (drop_skipBlanks source pos).1.trans h

theorem At.skip (h : At source pos s) : At source (skipBlanks source pos) s := by
  rw [At, h.drop_skip]
  exact List.dropWhile_idempotent ..

/-! ### Groups at the cursor -/

theorem first?_of_trimStart (h : Text.trimStart s = c :: t) :
    ∃ hlt, first? s = some ⟨c, t, hlt⟩ := by
  have hlt : t.length < s.length := by
    have := Text.length_trimStart_le s
    rw [h, List.length_cons] at this
    exact this
  refine ⟨hlt, ?_⟩
  unfold first?
  split
  · next c' t' h' =>
    rw [h, List.cons.injEq] at h'
    obtain ⟨rfl, rfl⟩ := h'
    rfl
  · next h' =>
    rw [h] at h'
    cases h'

theorem first?_of_blank (h : Text.trimStart s = []) : first? s = none := by
  unfold first?
  split
  · next h' =>
    rw [h] at h'
    cases h'
  · rfl

theorem content?_of_some (h : d.content? t = some (inside, rest)) :
    ∃ h₁ h₂, content? d t = some ⟨inside, rest, h₁, h₂⟩ := by
  have heq := congrArg List.length (Delimiters.eq_of_content? h)
  simp only [List.length_append, List.length_cons] at heq
  refine ⟨by omega, by omega, ?_⟩
  unfold content?
  split
  · next i r h' =>
    rw [h, Option.some.injEq, Prod.mk.injEq] at h'
    obtain ⟨rfl, rfl⟩ := h'
    rfl
  · next h' =>
    rw [h] at h'
    cases h'

theorem content?_of_none (h : d.content? t = none) : content? d t = none := by
  unfold content?
  split
  · next h' =>
    rw [h] at h'
    cases h'
  · rfl

/-- Behind a delimiter, the search for the closing one is that of the reader. -/
theorem matchAt?_of_drop (hd : d = .braces ∨ d = .brackets) (h : source.drop pos = d.opening :: t) :
    d.matchAt? source (pos + 1)
      = (d.content? t).map fun (inside, _) => pos + 1 + inside.length + 1 := by
  obtain ⟨hpos, hc, hdrop⟩ := getElem_of_drop h
  have hescaped : ¬ (0 < pos + 1 ∧ source[pos + 1 - 1]? = some '\\') := by
    have hne : d.opening ≠ '\\' := by rcases hd with rfl | rfl <;> decide
    rw [Nat.add_sub_cancel, List.getElem?_eq_getElem hpos, hc]
    simp [hne]
  rw [Delimiters.matchAt?, hdrop, decide_eq_false hescaped]
  rfl

/-- Looking for a group, by what stands at the cursor. -/
theorem At.finds_level (h : At source pos s) (hd : d = .braces ∨ d = .brackets) :
    ((∀ t, Text.trimStart s = d.opening :: t → d.content? t = none) ∧
      readEnclosed d source pos = (none, skipBlanks source pos)) ∨
    ∃ t inside rest next, Text.trimStart s = d.opening :: t ∧ d.content? t = some (inside, rest) ∧
      readEnclosed d source pos = (some inside, next) ∧ source.drop next = rest ∧
      pos + inside.length + 2 ≤ next ∧ next ≤ source.length := by
  have hdrop := h.drop_skip
  have hle := (drop_skipBlanks source pos).2
  rw [readEnclosed]
  rcases htrim : Text.trimStart s with - | ⟨c, t⟩
  · rw [htrim, List.drop_eq_nil_iff] at hdrop
    exact .inl ⟨by simp, by simp [Nat.not_lt.2 hdrop]⟩
  rw [htrim] at hdrop
  obtain ⟨hpos, hc, hbehind⟩ := getElem_of_drop hdrop
  by_cases hopening : c = d.opening
  · subst hopening
    rcases hcontent : d.content? t with - | ⟨inside, rest⟩
    · refine .inl ⟨fun u hu => by rw [← (List.cons.inj hu).2, hcontent], ?_⟩
      simp [hpos, hc, matchAt?_of_drop hd hdrop, hcontent]
    · have ht : source.drop (skipBlanks source pos + 1) = inside ++ d.closing :: rest := by
        rw [hbehind, Delimiters.eq_of_content? hcontent]
      refine .inr ⟨t, inside, rest, skipBlanks source pos + 1 + inside.length + 1, rfl,
        hcontent, ?_, ?_, by omega, ?_⟩
      · have hslice : (source.take (skipBlanks source pos + 1 + inside.length)).drop
            (skipBlanks source pos + 1) = inside := by
          rw [List.drop_take, ht, Nat.add_sub_cancel_left, List.take_left']
          rfl
        simp [hpos, hc, matchAt?_of_drop hd hdrop, hcontent, hslice]
      · rw [Nat.add_assoc _ inside.length, ← List.drop_drop, ht]
        simp
      · have := congrArg List.length ht
        simp only [List.length_drop, List.length_append, List.length_cons] at this
        omega
  · refine .inl ⟨fun u hu => absurd (List.cons.inj hu).1 hopening, ?_⟩
    simp [hpos, hc, hopening]

/-- **Looking for a group finds the group that the reader finds.** -/
theorem At.finds_enclosed (h : At source pos s) (hd : d = .braces ∨ d = .brackets) :
    (enclosed? d s = none ∧ readEnclosed d source pos = (none, skipBlanks source pos)) ∨
    ∃ inside rest h₁ h₂ next, enclosed? d s = some ⟨inside, rest, h₁, h₂⟩ ∧
      readEnclosed d source pos = (some inside, next) ∧ source.drop next = rest ∧
      pos + inside.length + 2 ≤ next ∧ next ≤ source.length := by
  rcases h.finds_level hd with ⟨hnone, hread⟩ | ⟨t, inside, rest, next, htrim, hcontent, hread⟩
  · refine .inl ⟨?_, hread⟩
    rcases htrim : Text.trimStart s with - | ⟨c, t⟩
    · simp [enclosed?, first?_of_blank htrim]
    · obtain ⟨hlt, hfirst⟩ := first?_of_trimStart htrim
      by_cases hc : c = d.opening
      · subst hc
        simp [enclosed?, hfirst, content?_of_none (hnone t htrim)]
      · simp [enclosed?, hfirst, hc]
  · obtain ⟨hlt, hfirst⟩ := first?_of_trimStart htrim
    obtain ⟨h₁, h₂, hinside⟩ := content?_of_some hcontent
    refine .inr ⟨inside, rest, Nat.lt_trans h₁ hlt, Nat.le_trans h₂ (Nat.le_of_lt hlt), next, ?_,
      hread⟩
    simp [enclosed?, hfirst, hinside]

end Cursor

end AnnotatedEquation.Formula
