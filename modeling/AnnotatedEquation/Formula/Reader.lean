/-
AnnotatedEquation/Formula/Reader.lean

Reading formulas in LaTeX notation.

A step reads one node: a character, a number, a group in braces, a script
with its argument, or a command with its arguments.  An argument is a group,
or else a single command or character.  Blanks separate and are dropped.
Every text has a reading, but for one thing: a digit that can stand in no
number is refused.

Every step ends within its text, which `Front` carries along, so that
reading ends.
-/
import AnnotatedEquation.Formula.Basic
import AnnotatedEquation.Markup.Delimiter
import AnnotatedEquation.Text.Blank
import AnnotatedEquation.Text.Digit

namespace AnnotatedEquation.Formula

/-! ### Fronts of texts -/

/-- What was read at the front of a text of a length up to `bound`, with
what follows it. -/
structure Front (α : Type) (bound : Nat) where
  value : α
  rest : Text
  le_bound : rest.length ≤ bound

namespace Front

variable {α : Type} {n bound : Nat}

/-- What was read, where all of `rest` follows it. -/
def of (value : α) (rest : Text) : Front α rest.length := ⟨value, rest, Nat.le_refl _⟩

/-- What was read, where nothing follows it. -/
def last (value : α) : Front α bound := ⟨value, [], Nat.zero_le _⟩

/-- The same front, seen in a text that is no shorter. -/
def within (f : Front α n) (h : n ≤ bound) : Front α bound :=
  ⟨f.value, f.rest, Nat.le_trans f.le_bound h⟩

/-- The same front, seen in a longer text. -/
def inside (f : Front α n) (h : n < bound) : Front α bound := f.within (Nat.le_of_lt h)

end Front

/-- The content of a level of delimiters, and what follows the level, in a
text of a length up to `bound`. -/
structure Enclosed (bound : Nat) where
  inside : Text
  rest : Text
  inside_lt : inside.length < bound
  rest_le : rest.length ≤ bound

/-- The first character of a text, blanks aside, and what follows it. -/
structure First (bound : Nat) where
  char : Char
  rest : Text
  rest_lt : rest.length < bound

/-! ### Parts of commands -/

/-- A letter of a command. -/
def isLetter (c : Char) : Bool := ('a' ≤ c && c ≤ 'z') || ('A' ≤ c && c ≤ 'Z')

/-- A number in front of a text, with its decimals if it has any. -/
def number (s : Text) : Front Text s.length :=
  let whole := s.takeWhile Text.isDecimal
  match h : s.dropWhile Text.isDecimal with
  | '.' :: t =>
    if t.takeWhile Text.isDecimal = [] then
      ⟨whole, s.dropWhile Text.isDecimal, (List.dropWhile_suffix _).length_le⟩
    else
      ⟨whole ++ '.' :: t.takeWhile Text.isDecimal, t.dropWhile Text.isDecimal, by
        have h₁ := (List.dropWhile_suffix (l := s) Text.isDecimal).length_le
        have h₂ := (List.dropWhile_suffix (l := t) Text.isDecimal).length_le
        rw [h] at h₁
        simp only [List.length_cons] at h₁
        omega⟩
  | _ => ⟨whole, s.dropWhile Text.isDecimal, (List.dropWhile_suffix _).length_le⟩

/-- The content of a level whose opening delimiter has been read. -/
def content? (d : Delimiters) (s : Text) : Option (Enclosed s.length) :=
  match h : d.content? s with
  | some (inside, rest) =>
    have bound : inside.length + rest.length + 1 = s.length := by
      rw [Delimiters.eq_of_content? h, List.length_append, List.length_cons, Nat.add_assoc]
    some ⟨inside, rest, by omega, by omega⟩
  | none => none

/-- The first character of a text, blanks aside. -/
def first? (s : Text) : Option (First s.length) :=
  match h : Text.trimStart s with
  | c :: t =>
    have bound : (c :: t).length ≤ s.length := h ▸ Text.length_trimStart_le s
    some ⟨c, t, bound⟩
  | [] => none

/-- The content of the level of delimiters in front of a text, blanks
aside. -/
def enclosed? (d : Delimiters) (s : Text) : Option (Enclosed s.length) := do
  let ⟨c, t, h⟩ ← first? s
  if c = d.opening then
    let ⟨inside, rest, h₁, h₂⟩ ← content? d t
    some ⟨inside, rest, Nat.lt_trans h₁ h, Nat.le_trans h₂ (Nat.le_of_lt h)⟩
  else none

/-- The content of a group in braces, not read; empty if there is none. -/
def rawGroup (s : Text) : Front Text s.length :=
  match enclosed? .braces s with
  | some ⟨inside, rest, _, h⟩ => ⟨inside, rest, h⟩
  | none => .of [] s

/-- What follows a layout command. -/
def afterLayout (swallowsDot : Bool) (s : Text) : Front Unit s.length :=
  match first? s with
  | some ⟨'.', t, h⟩ => if swallowsDot then Front.inside (.of () t) h else .of () s
  | _ => .of () s

/-- The character behind a backslash that is no letter, if there is one. -/
def symbolCommand : (s : Text) → Front Node s.length
  | [] => .of (.symbol none) []
  | c :: s => Front.inside (.of (.symbol (some c)) s) (Nat.lt_succ_self _)

/-- The name of the command in front of a text that follows a backslash.  A
star behind the name belongs to the command and is dropped. -/
def commandName (s : Text) : Front Text s.length :=
  match h : s.dropWhile isLetter with
  | '*' :: t =>
    ⟨s.takeWhile isLetter, t, by
      have := (List.dropWhile_suffix (l := s) isLetter).length_le
      rw [h] at this
      simp only [List.length_cons] at this
      omega⟩
  | _ => ⟨s.takeWhile isLetter, s.dropWhile isLetter, (List.dropWhile_suffix _).length_le⟩

/-! ### Nodes -/

/-- A character that is read without what follows it.  A digit that can
stand in no number is refused. -/
def leaf (c : Char) : Except Char Node :=
  if c = '^' ∨ c = '_' then .ok (.script c [])
  else if c = '\'' then .ok .prime
  else if Text.isDecimal c then .ok (.number [c])
  else if Text.isOddDigit c then .error c
  else .ok (.char c)

mutual

/-- The nodes of a text. -/
def read (s : Text) : Except Char Formula :=
  match s with
  | [] => .ok []
  | c :: s =>
    if Text.isBlank c then read s
    else do
      let ⟨node, rest, _⟩ ← step c s
      return node :: (← read rest)
termination_by 3 * s.length
decreasing_by all_goals rw [List.length_cons]; omega

/-- The node that begins with a character. -/
def step (c : Char) (s : Text) : Except Char (Front Node s.length) :=
  if c = '\\' then command s
  else if c = '{' then
    match content? .braces s with
    | some ⟨inside, rest, _, h⟩ => do return ⟨.group (← read inside), rest, h⟩
    | none => .ok (.of (.char c) s)
  else if c = '^' ∨ c = '_' then do
    let ⟨argument, rest, h⟩ ← argument s
    return ⟨.script c argument, rest, h⟩
  else if Text.isDecimal c then
    let ⟨digits, rest, h⟩ := number s
    .ok ⟨.number (c :: digits), rest, h⟩
  else do return .of (← leaf c) s
termination_by 3 * s.length + 2
decreasing_by all_goals omega

/-- The argument in front of a text. -/
def argument (s : Text) : Except Char (Front Formula s.length) :=
  match enclosed? .braces s with
  | some ⟨inside, rest, _, h⟩ => do return ⟨← read inside, rest, h⟩
  | none =>
    match first? s with
    | none => .ok (.last [])
    | some ⟨c, t, h⟩ =>
      if c = '\\' then do
        let ⟨node, rest, h₁⟩ ← command t
        return Front.inside ⟨[node], rest, h₁⟩ h
      else do return Front.inside (.of [← leaf c] t) h
termination_by 3 * s.length
decreasing_by all_goals omega

/-- The command behind a backslash. -/
def command (s : Text) : Except Char (Front Node s.length) :=
  let ⟨name, rest, h⟩ := commandName s
  if name = [] then .ok (symbolCommand s)
  else
    match CommandClass.of name with
    | .layout swallowsDot =>
      let ⟨_, rest, h₁⟩ := afterLayout swallowsDot rest
      .ok (Front.within ⟨.layout, rest, h₁⟩ h)
    | .fraction => do
      let ⟨top, rest, h₁⟩ ← argument rest
      let ⟨bottom, rest, h₂⟩ ← argument rest
      return (Front.within ⟨.fraction top bottom, rest, h₂⟩ h₁).within h
    | .binomial => do
      let ⟨top, rest, h₁⟩ ← argument rest
      let ⟨bottom, rest, h₂⟩ ← argument rest
      return (Front.within ⟨.binomial top bottom, rest, h₂⟩ h₁).within h
    | .root =>
      match enclosed? .brackets rest with
      | some ⟨degree, rest, _, h₁⟩ => do
        let ⟨radicand, rest, h₂⟩ ← argument rest
        return (Front.within ⟨.root (← read degree) radicand, rest, h₂⟩ h₁).within h
      | none => do
        let ⟨radicand, rest, h₁⟩ ← argument rest
        return (Front.within ⟨.sqrt radicand, rest, h₁⟩ h)
    | .text =>
      let ⟨raw, rest, h₁⟩ := rawGroup rest
      .ok (Front.within ⟨.text raw, rest, h₁⟩ h)
    | .operator =>
      let ⟨raw, rest, h₁⟩ := rawGroup rest
      .ok (Front.within ⟨.operator raw, rest, h₁⟩ h)
    | .textColor => do
      let ⟨color, rest, h₁⟩ := rawGroup rest
      let ⟨body, rest, h₂⟩ ← argument rest
      return (Front.within ⟨.colored color body, rest, h₂⟩ h₁).within h
    | .restColor => do
      let ⟨color, rest, _⟩ := rawGroup rest
      return .last (.colored color (← read rest))
    | .htmlClass => do
      let ⟨_, rest, h₁⟩ := rawGroup rest
      let ⟨body, rest, h₂⟩ ← argument rest
      return (Front.within ⟨.classed body, rest, h₂⟩ h₁).within h
    | .function => do
      let ⟨argument, rest, h₁⟩ ← argument rest
      return Front.within ⟨.apply name argument, rest, h₁⟩ h
    | .symbol => .ok ⟨.named name, rest, h⟩
termination_by 3 * s.length + 1
decreasing_by all_goals omega

end

end AnnotatedEquation.Formula
