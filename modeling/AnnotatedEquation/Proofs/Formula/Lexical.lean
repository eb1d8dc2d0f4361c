/-
AnnotatedEquation/Proofs/Formula/Lexical.lean

The lexical rules of math in Typst notation, as far as they tell where strings,
parentheses and content blocks begin and end.

A backslash makes the next character literal, and a quote opens a string up to
the next quote that is not behind a backslash.  A content block with math in it
begins with `[$` directly behind a call and ends with `$]`; a dollar sign that
is neither ends the math that it stands in.

* `Lexical.tokens` are the tokens that are read in a text, and `Lexical.after`
  is the state that reading it ends in;
* `Lexical.Writes` tells of a text that begins and ends like an item of a
  formula, and which of its tokens are marks: parentheses, commas and ends of
  blocks.

Main statements: reading goes through one text after the other
(`tokens_append`, `after_append`), and the ways in which items are put together
keep their marks (`Writes.append_separator`, `Writes.enclose`).
-/
import AnnotatedEquation.Formula.Typst

namespace AnnotatedEquation

namespace Lexical

/-! ### Tokens -/

inductive MathToken where
  | char (c : Char)
  /-- A character that a backslash makes literal. -/
  | literal
  /-- A string between quotes. -/
  | quoted
  /-- The dollar sign of `[$` directly behind a call. -/
  | opening
  /-- The dollar sign and the bracket of `$]`. -/
  | closing
  /-- Any other dollar sign. -/
  | stray
  deriving DecidableEq, Repr

/-- Where reading stands. -/
inductive Mode where
  | plain
  /-- Directly behind a `)`. -/
  | call
  /-- Directly behind a `)[`. -/
  | content
  /-- Directly behind a dollar sign that opens no block. -/
  | dollar
  /-- Directly behind a backslash. -/
  | escaped
  /-- Inside a string. -/
  | quoted
  /-- Inside a string, directly behind a backslash. -/
  | quotedEscaped
  deriving DecidableEq, Repr

/-- Reads a character that means the same wherever math is read. -/
def readPlain (c : Char) : List MathToken × Mode :=
  if c = '\\' then ([], .escaped)
  else if c = '"' then ([], .quoted)
  else if c = '$' then ([], .dollar)
  else if c = ')' then ([.char c], .call)
  else ([.char c], .plain)

/-- Reads one character: the tokens that it completes, and where reading stands
behind it. -/
def Mode.read : Mode → Char → List MathToken × Mode
  | .plain, c => readPlain c
  | .call, c => if c = '[' then ([.char c], .content) else readPlain c
  | .content, c => if c = '$' then ([.opening], .plain) else readPlain c
  | .dollar, c =>
    if c = ']' then ([.closing], .plain) else (.stray :: (readPlain c).1, (readPlain c).2)
  | .escaped, _ => ([.literal], .plain)
  | .quoted, c =>
    if c = '\\' then ([], .quotedEscaped)
    else if c = '"' then ([.quoted], .plain)
    else ([], .quoted)
  | .quotedEscaped, _ => ([], .quoted)

/-- Where reading stands behind a text. -/
def after (m : Mode) : Text → Mode
  | [] => m
  | c :: s => after (m.read c).2 s

/-- The tokens that reading a text completes. -/
def tokens (m : Mode) : Text → List MathToken
  | [] => []
  | c :: s => (m.read c).1 ++ tokens (m.read c).2 s

variable {s t : Text} {c : Char} {m : Mode} {ms ns : List MathToken}

@[simp] theorem after_nil (m : Mode) : after m [] = m := rfl

@[simp] theorem tokens_nil (m : Mode) : tokens m [] = [] := rfl

theorem after_append (m : Mode) (s t : Text) : after m (s ++ t) = after (after m s) t := by
  induction s generalizing m with
  | nil => rfl
  | cons c s ih => exact ih _

theorem tokens_append (m : Mode) (s t : Text) :
    tokens m (s ++ t) = tokens m s ++ tokens (after m s) t := by
  induction s generalizing m with
  | nil => rfl
  | cons c s ih => simp [tokens, after, ih]

/-- The text ends in a backslash that makes the next character literal. -/
def Dangles (s : Text) : Prop := after .plain s = .escaped

instance (s : Text) : Decidable (Dangles s) := inferInstanceAs (Decidable (_ = _))

/-! ### Marks -/

/-- The token is a dollar sign that means something. -/
def MathToken.IsDollar (t : MathToken) : Prop := t ∈ [.opening, .closing, .stray]

instance : DecidablePred MathToken.IsDollar := fun t => inferInstanceAs (Decidable (t ∈ _))

/-- Parentheses, commas and the ends of blocks. -/
def MathToken.isMark : MathToken → Bool
  | .char c => c = '(' || c = ')' || c = ','
  | .opening | .closing | .stray => true
  | .literal | .quoted => false

/-- The marks that are read in a text. -/
def marks (s : Text) : List MathToken := (tokens .plain s).filter MathToken.isMark

/-- Modes that an item of a formula can end in. -/
def Mode.IsSettled (m : Mode) : Prop := m = .plain ∨ m = .call ∨ m = .escaped

/-- Reading the text finds the marks `ms`, and ends outside of strings and of
the ends of blocks. -/
structure Writes (s : Text) (ms : List MathToken) : Prop where
  marks_eq : marks s = ms
  settled : (after .plain s).IsSettled

/-- The closing delimiter behind a text, if it is read as one. -/
def closeBehind (s : Text) (c : Char) : List MathToken := if Dangles s then [] else [.char c]

/-- Characters that are no marks, and begin or end nothing. -/
def IsNeutral (c : Char) : Prop := c ∉ ['\\', '"', '$', '(', ')', ',', '[']

instance : DecidablePred IsNeutral := fun c => inferInstanceAs (Decidable (c ∉ _))

theorem IsNeutral.readPlain (hc : IsNeutral c) : readPlain c = ([.char c], .plain) := by
  simp only [IsNeutral, List.mem_cons, not_or] at hc
  simp [Lexical.readPlain, hc]

theorem IsNeutral.isMark (hc : IsNeutral c) : (MathToken.char c).isMark = false := by
  simp only [IsNeutral, List.mem_cons, not_or] at hc
  simp [MathToken.isMark, hc]

/-- A neutral character behind an item is read as itself, or is made literal. -/
theorem IsNeutral.read (hc : IsNeutral c) (hm : m.IsSettled) :
    ((m.read c).1.filter MathToken.isMark = []) ∧ (m.read c).2 = .plain := by
  have hbracket : c ≠ '[' := by
    simp only [IsNeutral, List.mem_cons, not_or] at hc
    exact hc.2.2.2.2.2.2.1
  rcases hm with rfl | rfl | rfl
  · simp [Mode.read, hc.readPlain, hc.isMark]
  · simp [Mode.read, hbracket, hc.readPlain, hc.isMark]
  · simp [Mode.read, MathToken.isMark]

theorem writes_nil : Writes [] [] := ⟨rfl, .inl rfl⟩

theorem after_of_neutral (hs : ∀ c ∈ s, IsNeutral c) : after .plain s = .plain := by
  induction s with
  | nil => rfl
  | cons c s ih =>
    rw [after, (hs c (by simp)).read (.inl rfl) |>.2]
    exact ih fun x hx => hs x (by simp [hx])

theorem tokens_of_neutral (hs : ∀ c ∈ s, IsNeutral c) : tokens .plain s = s.map .char := by
  induction s with
  | nil => rfl
  | cons c s ih =>
    rw [tokens, Mode.read, (hs c (by simp)).readPlain, ih fun x hx => hs x (by simp [hx])]
    rfl

theorem marks_of_neutral (hs : ∀ c ∈ s, IsNeutral c) : marks s = [] := by
  rw [marks, tokens_of_neutral hs, List.filter_eq_nil_iff]
  intro t ht
  obtain ⟨c, hc, rfl⟩ := List.mem_map.1 ht
  simp [(hs c hc).isMark]

theorem writes_of_neutral (hs : ∀ c ∈ s, IsNeutral c) : Writes s [] :=
  ⟨marks_of_neutral hs, .inl (after_of_neutral hs)⟩

/-! ### Putting items together -/

theorem marks_append (s t : Text) :
    marks (s ++ t) = marks s ++ (tokens (after .plain s) t).filter MathToken.isMark := by
  rw [marks, tokens_append, List.filter_append, marks]

/-- A text begins anew where the one before it ends plainly. -/
theorem Writes.append (hs : Writes s ms) (hplain : after .plain s = .plain) (ht : Writes t ns) :
    Writes (s ++ t) (ms ++ ns) := by
  constructor
  · rw [marks_append, hplain, hs.marks_eq, ← ht.marks_eq, marks]
  · rw [after_append, hplain]
    exact ht.settled

/-- A neutral character ends the item before it. -/
theorem Writes.concat (hs : Writes s ms) (hc : IsNeutral c) :
    Writes (s ++ [c]) ms ∧ after .plain (s ++ [c]) = .plain := by
  obtain ⟨hmarks, hmode⟩ := hc.read hs.settled
  have hplain : after .plain (s ++ [c]) = .plain := by rw [after_append, after, hmode, after_nil]
  refine ⟨⟨?_, .inl hplain⟩, hplain⟩
  simp [marks_append, tokens, hmarks, hs.marks_eq]

theorem Writes.append_separator (hs : Writes s ms) (hc : IsNeutral c) (ht : Writes t ns) :
    Writes (s ++ c :: t) (ms ++ ns) := by
  obtain ⟨hconcat, hplain⟩ := hs.concat hc
  have := hconcat.append hplain ht
  rwa [List.append_assoc, List.singleton_append] at this

/-- A delimiter behind an item is read as such, unless the item dangles. -/
theorem Writes.concat_delimiter (hs : Writes s ms) (hc : c = ',' ∨ c = ')') :
    Writes (s ++ [c]) (ms ++ closeBehind s c) := by
  have hclose : ((after .plain s).read c).1.filter MathToken.isMark = closeBehind s c ∧
      (((after .plain s).read c).2).IsSettled := by
    rcases hs.settled with h | h | h <;> rcases hc with rfl | rfl <;>
      simp [closeBehind, Dangles, h, Mode.read, readPlain, Mode.IsSettled, MathToken.isMark]
  constructor
  · rw [marks_append, tokens, tokens_nil, List.append_nil, hclose.1, hs.marks_eq]
  · rw [after_append, after, after_nil]
    exact hclose.2

/-- A delimiter behind an item that does not dangle is read as such. -/
theorem tokens_concat_delimiter (hs : (after .plain s).IsSettled) (hends : ¬ Dangles s)
    (hc : c = ',' ∨ c = ')') : tokens .plain (s ++ [c]) = tokens .plain s ++ [.char c] := by
  rw [tokens_append]
  rcases hs with h | h | h
  · rcases hc with rfl | rfl <;> rw [h] <;> rfl
  · rcases hc with rfl | rfl <;> rw [h] <;> rfl
  · exact absurd h hends

theorem after_concat_closing (hs : (after .plain s).IsSettled) (hends : ¬ Dangles s) :
    after .plain (s ++ [')']) = .call := by
  rw [after_append]
  rcases hs with h | h | h
  · rw [h]; rfl
  · rw [h]; rfl
  · exact absurd h hends

/-- An item between parentheses that does not dangle. -/
theorem tokens_enclose (hs : (after .plain s).IsSettled) (hends : ¬ Dangles s) :
    tokens .plain ('(' :: (s ++ [')'])) = .char '(' :: (tokens .plain s ++ [.char ')']) ∧
      after .plain ('(' :: (s ++ [')'])) = .call := by
  rw [← tokens_concat_delimiter hs hends (.inr rfl)]
  exact ⟨rfl, after_concat_closing hs hends⟩

theorem after_concat_comma (hs : (after .plain s).IsSettled) :
    after .plain (s ++ [',']) = .plain := by
  rw [after_append]
  rcases hs with h | h | h <;> rw [h] <;> rfl

theorem Writes.enclose (hs : Writes s ms) :
    Writes ('(' :: (s ++ [')'])) (.char '(' :: (ms ++ closeBehind s ')')) := by
  have hopen : Writes ['('] [.char '('] := ⟨rfl, .inl rfl⟩
  exact hopen.append rfl (hs.concat_delimiter (.inr rfl))

/-- Two items between parentheses, with a comma between them. -/
theorem Writes.enclose_pair (hs : Writes s ms) (ht : Writes t ns) :
    Writes ('(' :: (s ++ ',' :: ' ' :: (t ++ [')'])))
      (.char '(' :: (ms ++ closeBehind s ',' ++ (ns ++ closeBehind t ')'))) := by
  have hopen : Writes ['('] [.char '('] := ⟨rfl, .inl rfl⟩
  have hcomma := hs.concat_delimiter (.inl rfl)
  have hspace : Writes (' ' :: (t ++ [')'])) (ns ++ closeBehind t ')') :=
    (writes_nil.append_separator (c := ' ') (by decide) (ht.concat_delimiter (.inr rfl)))
  have := hopen.append rfl (hcomma.append (after_concat_comma hs.settled) hspace)
  simpa using this

/-! ### Strings -/

/-- What stands between the quotes is read up to its end. -/
theorem after_quotedBody (raw : Text) :
    after .quoted (raw.flatMap fun c => if c = '"' ∨ c = '\\' then ['\\', c] else [c]) = .quoted ∧
      tokens .quoted (raw.flatMap fun c => if c = '"' ∨ c = '\\' then ['\\', c] else [c]) = [] := by
  induction raw with
  | nil => exact ⟨rfl, rfl⟩
  | cons c raw ih =>
    rw [List.flatMap_cons, after_append, tokens_append]
    have hc : after .quoted (if c = '"' ∨ c = '\\' then ['\\', c] else [c]) = .quoted ∧
        tokens .quoted (if c = '"' ∨ c = '\\' then ['\\', c] else [c]) = [] := by
      by_cases hc : c = '"' ∨ c = '\\'
      · simp [hc, after, tokens, Mode.read]
      · obtain ⟨hquote, hbackslash⟩ := not_or.1 hc
        simp [after, tokens, Mode.read, hquote, hbackslash]
    rw [hc.1, hc.2]
    exact ⟨ih.1, ih.2⟩

/-- A quoted text is one string, whatever it holds. -/
theorem tokens_quotedText (raw : Text) :
    tokens .plain (Formula.quotedText raw) = [.quoted] ∧
      after .plain (Formula.quotedText raw) = .plain := by
  obtain ⟨hafter, htokens⟩ := after_quotedBody raw
  have hopen : after .plain ['"'] = .quoted ∧ tokens .plain ['"'] = [] := ⟨rfl, rfl⟩
  have hclose : after .quoted ['"'] = .plain ∧ tokens .quoted ['"'] = [.quoted] := ⟨rfl, rfl⟩
  simp only [Formula.quotedText, tokens_append, after_append, hopen, hafter, htokens, hclose,
    List.nil_append, and_self]

theorem writes_quotedText (raw : Text) : Writes (Formula.quotedText raw) [] := by
  obtain ⟨htokens, hafter⟩ := tokens_quotedText raw
  exact ⟨by rw [marks, htokens]; rfl, .inl hafter⟩

end Lexical

end AnnotatedEquation
