/-
AnnotatedEquation/Markup/Delimiter.lean

Matching of nested delimiters.  A delimiter that stands directly behind a
backslash is escaped: it neither opens nor closes a level.

* `Delimiters.close?` reads on from inside an open level up to the delimiter
  that closes it;
* `Delimiters.matchAt?` is the same search told in positions of a text, and
  `Delimiters.matchFrom?` admits positions that count from the end.

Main statement: the search loses nothing (`Delimiters.eq_of_close?`).
-/
import AnnotatedEquation.Text.Basic

namespace AnnotatedEquation

/-- A pair of characters that open and close a level of nesting. -/
structure Delimiters where
  opening : Char
  closing : Char
  deriving DecidableEq, Repr

namespace Delimiters

def braces : Delimiters := ⟨'{', '}'⟩

def brackets : Delimiters := ⟨'[', ']'⟩

/-- Reads from inside a level up to the delimiter that closes it, and gives
the text inside the level and the text behind it.  `deeper` further levels
are open inside, and `escaped` tells that a backslash stands before the
text.  A character that is both delimiters only ever opens. -/
def close? (d : Delimiters) (deeper : Nat) (escaped : Bool) : Text → Option (Text × Text)
  | [] => none
  | c :: s =>
    if c = d.opening ∧ ¬ escaped then
      (close? d (deeper + 1) (c = '\\') s).map fun (inside, rest) => (c :: inside, rest)
    else if c = d.closing ∧ ¬ escaped then
      match deeper with
      | 0 => some ([], s)
      | n + 1 => (close? d n (c = '\\') s).map fun (inside, rest) => (c :: inside, rest)
    else
      (close? d deeper (c = '\\') s).map fun (inside, rest) => (c :: inside, rest)

/-- The content of the level opened by a delimiter, and what follows it:
nothing stands before the text but that delimiter. -/
def content? (d : Delimiters) (s : Text) : Option (Text × Text) :=
  d.close? 0 false s

/-- The position behind the delimiter that closes the level opened just
before position `start`. -/
def matchAt? (d : Delimiters) (s : Text) (start : Nat) : Option Nat :=
  let escaped := 0 < start ∧ s[start - 1]? = some '\\'
  (d.close? 0 escaped (s.drop start)).map fun (inside, _) => start + inside.length + 1

/-- How reading from inside a level ends, where nothing is escaped: behind
the closing delimiter after some characters, or at the end of the text with
some further levels open. -/
inductive Progress where
  | closed (length : Nat)
  | pending (deeper : Nat)
  deriving DecidableEq, Repr

/-- The same progress after one more character in front. -/
def Progress.later : Progress → Progress
  | closed length => closed (length + 1)
  | pending deeper => pending deeper

/-- Reads from inside a level, with `deeper` further levels open, a text in
which nothing is escaped. -/
def progress (d : Delimiters) (deeper : Nat) : Text → Progress
  | [] => .pending deeper
  | c :: s =>
    if c = d.opening then (progress d (deeper + 1) s).later
    else if c = d.closing then
      match deeper with
      | 0 => .closed 1
      | n + 1 => (progress d n s).later
    else (progress d deeper s).later

/-- The position behind the delimiter that closes the level, for a search
that begins `back` characters before the end.  Nothing is escaped there, and
positions count from the end; a search that comes to the end goes on at the
front of the text. -/
def matchBack? (d : Delimiters) (s : Text) (back : Nat) : Option Int :=
  if back ≤ s.length then
    match d.progress 0 (s.drop (s.length - back)) with
    | .closed length => some ((length : Int) - back)
    | .pending deeper => (d.close? deeper false s).map fun (inside, _) => (inside.length : Int) + 1
  else none

/-- The position behind the delimiter that closes the level opened just
before position `start`.  A position below zero counts from the end. -/
def matchFrom? (d : Delimiters) (s : Text) : Int → Option Int
  | .ofNat start => (d.matchAt? s start).map fun n => (n : Int)
  | .negSucc n => d.matchBack? s (n + 1)

theorem eq_of_close? {d : Delimiters} {deeper : Nat} {escaped : Bool} {s inside rest : Text}
    (h : d.close? deeper escaped s = some (inside, rest)) :
    s = inside ++ d.closing :: rest := by
  induction s generalizing deeper escaped inside with
  | nil => simp [close?] at h
  | cons c s ih =>
    simp only [close?] at h
    split at h
    · obtain ⟨⟨i, r⟩, hi, he⟩ := Option.map_eq_some_iff.1 h
      simp only [Prod.mk.injEq] at he
      obtain ⟨rfl, rfl⟩ := he
      simpa using ih hi
    · split at h
      · next hc =>
        cases deeper with
        | zero =>
          simp only [Option.some.injEq, Prod.mk.injEq] at h
          obtain ⟨rfl, rfl⟩ := h
          simp [hc.1]
        | succ n =>
          obtain ⟨⟨i, r⟩, hi, he⟩ := Option.map_eq_some_iff.1 h
          simp only [Prod.mk.injEq] at he
          obtain ⟨rfl, rfl⟩ := he
          simpa using ih hi
      · obtain ⟨⟨i, r⟩, hi, he⟩ := Option.map_eq_some_iff.1 h
        simp only [Prod.mk.injEq] at he
        obtain ⟨rfl, rfl⟩ := he
        simpa using ih hi

theorem eq_of_content? {d : Delimiters} {s inside rest : Text}
    (h : d.content? s = some (inside, rest)) : s = inside ++ d.closing :: rest :=
  eq_of_close? h

end Delimiters

end AnnotatedEquation
