/-
AnnotatedEquation/Proofs/Escape/Spelling.lean

Escaped text as a spelling.  What is escaped consists of ordinary characters and
of whole tokens, and is read back token by token, in one way only.

* `Reserved.Dialect` is a set of reserved characters with the tokens that stand
  for them, which can be told apart from each other and from the characters
  that stand for themselves;
* `Reserved.Dialect.Spells` reads a text token by token.

Main statements: escaped text spells the text it was made from, where a dollar
sign that was escaped already counts as a dollar sign
(`Reserved.Dialect.spells_escape_iff`), and so prose with inline math keeps both
its math and its text (`InlineMath.read_escape`).
-/
import AnnotatedEquation.Escape.Html
import AnnotatedEquation.Escape.Reserved
import AnnotatedEquation.Proofs.Escape.Latex
import AnnotatedEquation.Proofs.Escape.Pairing
import AnnotatedEquation.Proofs.Palette.Resolution

namespace AnnotatedEquation

open InlineMath (delimiters between behind delimited Keeps)

namespace Reserved

/-! ### Dialects -/

/-- Reserved characters with the tokens that stand for them.  Every token begins
with a backslash, no token begins another, and none ends in a backslash but that
of the backslash itself. -/
structure Dialect where
  token : Char → Text
  reserved : Text
  token_of_not_mem : ∀ c, c ∉ reserved → token c = [c]
  token_dollar : '$' ∈ reserved ∧ token '$' = ['\\', '$']
  backslash_mem : '\\' ∈ reserved
  starts : ∀ c ∈ reserved, ['\\'] <+: token c
  prefix_free : ∀ c ∈ reserved, ∀ d ∈ reserved, token c <+: token d → c = d
  delimiters_token : ∀ c ∈ reserved, delimiters false (token c) = []
  behind_token : ∀ c ∈ reserved, behind false (token c) → c = '\\'

end Reserved

namespace Typst

/-- The characters that are replaced. -/
def reserved : Text := ['\\', '#', '*', '_', '[', ']', '\x60', '$']

theorem token_of_not_mem_reserved (c : Char) (h : c ∉ reserved) : token c = [c] := if_neg h

end Typst

/-- The tokens of LaTeX. -/
def Latex.dialect : Reserved.Dialect where
  token := token
  reserved := reserved
  token_of_not_mem c h := (token_eq_or_mem c).resolve_right h
  token_dollar := by decide
  backslash_mem := by decide
  starts := by decide
  prefix_free := by decide
  delimiters_token := by decide
  behind_token := by decide

/-- The tokens of Typst. -/
def Typst.dialect : Reserved.Dialect where
  token := token
  reserved := reserved
  token_of_not_mem := token_of_not_mem_reserved
  token_dollar := by decide
  backslash_mem := by decide
  starts := by decide
  prefix_free := by decide
  delimiters_token := by decide
  behind_token := by decide

namespace Reserved

/-- The text with every escaped dollar sign read as a dollar sign. -/
def readDollars : Text → Text
  | [] => []
  | '\\' :: '$' :: s => '$' :: readDollars s
  | c :: s => c :: readDollars s

namespace Dialect

variable (d : Dialect) {s t w : Text} {c : Char} {escaped : Bool}

/-- The text with its reserved characters written by tokens. -/
def escape (s : Text) : Text := Reserved.escape d.token s

/-- A text that is read token by token: a character that is not reserved stands
for itself, and a token for its character. -/
inductive Spells : (written meaning : Text) → Prop
  | nil : Spells [] []
  | ordinary (c : Char) {written meaning : Text} (h : c ∉ d.reserved)
      (rest : Spells written meaning) : Spells (c :: written) (c :: meaning)
  | token (c : Char) {written meaning : Text} (h : c ∈ d.reserved)
      (rest : Spells written meaning) : Spells (d.token c ++ written) (c :: meaning)

/-! ### Reading token by token -/

variable {d}

theorem exists_token_eq_cons (hc : c ∈ d.reserved) : ∃ rest, d.token c = '\\' :: rest := by
  obtain ⟨rest, hrest⟩ := d.starts c hc
  exact ⟨rest, hrest.symm⟩

/-- Tokens that stand in the same place are those of one character. -/
theorem token_append_inj {b : Char} {v : Text} (hb : b ∈ d.reserved) (hc : c ∈ d.reserved)
    (h : d.token b ++ v = d.token c ++ w) : b = c ∧ v = w := by
  have heq : b = c := by
    rcases List.prefix_or_prefix_of_prefix (List.prefix_append (d.token b) v)
      (h ▸ List.prefix_append (d.token c) w) with hbc | hcb
    · exact d.prefix_free b hb c hc hbc
    · exact (d.prefix_free c hc b hb hcb).symm
  subst heq
  exact ⟨rfl, List.append_cancel_left h⟩

theorem Spells.of_nil (h : d.Spells [] t) : t = [] := by
  generalize hw : ([] : Text) = w at h
  cases h with
  | nil => rfl
  | ordinary c hc rest => cases hw
  | token c hc rest =>
    obtain ⟨front, hfront⟩ := exists_token_eq_cons hc
    simp [hfront] at hw

theorem Spells.of_ordinary (hc : c ∉ d.reserved) (h : d.Spells (c :: w) t) :
    ∃ meaning, t = c :: meaning ∧ d.Spells w meaning := by
  generalize hw : c :: w = v at h
  cases h with
  | nil => cases hw
  | ordinary b hb rest =>
    cases hw
    exact ⟨_, rfl, rest⟩
  | token b hb rest =>
    -- the token would begin with a backslash, which is reserved
    obtain ⟨front, hfront⟩ := exists_token_eq_cons hb
    rw [hfront, List.cons_append] at hw
    cases hw
    exact (hc d.backslash_mem).elim

theorem Spells.of_token (hc : c ∈ d.reserved) (h : d.Spells (d.token c ++ w) t) :
    ∃ meaning, t = c :: meaning ∧ d.Spells w meaning := by
  generalize hw : d.token c ++ w = v at h
  cases h with
  | nil =>
    obtain ⟨front, hfront⟩ := exists_token_eq_cons hc
    simp [hfront] at hw
  | ordinary b hb rest =>
    obtain ⟨front, hfront⟩ := exists_token_eq_cons hc
    rw [hfront, List.cons_append] at hw
    cases hw
    exact (hb d.backslash_mem).elim
  | token b hb rest =>
    obtain ⟨rfl, rfl⟩ := token_append_inj hc hb hw
    exact ⟨_, rfl, rest⟩

/-- A text is read in one way only. -/
theorem Spells.unique {t' : Text} (h : d.Spells w t) (h' : d.Spells w t') : t = t' := by
  induction h generalizing t' with
  | nil => exact h'.of_nil.symm
  | ordinary c hc rest ih =>
    obtain ⟨meaning, rfl, hmeaning⟩ := h'.of_ordinary hc
    rw [ih hmeaning]
  | token c hc rest ih =>
    obtain ⟨meaning, rfl, hmeaning⟩ := h'.of_token hc
    rw [ih hmeaning]

theorem spells_escape (s : Text) : d.Spells (d.escape s) (readDollars s) := by
  rw [escape]
  fun_induction Reserved.escape d.token s with
  | case1 => exact .nil
  | case2 s ih =>
    have hdollar := Spells.token '$' d.token_dollar.1 ih
    rwa [d.token_dollar.2] at hdollar
  | case3 c s hne ih =>
    rw [readDollars.eq_3 c s hne]
    by_cases hc : c ∈ d.reserved
    · exact .token c hc ih
    · rw [d.token_of_not_mem c hc]
      exact .ordinary c hc ih

/-- **Escaped text is read back in one way**, as the text it was made from. -/
theorem spells_escape_iff : d.Spells (d.escape s) t ↔ t = readDollars s := by
  constructor
  · exact fun h => h.unique (spells_escape s)
  · rintro rfl
    exact spells_escape s

/-! ### Delimiters -/

theorem delimiters_token_append (c : Char) (w : Text) (hc : c ∈ d.reserved) :
    delimiters escaped (d.token c ++ w) =
      (delimiters (behind false (d.token c)) w).map (· + (d.token c).length) := by
  obtain ⟨front, hfront⟩ := exists_token_eq_cons hc
  -- a token begins with a backslash, so that what stands before it does not matter
  have hclear : delimiters escaped (d.token c) = delimiters false (d.token c) := by
    simp [hfront, InlineMath.delimiters_cons]
  have hbehind : behind escaped (d.token c) = behind false (d.token c) := by
    simp [hfront]
  rw [InlineMath.delimiters_append, hclear, d.delimiters_token c hc, hbehind, List.nil_append]

/-- Escaped text holds no delimiter. -/
theorem delimiters_escape (s : Text) : delimiters escaped (d.escape s) = [] := by
  rw [escape]
  fun_induction Reserved.escape d.token s generalizing escaped with
  | case1 => rfl
  | case2 s ih => simp [InlineMath.delimiters_cons, ih]
  | case3 c s hne ih =>
    by_cases hc : c ∈ d.reserved
    · rw [delimiters_token_append c _ hc, ih, List.map_nil]
    · have hdollar : c ≠ '$' := by
        rintro rfl
        exact hc d.token_dollar.1
      rw [d.token_of_not_mem c hc, List.singleton_append, InlineMath.delimiters_cons, ih]
      simp [hdollar]

/-- Escaped text ends in a backslash only if the text does. -/
theorem behind_escape {escaped' : Bool} (hescaped : escaped → escaped')
    (h : behind escaped' s = false) : behind escaped (d.escape s) = false := by
  rw [escape]
  fun_induction Reserved.escape d.token s generalizing escaped escaped' with
  | case1 => simp_all
  | case2 s ih => exact ih (by simp) h
  | case3 c s hne ih =>
    rw [InlineMath.behind_append]
    refine ih (fun hbehind => ?_) h
    by_cases hc : c ∈ d.reserved
    · obtain ⟨front, hfront⟩ := exists_token_eq_cons hc
      have htoken : behind escaped (d.token c) = behind false (d.token c) := by simp [hfront]
      exact decide_eq_true (d.behind_token c hc (htoken ▸ hbehind))
    · rw [d.token_of_not_mem c hc] at hbehind
      exact hbehind

theorem keeps_escape (d : Dialect) : Keeps d.escape where
  clear _ := delimiters_escape _
  ends _ h := behind_escape id h

/-- A dollar sign that is not behind a backslash may be escaped apart from the
text before it. -/
theorem escape_append_dollar {u : Text} (v : Text) (h : behind escaped u = false) :
    d.escape (u ++ '$' :: v) = d.escape u ++ d.escape ('$' :: v) := by
  rw [escape, escape, escape]
  fun_induction Reserved.escape d.token u generalizing escaped with
  | case1 => rfl
  | case2 u ih =>
    rw [List.cons_append, List.cons_append, Reserved.escape, ih h]
    rfl
  | case3 c u hne ih =>
    have hne' : ∀ rest, c = '\\' → u ++ '$' :: v = '$' :: rest → False := by
      rintro rest rfl hrest
      cases u with
      | nil => simp at h
      | cons b u =>
        obtain ⟨rfl, -⟩ := List.cons.inj hrest
        exact hne u rfl rfl
    rw [List.cons_append, Reserved.escape.eq_3 _ c _ hne', ih h, List.append_assoc]

end Dialect

end Reserved

/-! ### Prose with inline math -/

theorem Html.escape_append (s t : Text) : escape (s ++ t) = escape s ++ escape t :=
  List.flatMap_append

namespace InlineMath

/-- **Escaping loses nothing and leaves math alone.**  The pieces of a text are
told by the places of its delimiters.  Prose is put together from the pieces,
each in its writing, or refused with the first math that is refused, and a
dollar sign without a partner may be escaped apart from the text before it.
With math left between its dollar signs, escaped prose falls into the pieces it
was made from, has no other delimiter, and every piece of text in it is read
back token by token. -/
theorem read_escape (s : Text) :
    let p := between s 0 (delimiters false s)
    (∀ escape ∈ [Html.escape, Latex.escape, Typst.escape],
      (∀ writeMath, (read s).render escape writeMath =
        escape p.first ++ p.rest.flatMap fun (math, text) => writeMath math ++ escape text) ∧
      (∀ (refusal? : Text → Option Failure) (writeMath : Text → Text),
        (read s).renderM escape (fun math => guarded (refusal? math) (writeMath math)) =
          guarded (p.rest.findSome? fun piece => refusal? piece.1)
            (escape p.first ++ p.rest.flatMap fun (math, text) => writeMath math ++ escape text)) ∧
      ∀ u v, u.getLast? ≠ some '\\' → escape (u ++ '$' :: v) = escape u ++ escape ('$' :: v)) ∧
    ∀ escape d, (escape, d) ∈ [(Latex.escape, Latex.dialect), (Typst.escape, Typst.dialect)] →
      let written := (read s).render escape delimited
      between written 0 (delimiters false written) =
          ⟨escape p.first, p.rest.map fun (math, text) => (math, escape text)⟩ ∧
        (delimiters false written).length = 2 * p.rest.length ∧
        ∀ text ∈ p.first :: p.rest.map Prod.snd, ∀ meaning,
          d.Spells (escape text) meaning ↔ meaning = Reserved.readDollars text := by
  intro p
  have hp : read s = p := read_eq_between s
  constructor
  · intro escape hescape
    rw [hp]
    refine ⟨fun writeMath => rfl, fun refusal? writeMath => renderM_guarded (fun _ => rfl) _, ?_⟩
    intro u v hu
    have hbehind := behind_false_iff.2 hu
    simp only [List.mem_cons, List.not_mem_nil, or_false] at hescape
    rcases hescape with rfl | rfl | rfl
    · exact Html.escape_append u ('$' :: v)
    · exact Latex.dialect.escape_append_dollar v hbehind
    · exact Typst.dialect.escape_append_dollar v hbehind
  · intro escape d hd
    obtain rfl : escape = d.escape := by
      simp only [List.mem_cons, List.not_mem_nil, or_false, Prod.mk.injEq] at hd
      rcases hd with ⟨rfl, rfl⟩ | ⟨rfl, rfl⟩ <;> rfl
    intro written
    refine ⟨?_, ?_, fun text _ meaning => Reserved.Dialect.spells_escape_iff⟩
    · rw [← read_eq_between, read_render d.keeps_escape, hp]
    · rw [length_delimiters_render d.keeps_escape, hp]

end InlineMath

end AnnotatedEquation
