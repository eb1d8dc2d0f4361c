/-
AnnotatedEquation/Proofs/Formula/Operand.lean

What a script consists of, and what it is put on.

A script reaches as far as one operand does: a word, a string, or anything in
parentheses.  Marks of scripts and fractions inside of parentheses concern the
inside alone, and no operand has such a mark outside (`OneOperand.unmarked`).

Main statement: of a group, one operand is made, unless it is written as a word
with an underscore, or as nothing before a script; a fraction never is one
operand (`operands_of_groups`).
-/
import AnnotatedEquation.Proofs.Formula.Arguments

namespace AnnotatedEquation

open Lexical

namespace Formula

variable {s t u : Text}

/-! ### Operands -/

/-- The text is one operand: a word of letters, digits and dots, a string, or a
balanced text in parentheses. -/
inductive OneOperand (s : Text) : Prop
  | word : s ≠ [] → (∀ c ∈ s, Text.isWord c ∧ c ≠ '_' ∨ c = '.') → OneOperand s
  | quoted : tokens .plain s = [.quoted] → after .plain s = .plain → OneOperand s
  | enclosed (ts : List MathToken) : tokens .plain s = .char '(' :: (ts ++ [.char ')']) →
      IsBalanced ts → after .plain s = .call → OneOperand s

/-- The text is a word with an underscore, which begins a subscript. -/
def IsUnderscored (t : Text) : Prop := '_' ∈ t ∧ ∀ c ∈ t, isNameChar c

instance (t : Text) : Decidable (IsUnderscored t) := inferInstanceAs (Decidable (_ ∧ _))

/-- No mark of a script or a fraction stands outside of parentheses. -/
def Unmarked (s : Text) : Prop := ∀ c ∈ ['^', '_', '/'], exposed c [] (tokens .plain s) = 0

instance (s : Text) : Decidable (Unmarked s) :=
  inferInstanceAs (Decidable (∀ c ∈ ['^', '_', '/'], _))

/-- All neutral characters stand outside. -/
theorem exposed_of_neutral (hs : ∀ x ∈ s, IsNeutral x) (c : Char) :
    exposed c [] (tokens .plain s) = s.count c := by
  rw [tokens_of_neutral hs]
  induction s with
  | nil => rfl
  | cons x s ih =>
    have hread : Level.read? [] (.char x) = some [] := by
      have hneutral := hs x (by simp)
      simp only [IsNeutral, List.mem_cons, not_or] at hneutral
      simp [Level.read?, hneutral]
    rw [List.map_cons, exposed, hread, List.count_cons]
    simp [ih fun y hy => hs y (by simp [hy]), Nat.add_comm]

/-- No mark of a script or a fraction stands outside in an operand. -/
theorem OneOperand.unmarked (h : OneOperand s) : Unmarked s := by
  have hmark : ∀ c ∈ ['^', '_', '/'], ¬ (Text.isWord c ∧ c ≠ '_' ∨ c = '.') := by decide +kernel
  intro c hc
  cases h with
  | word hne hword =>
    have hneutral : ∀ x ∈ s, IsNeutral x := fun x hx => isNeutral_of_isNameChar <| by
      rcases hword x hx with h | h <;> simp [isNameChar, h]
    rw [exposed_of_neutral hneutral, List.count_eq_zero]
    exact fun hmem => hmark c hc (hword c hmem)
  | quoted htokens _ =>
    rw [htokens]
    simp [exposed, Level.read?]
  | enclosed ts htokens hbalanced _ =>
    have hparens : ∀ c ∈ ['^', '_', '/'],
        MathToken.char '(' ≠ .char c ∧ MathToken.char ')' ≠ .char c := by decide
    obtain ⟨hopen, hclose⟩ := hparens c hc
    rw [htokens, exposed_cons rfl hopen, exposed_append (hbalanced.levelAfter? _),
      hbalanced.exposed_eq_zero (by simp), exposed_cons rfl hclose]
    rfl

/-- The underscore of a word stands outside. -/
theorem IsUnderscored.not_unmarked (ht : IsUnderscored t) : ¬ Unmarked t := by
  intro h
  have hneutral : ∀ c ∈ t, IsNeutral c := fun c hc => isNeutral_of_isNameChar (ht.2 c hc)
  have hnone := h '_' (by simp)
  rw [exposed_of_neutral hneutral, List.count_eq_zero] at hnone
  exact hnone ht.1

theorem IsUnderscored.operand_eq (ht : IsUnderscored t) : operand t = t := by
  have hne : t ≠ [] := List.ne_nil_of_mem ht.1
  rw [operand, if_pos]
  simpa [isOperand.eq_def, hne] using .inl ht.2

/-- **An item is made one operand, unless it is a word with an underscore.** -/
theorem oneOperand_operand_iff (ht : (after .plain t).IsSettled) (hends : ¬ Dangles t)
    (hbalanced : IsBalanced (tokens .plain t)) :
    OneOperand (operand t) ↔ ¬ IsUnderscored t := by
  constructor
  · intro h hunderscored
    rw [hunderscored.operand_eq] at h
    exact hunderscored.not_unmarked h.unmarked
  · intro hunderscored
    by_cases hoperand : isOperand t
    · rw [operand, if_pos hoperand]
      rcases operand_cases ht hoperand with ⟨hne, hword⟩ | ⟨htokens, hafter⟩
      · refine .word hne fun c hc => ?_
        have hc' : Text.isWord c ∨ c = '.' := by simpa [isNameChar] using hword c hc
        refine hc'.imp_left fun h => ⟨h, ?_⟩
        rintro rfl
        exact hunderscored ⟨hc, hword⟩
      · exact .quoted htokens hafter
    · obtain ⟨htokens, hafter⟩ := tokens_enclose ht hends
      rw [operand, if_neg hoperand]
      exact .enclosed _ htokens hbalanced hafter

/-- An item is made a text without marks outside under the same condition. -/
theorem unmarked_operand_iff (ht : (after .plain t).IsSettled) (hends : ¬ Dangles t)
    (hbalanced : IsBalanced (tokens .plain t)) :
    Unmarked (operand t) ↔ ¬ IsUnderscored t := by
  refine ⟨fun h hunderscored => ?_, fun h => ?_⟩
  · rw [hunderscored.operand_eq] at h
    exact hunderscored.not_unmarked h
  · exact ((oneOperand_operand_iff ht hends hbalanced).2 h).unmarked

/-- An operand can have something behind it. -/
theorem reads_operand (ht : (after .plain t).IsSettled) (hends : ¬ Dangles t)
    (hbalanced : IsBalanced (tokens .plain t)) :
    (after .plain (operand t)).IsSettled ∧ ¬ Dangles (operand t) ∧
      IsBalanced (tokens .plain (operand t)) := by
  rw [operand]
  split
  · exact ⟨ht, hends, hbalanced⟩
  · obtain ⟨htokens, hafter⟩ := tokens_enclose ht hends
    have hopen : IsBalanced (.char '(' :: (tokens .plain t ++ [.char ')'])) := by
      rw [IsBalanced, levelAfter?_cons rfl, levelAfter?_append, hbalanced.levelAfter?]
      rfl
    have hbehind : ¬ Dangles ('(' :: (t ++ [')'])) := by
      rw [Dangles, hafter]
      decide
    exact ⟨.inr (.inl hafter), hbehind, (congrArg IsBalanced htokens).mpr hopen⟩

/-- The mark of a fraction stands outside of its numerator. -/
theorem not_unmarked_fraction (hs : (after .plain s).IsSettled) (hends : ¬ Dangles s)
    (hbalanced : IsBalanced (tokens .plain s)) (u : Text) : ¬ Unmarked (s ++ '/' :: u) := by
  have htokens : tokens .plain (s ++ '/' :: u)
      = tokens .plain s ++ .char '/' :: tokens .plain u := by
    rw [tokens_append]
    rcases hs with h | h | h
    · rw [h]; rfl
    · rw [h]; rfl
    · exact absurd h hends
  intro h
  have hnone := h '/' (by simp)
  rw [htokens, exposed_append hbalanced] at hnone
  simp only [exposed, and_self, if_true] at hnone
  omega

/-! ### Groups with scripts -/

variable {g h : Text} {a b : Formula} {node : Node}

theorem ScriptMark.char_eq (mark : ScriptMark) : mark.char = '^' ∨ mark.char = '_' := by
  cases mark <;> decide

/-- A script in braces, in front of any text. -/
theorem read_script (mark : ScriptMark) (hg : Delimiters.braces.Closed g) (ha : read g = .ok a)
    (rest : Text) : read (mark.char :: (Delimiters.braces.enclose g ++ rest))
      = (read rest).map (.script mark.char a :: ·) :=
  read_cons (by cases mark <;> decide) (step_script mark.char_eq (argument_enclose hg ha))

/-- What a source is converted to that gives one node with a script behind it. -/
theorem convert_scripted {source base : Text} (mark : ScriptMark)
    (hread : ∀ rest, read (source ++ rest) = (read rest).map (node :: ·))
    (hput : put true none node = behind none base) (hh : Delimiters.braces.Closed h)
    (hb : read h = .ok b) :
    convert (source ++ mark.char :: Delimiters.braces.enclose h)
      = .ok (base ++ mark.char :: operand (toTypst b)) := by
  have hscript : read (mark.char :: Delimiters.braces.enclose h) = .ok [.script mark.char b] := by
    have := read_script mark hh hb []
    rwa [List.append_nil, read] at this
  have hnodes := hread (mark.char :: Delimiters.braces.enclose h)
  rw [hscript] at hnodes
  have hitems : items none [node, .script mark.char b]
      = [base ++ mark.char :: operand (toTypst b)] := by
    simp [items, scriptFollows, hput, behind, put, toTypst]
  rw [convert_of_read hnodes, toTypst, hitems]
  simp [spaced, Text.joinWith]

/-- The base that a group is written as before a script. -/
def groupBase (t : Text) : Text := if t = [] then [] else operand t

theorem not_oneOperand_nil : ¬ OneOperand [] := by
  intro h
  cases h with
  | word hne _ => exact hne rfl
  | quoted htokens _ => cases htokens
  | enclosed ts htokens _ _ => cases htokens

theorem oneOperand_groupBase_iff (h : OneOperand (operand t) ↔ ¬ IsUnderscored t) :
    OneOperand (groupBase t) ↔ t ≠ [] ∧ ¬ IsUnderscored t := by
  rw [groupBase]
  split
  · next hempty => simp [not_oneOperand_nil, hempty]
  · next hne => simp [h, hne]

theorem unmarked_groupBase_iff (h : Unmarked (operand t) ↔ ¬ IsUnderscored t) :
    Unmarked (groupBase t) ↔ ¬ IsUnderscored t := by
  rw [groupBase]
  split
  · next hempty =>
    subst hempty
    decide
  · exact h

/-- **A group is written as one operand where it is a script or has a script,
but for a word with an underscore, and for nothing before a script; a fraction
that has a script never is.** -/
theorem operands_of_groups (x : Ordinary) (mark : ScriptMark) (command : FractionCommand)
    {k : Text} {c : Formula} (hg : Delimiters.braces.Closed g) (hk : Delimiters.braces.Closed k)
    (hh : Delimiters.braces.Closed h) (ha : read g = .ok a) (hc : read k = .ok c)
    (hb : read h = .ok b) (hga : Orderly a) :
    (convert (x.char :: mark.char :: Delimiters.braces.enclose g)
        = .ok (x.char :: mark.char :: operand (toTypst a)) ∧
      (OneOperand (operand (toTypst a)) ↔ ¬ IsUnderscored (toTypst a)) ∧
      (Unmarked (operand (toTypst a)) ↔ ¬ IsUnderscored (toTypst a))) ∧
    (convert (Delimiters.braces.enclose g ++ mark.char :: Delimiters.braces.enclose h)
        = .ok (groupBase (toTypst a) ++ mark.char :: operand (toTypst b)) ∧
      (OneOperand (groupBase (toTypst a)) ↔ toTypst a ≠ [] ∧ ¬ IsUnderscored (toTypst a)) ∧
      (Unmarked (groupBase (toTypst a)) ↔ ¬ IsUnderscored (toTypst a))) ∧
    convert (commandText command.name [g, k] ++ mark.char :: Delimiters.braces.enclose h)
        = .ok (operand (toTypst a) ++ '/' :: operand (toTypst c)
          ++ mark.char :: operand (toTypst b)) ∧
      ¬ OneOperand (operand (toTypst a) ++ '/' :: operand (toTypst c)) ∧
      ¬ Unmarked (operand (toTypst a) ++ '/' :: operand (toTypst c)) := by
  have hlegible := legible_of_read ha
  have hsettled := (writes_toTypst hga.safe hlegible).settled
  have hbalanced := (hga.reads hlegible).1
  have hone := oneOperand_operand_iff hsettled hga.ends hbalanced
  have hunmarked := unmarked_operand_iff hsettled hga.ends hbalanced
  refine ⟨⟨?_, hone, hunmarked⟩, ⟨?_, ?_⟩, ?_, ?_⟩
  · have hx : plainChar x.char = [x.char] := by
      have hmark := x.not_mark
      simp only [markCharacters, List.mem_cons, not_or] at hmark
      simp [plainChar, hmark]
    have hput : put true none (.char x.char) = behind none [x.char] := by rw [put, hx]
    have hread : ∀ rest, read ([x.char] ++ rest) = (read rest).map (.char x.char :: ·) :=
      fun rest => read_cons x.not_blank (step_char x rest)
    exact convert_scripted mark hread hput hg ha
  · have hput : put true none (.group a) = behind none (groupBase (toTypst a)) := by
      rw [put, groupBase]
      by_cases hempty : toTypst a = [] <;> simp [toTypst] at hempty <;> simp [hempty, toTypst]
    have hread : ∀ rest, read (Delimiters.braces.enclose g ++ rest)
        = (read rest).map (.group a :: ·) := by
      intro rest
      have htext : Delimiters.braces.enclose g ++ rest = '{' :: (g ++ '}' :: rest) := by
        simp [Delimiters.enclose, Delimiters.braces]
      rw [htext]
      exact read_cons (by decide) (step_group hg ha)
    exact convert_scripted mark hread hput hh hb
  · exact ⟨oneOperand_groupBase_iff hone, unmarked_groupBase_iff hunmarked⟩
  · have hput : put true none (.fraction a c)
        = behind none (operand (toTypst a) ++ '/' :: operand (toTypst c)) := by
      simp [put, toTypst]
    exact convert_scripted mark (fun rest => read_arguments
      (isName_of_reserved _ command.mem_reserved) (by simp) fun _ hcommand =>
        command_pair hcommand (.inl ⟨command.class_eq, rfl⟩) (argument_groups hg ha [k])
          (argument_groups hk hc [])) hput hh hb
  · obtain ⟨hoperand, hends, hlevel⟩ := reads_operand hsettled hga.ends hbalanced
    have hmark := not_unmarked_fraction hoperand hends hlevel (operand (toTypst c))
    exact ⟨fun h => hmark h.unmarked, hmark⟩

/-- A sum with a subscript in it, as a script, below a script and as a
numerator. -/
theorem operands_of_subscripted_sum :
    convert "x^\x7bb_1+c\x7d".toList = .ok "x^(b_1 + c)".toList ∧
      OneOperand "(b_1 + c)".toList ∧
      convert "\x7bb_1+c\x7d^\x7b2\x7d".toList = .ok "(b_1 + c)^2".toList ∧
      convert "\\frac\x7bb_1+c\x7d\x7bd\x7d^\x7b2\x7d".toList = .ok "(b_1 + c)/d^2".toList := by
  obtain ⟨a, ha, hga, hout⟩ := exists_read_of (s := "b_1+c".toList)
    (P := fun a => Orderly a ∧ toTypst a = "b_1 + c".toList) (by decide +kernel)
  obtain ⟨b, hb, houtB⟩ := exists_read_of (s := "2".toList)
    (P := fun b => toTypst b = "2".toList) (by decide +kernel)
  obtain ⟨c, hc, houtC⟩ := exists_read_of (s := "d".toList)
    (P := fun c => toTypst c = "d".toList) (by decide +kernel)
  obtain ⟨⟨hscript, hone, -⟩, ⟨hbase, -⟩, hfraction, -⟩ := operands_of_groups
    ⟨'x', by decide, by decide, by decide, by decide⟩ .superscript ⟨"frac".toList, by decide⟩
    (by decide) (by decide) (by decide) ha hc hb hga
  have hsum : operand (toTypst a) = "(b_1 + c)".toList := by rw [hout]; decide +kernel
  have hbaseText : groupBase (toTypst a) = "(b_1 + c)".toList := by rw [hout]; decide +kernel
  have htwo : operand (toTypst b) = "2".toList := by rw [houtB]; decide
  have hd : operand (toTypst c) = "d".toList := by rw [houtC]; decide
  have hplain : ¬ IsUnderscored (toTypst a) := by rw [hout]; decide +kernel
  rw [hsum] at hscript hone hfraction
  rw [hbaseText, htwo] at hbase
  rw [htwo, hd] at hfraction
  exact ⟨hscript, hone.2 hplain, hbase, hfraction⟩

/-- The underscore of a script is read outside of it, and so is the denominator
of a fraction that has a script. -/
theorem underscored_script_is_no_operand :
    convert "a^\x7bx_i\x7d".toList = .ok "a^x_i".toList ∧ ¬ OneOperand "x_i".toList ∧
      convert "\\frac\x7ba\x7d\x7bb\x7d^\x7b2\x7d".toList = .ok "a/b^2".toList ∧
      ¬ OneOperand "a/b".toList := by
  refine ⟨convert_eq_of (by decide +kernel), fun h => ?_, convert_eq_of (by decide +kernel),
    fun h => ?_⟩
  · exact absurd h.unmarked (by decide)
  · exact absurd h.unmarked (by decide)

end Formula

end AnnotatedEquation
