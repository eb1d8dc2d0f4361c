/-
AnnotatedEquation/Proofs/Formula/Blocks.lean

Math that is written between dollar signs ends at the last of them, and not
before.

* `Blocks` are the colored blocks of a formula, one inside of the other;
* `Opens n ts bs` tells that the dollar signs among the tokens `ts` are those of
  the blocks `bs`, where `n` of the blocks are opened and not closed;
* `Contained s bs` tells that the text `s` stays within the dollar signs that
  are put around it.

A block is left open if its content dangles: the backslash takes the dollar
sign that would close the block.

Main statements: the marks of a formula open as many blocks too many as there
are colored nodes with a dangling body (`opens_skeleton`), so that a formula
with safe nodes is contained if and only if it has no such node
(`contained_iff_no_open_block`).
-/
import AnnotatedEquation.Proofs.Formula.Skeleton

namespace AnnotatedEquation

namespace Lexical

/-! ### Nested blocks -/

/-- Blocks one behind the other, each with the blocks inside of it. -/
inductive Blocks where
  | nil
  | cons (inside rest : Blocks)
  deriving DecidableEq, Repr

/-- First the one blocks, then the others. -/
def Blocks.append : Blocks → Blocks → Blocks
  | .nil, cs => cs
  | .cons inside rest, cs => .cons inside (rest.append cs)

/-- The dollar signs among the tokens are those of the blocks, each of which is
closed behind its content or, for `n` of them, left open. -/
inductive Opens : Nat → List MathToken → Blocks → Prop
  | nil : Opens 0 [] .nil
  | skip {n t ts bs} : ¬ t.IsDollar → Opens n ts bs → Opens n (t :: ts) bs
  | closed {n k ts us bs cs} : Opens n ts bs → Opens k us cs →
      Opens (n + k) (.opening :: (ts ++ .closing :: us)) (.cons bs cs)
  | leftOpen {n k ts us bs cs} : Opens n ts bs → Opens k us cs →
      Opens (n + k + 1) (.opening :: (ts ++ us)) (.cons bs cs)

/-- The dollar signs among the tokens open and close the blocks. -/
def Nested (ts : List MathToken) (bs : Blocks) : Prop := Opens 0 ts bs

variable {s : Text} {t : MathToken} {ts us ms : List MathToken} {bs cs : Blocks} {n k : Nat}

theorem Blocks.append_nil (bs : Blocks) : bs.append .nil = bs := by
  induction bs with
  | nil => rfl
  | cons inside rest _ ih => exact congrArg _ ih

theorem Opens.append (hts : Opens n ts bs) (hus : Opens k us cs) :
    Opens (n + k) (ts ++ us) (bs.append cs) := by
  induction hts with
  | nil => simpa [Blocks.append] using hus
  | skip ht _ ih => exact .skip ht ih
  | closed hinside _ _ ih =>
    rw [List.cons_append, List.append_assoc, List.cons_append, Nat.add_assoc]
    exact .closed hinside ih
  | leftOpen hinside _ _ ih =>
    rw [List.cons_append, List.append_assoc, Nat.add_right_comm, Nat.add_assoc _ _ k]
    exact .leftOpen hinside ih

theorem opens_of_no_dollar (h : ∀ t ∈ ts, ¬ t.IsDollar) : Opens 0 ts .nil := by
  induction ts with
  | nil => exact .nil
  | cons t ts ih => exact .skip (h t (by simp)) (ih fun u hu => h u (by simp [hu]))

theorem Opens.append_right (hts : Opens n ts bs) (hus : ∀ t ∈ us, ¬ t.IsDollar) :
    Opens n (ts ++ us) bs :=
  Blocks.append_nil bs ▸ hts.append (opens_of_no_dollar hus)

theorem Opens.append_left (hus : ∀ t ∈ us, ¬ t.IsDollar) (hts : Opens n ts bs) :
    Opens n (us ++ ts) bs := by
  have := (opens_of_no_dollar hus).append hts
  rwa [Nat.zero_add] at this

/-- How many blocks are left open is told by the tokens alone. -/
theorem Opens.count_eq (h : Opens n ts bs) : ts.count .opening = ts.count .closing + n := by
  induction h with
  | nil => rfl
  | @skip n t ts bs ht _ ih =>
    have hopening : t ≠ .opening := by rintro rfl; exact ht (by decide)
    have hclosing : t ≠ .closing := by rintro rfl; exact ht (by decide)
    rw [List.count_cons_of_ne hopening, List.count_cons_of_ne hclosing, ih]
  | closed _ _ ihInside ihRest =>
    simp only [List.count_cons_self, List.count_append, List.count_cons_of_ne, ne_eq, reduceCtorEq,
      not_false_eq_true, ihInside, ihRest]
    omega
  | leftOpen _ _ ihInside ihRest =>
    simp only [List.count_cons_self, List.count_append, List.count_cons_of_ne, ne_eq, reduceCtorEq,
      not_false_eq_true, ihInside, ihRest]
    omega

theorem isMark_of_isDollar (ht : t.IsDollar) : t.isMark := by
  simp only [MathToken.IsDollar, List.mem_cons, List.not_mem_nil, or_false] at ht
  rcases ht with rfl | rfl | rfl <;> rfl

/-- Tokens that are no marks may stand anywhere. -/
theorem opens_of_filter (h : Opens n (ts.filter MathToken.isMark) bs) : Opens n ts bs := by
  generalize hms : ts.filter MathToken.isMark = ms at h
  have skipped {us : List MathToken} (hus : ∀ t ∈ us, ¬ t.isMark) : ∀ t ∈ us, ¬ t.IsDollar :=
    fun t ht hdollar => hus t ht (isMark_of_isDollar hdollar)
  induction h generalizing ts with
  | nil => exact opens_of_no_dollar (skipped (List.filter_eq_nil_iff.1 hms))
  | skip ht _ ih =>
    obtain ⟨before, behind, rfl, hbefore, -, hbehind⟩ := List.filter_eq_cons_iff.1 hms
    exact .append_left (skipped hbefore) (.skip ht (ih hbehind))
  | closed _ _ ihInside ihRest =>
    obtain ⟨before, behind, rfl, hbefore, -, hbehind⟩ := List.filter_eq_cons_iff.1 hms
    obtain ⟨inside, rest, rfl, hinside, hrest⟩ := List.filter_eq_append_iff.1 hbehind
    obtain ⟨between, rest, rfl, hbetween, -, hrest⟩ := List.filter_eq_cons_iff.1 hrest
    have hblock := ((ihInside hinside).append_right (skipped hbetween)).closed (ihRest hrest)
    rw [List.append_assoc] at hblock
    exact .append_left (skipped hbefore) hblock
  | leftOpen _ _ ihInside ihRest =>
    obtain ⟨before, behind, rfl, hbefore, -, hbehind⟩ := List.filter_eq_cons_iff.1 hms
    obtain ⟨inside, rest, rfl, hinside, hrest⟩ := List.filter_eq_append_iff.1 hbehind
    exact .append_left (skipped hbefore) ((ihInside hinside).leftOpen (ihRest hrest))

/-! ### Contained texts -/

/-- The text stays within the dollar signs that are put around it, with a space
at both ends: every string is closed, the dollar signs of the text are those of
the blocks `bs`, and the one behind it ends the math. -/
structure Contained (s : Text) (bs : Blocks) : Prop where
  strings_closed : after .plain s ∉ [Mode.quoted, .quotedEscaped]
  nested : Nested (tokens .plain (s ++ [' ', '$'])) bs
  ends_behind : after .plain (s ++ [' ', '$']) = .dollar

/-- A text is contained if its marks leave no block open, and only then. -/
theorem Writes.contained_iff (hs : Writes s ms) (hms : Opens n ms bs) :
    Contained s bs ↔ n = 0 := by
  obtain ⟨hend, hmode⟩ : (∀ t ∈ tokens (after .plain s) [' ', '$'], ¬ t.IsDollar) ∧
      after (after .plain s) [' ', '$'] = .dollar := by
    rcases hs.settled with h | h | h <;> rw [h] <;> decide
  have hopens : Opens n (tokens .plain (s ++ [' ', '$'])) bs := by
    rw [tokens_append]
    refine Opens.append_right (opens_of_filter ?_) hend
    rw [← marks, hs.marks_eq]
    exact hms
  constructor
  · intro h
    have hcount := h.nested.count_eq
    rw [hopens.count_eq] at hcount
    omega
  · rintro rfl
    refine ⟨?_, hopens, ?_⟩
    · rcases hs.settled with h | h | h <;> rw [h] <;> decide
    · rw [after_append, hmode]

end Lexical

open Lexical

namespace Formula

/-! ### The blocks of a formula -/

mutual

/-- The colored blocks of a node. -/
def Node.blocks : Node → Blocks
  | .colored _ body => .cons (blocks body) .nil
  | .group body | .script _ body | .sqrt body | .classed body | .apply _ body => blocks body
  | .fraction first second | .binomial first second | .root first second =>
    (blocks first).append (blocks second)
  | .char _ | .number _ | .prime | .symbol _ | .text _ | .operator _ | .named _ | .layout => .nil

/-- The colored blocks of a formula. -/
def blocks : Formula → Blocks
  | [] => .nil
  | node :: s => node.blocks.append (blocks s)

end

/-- A colored block whose content dangles, so that nothing closes it. -/
def Node.IsOpenBlock : Node → Prop
  | .colored _ body => Dangles (toTypst body)
  | _ => False

instance : DecidablePred Node.IsOpenBlock
  | .colored _ body => inferInstanceAs (Decidable (Dangles (toTypst body)))
  | .char _ | .number _ | .group _ | .script _ _ | .prime | .symbol _ | .fraction _ _
  | .binomial _ _ | .sqrt _ | .root _ _ | .text _ | .operator _ | .classed _ | .apply _ _
  | .named _ | .layout => inferInstanceAs (Decidable False)

/-- The number of blocks among the places that are left open. -/
def openBlocks (ps : List Place) : Nat := ps.countP fun p => p.node.IsOpenBlock

theorem openBlocks_append (ps qs : List Place) :
    openBlocks (ps ++ qs) = openBlocks ps + openBlocks qs := List.countP_append

variable {s t u : Text} {ms ns : List MathToken} {bs cs : Blocks} {f : Formula} {node : Node}
  {n k : Nat}

/-! ### Blocks among the marks -/

theorem opens_enclosedMarks (h : Opens n ms bs) : Opens n (enclosedMarks t ms) bs :=
  .skip (by decide) (h.append_right (no_dollar_closeBehind t ')'))

theorem opens_operandMarks (ht : Writes t ms) (h : Opens n ms bs) :
    Opens n (operandMarks t ms) bs := by
  by_cases hoperand : isOperand t
  · rwa [operandMarks_of_isOperand ht hoperand]
  · rw [operandMarks, if_neg hoperand]
    exact opens_enclosedMarks h

theorem opens_pairMarks (ht : Opens n ms bs) (hu : Opens k ns cs) :
    Opens (n + k) (pairMarks t ms u ns) (bs.append cs) :=
  have hfirst := ht.append_right (no_dollar_closeBehind t ',')
  have hsecond := hu.append_right (no_dollar_closeBehind u ')')
  .skip (by decide) (hfirst.append hsecond)

theorem opens_blockMarks {color : Text} (hcolor : IsSafeColor color) (h : Opens n ms bs) :
    Opens (n + if Dangles t then 1 else 0) (blockMarks color t ms) (.cons bs .nil) := by
  have hblock : Opens (n + if Dangles t then 1 else 0)
      (.opening :: (ms ++ if Dangles t then [] else [.closing])) (.cons bs .nil) := by
    split
    · exact .leftOpen h .nil
    · exact .closed h .nil
  have hmarks : ∀ t ∈ marks (colorExpression color), ¬ t.IsDollar :=
    fun t ht => hcolor.1 t (List.mem_filter.1 ht).1
  exact .skip (by decide) (.append_left hmarks (.skip (by decide) hblock))

/-- The marks of a node are those of its blocks. -/
theorem Node.opens_skeleton (hsafe : node.IsSafe)
    (hargs : ∀ a ∈ node.arguments, Writes (toTypst a) (Formula.skeleton a) ∧
      Opens (openBlocks (Formula.places a)) (Formula.skeleton a) (Formula.blocks a))
    (scripted : Bool) :
    Opens (openBlocks (node.places scripted)) (node.skeleton scripted) node.blocks := by
  cases node with
  | char c => exact opens_of_no_dollar (no_dollar_plainChar c)
  | symbol c => exact opens_of_no_dollar (no_dollar_charSymbol c)
  | group body =>
    obtain ⟨hwrites, hopens⟩ := hargs body (by simp [Node.arguments])
    rw [Node.skeleton]
    split
    · exact opens_operandMarks hwrites hopens
    · exact hopens
  | script mark argument =>
    obtain ⟨hwrites, hopens⟩ := hargs argument (by simp [Node.arguments])
    exact opens_operandMarks hwrites hopens
  | fraction numerator denominator =>
    obtain ⟨hnumerator, hopensNumerator⟩ := hargs numerator (by simp [Node.arguments])
    obtain ⟨hdenominator, hopensDenominator⟩ := hargs denominator (by simp [Node.arguments])
    have := (opens_operandMarks hnumerator hopensNumerator).append
      (opens_operandMarks hdenominator hopensDenominator)
    rwa [← openBlocks_append] at this
  | binomial top bottom =>
    have := opens_pairMarks (t := toTypst top) (u := toTypst bottom)
      (hargs top (by simp [Node.arguments])).2 (hargs bottom (by simp [Node.arguments])).2
    rwa [← openBlocks_append] at this
  | root degree radicand =>
    have := opens_pairMarks (t := toTypst degree) (u := toTypst radicand)
      (hargs degree (by simp [Node.arguments])).2 (hargs radicand (by simp [Node.arguments])).2
    rwa [← openBlocks_append] at this
  | sqrt radicand => exact opens_enclosedMarks (hargs radicand (by simp [Node.arguments])).2
  | apply command argument =>
    exact opens_enclosedMarks (hargs argument (by simp [Node.arguments])).2
  | classed body => exact (hargs body (by simp [Node.arguments])).2
  | colored color body =>
    have hcount : openBlocks ((Node.colored color body).places scripted)
        = openBlocks (Formula.places body) + if Dangles (toTypst body) then 1 else 0 := by
      rw [Node.places, openBlocks, List.countP_cons]
      simp only [decide_eq_true_eq]
      rfl
    rw [hcount]
    exact opens_blockMarks hsafe (hargs body (by simp [Node.arguments])).2
  | operator raw =>
    have hparens : ∀ t ∈ [MathToken.char '(', .char ')'], ¬ t.IsDollar := by decide
    exact opens_of_no_dollar hparens
  | number digits => exact .nil
  | prime => exact .nil
  | text raw => exact .nil
  | named command => exact .nil
  | layout => exact .nil

/-- The marks of a formula are those of its blocks. -/
theorem opens_skeleton (hsafe : Safe f) (hlegible : Legible f) :
    Opens (openBlocks (places f)) (skeleton f) (blocks f) := by
  apply safe_induction hsafe hlegible
  case nil => exact .nil
  case cons =>
    intro node s hnode hargs ih
    rw [places, openBlocks_append]
    exact (Node.opens_skeleton hnode hargs _).append ih

/-- **A formula stays within the dollar signs around it if and only if it leaves
no block open.** -/
theorem contained_iff_no_open_block {source out : Text} (h : convert source = .ok out) :
    ∃ f, read source = .ok f ∧ out = toTypst f ∧
      (Safe f → (Contained out (blocks f) ↔ ∀ p ∈ places f, ¬ p.node.IsOpenBlock)) := by
  obtain ⟨f, hread, rfl⟩ := exists_read_of_convert h
  refine ⟨f, hread, rfl, fun hsafe => ?_⟩
  have hlegible := legible_of_read hread
  rw [(writes_toTypst hsafe hlegible).contained_iff (opens_skeleton hsafe hlegible), openBlocks,
    List.countP_eq_zero]
  simp

/-- A block inside of a block, with a backslash, a dollar sign and a quote in
them. -/
theorem contained_nested_blocks :
    ∃ f, read "\\textcolor\x7bred\x7d\x7ba\\\\\\$\\textcolor\x7b#fff\x7d\"\x7d".toList = .ok f ∧
      toTypst f = "#text(fill: red)[$a \\ \\$ #text(fill: rgb(\"#fff\"))[$\\\"$]$]".toList ∧
      blocks f = .cons (.cons .nil .nil) .nil ∧ Contained (toTypst f) (blocks f) := by
  obtain ⟨f, hread, hsafe, hout, hblocks, hopen⟩ := exists_read_of (P := fun f => Safe f ∧
    toTypst f = "#text(fill: red)[$a \\ \\$ #text(fill: rgb(\"#fff\"))[$\\\"$]$]".toList ∧
    blocks f = .cons (.cons .nil .nil) .nil ∧ ∀ p ∈ places f, ¬ p.node.IsOpenBlock)
    (s := "\\textcolor\x7bred\x7d\x7ba\\\\\\$\\textcolor\x7b#fff\x7d\"\x7d".toList)
    (by decide +kernel)
  obtain ⟨g, hg, -, hiff⟩ := contained_iff_no_open_block (convert_of_read hread)
  obtain rfl : f = g := Except.ok.inj (hread.symm.trans hg)
  exact ⟨f, hread, hout, hblocks, (hiff hsafe).2 hopen⟩

/-- A command of one character that is a quote opens a string, and a backslash
at the end of a colored body keeps its block open: neither is contained. -/
theorem not_contained_quote_command_or_dangling_body :
    (convert "\\\"".toList = .ok "\"".toList ∧ ∀ bs, ¬ Contained "\"".toList bs) ∧
      convert "\\textcolor\x7bred\x7d\x7ba\\\\ \x7d".toList
        = .ok "#text(fill: red)[$a \\$]".toList ∧
      ∀ bs, ¬ Contained "#text(fill: red)[$a \\$]".toList bs := by
  refine ⟨⟨convert_eq_of (by decide +kernel), fun bs h => ?_⟩, convert_eq_of (by decide +kernel),
    fun bs h => ?_⟩
  · exact absurd h.strings_closed (by decide)
  · exact absurd h.nested.count_eq (by decide)

end Formula

end AnnotatedEquation
