/-
AnnotatedEquation/Proofs/Formula/Arguments.lean

The arguments of a call in Typst notation, as they are told by the commas
between its parentheses.

* `Lexical.IsCall name k s` tells that the text `s` is a call of a function with
  `k` arguments, from its name to the parenthesis that closes it;
* `Formula.Calls source name k` tells that a source is written as such a call.

An argument is written as it is.  A comma of it is one of the call as well,
unless parentheses, a block or other delimiters stand around it.

Main statement: a command has an argument for each of its groups and one more
for each outer comma of a group (`calls_of_groups`).
-/
import AnnotatedEquation.Proofs.Formula.Levels
import AnnotatedEquation.Proofs.Formula.Translation

namespace AnnotatedEquation

namespace Lexical

variable {s t u name : Text} {k n : Nat}

/-! ### Calls -/

/-- The text is a call of the function with `k` arguments: between the
parenthesis behind the name and the one that ends the text, all is balanced, and
outside of further parentheses stand the commas that separate the arguments. -/
def IsCall (name : Text) (k : Nat) (s : Text) : Prop :=
  after .plain s = .call ∧ ∃ ts,
    tokens .plain s = name.map .char ++ .char '(' :: (ts ++ [.char ')']) ∧ IsBalanced ts ∧
      k = 1 + exposed ',' [] ts

/-- A call has one number of arguments only. -/
theorem IsCall.unique (h : IsCall name k s) (h' : IsCall name n s) : k = n := by
  obtain ⟨-, ts, htokens, -, rfl⟩ := h
  obtain ⟨-, us, htokens', -, rfl⟩ := h'
  rw [htokens, List.append_cancel_left_eq, List.cons.injEq, List.append_cancel_right_eq] at htokens'
  rw [htokens'.2]

/-- What is read behind the name of a function. -/
theorem tokens_call (hname : ∀ c ∈ name, IsNeutral c) (s : Text) :
    tokens .plain (name ++ '(' :: s) = name.map .char ++ .char '(' :: tokens .plain s ∧
      after .plain (name ++ '(' :: s) = after .plain s := by
  rw [tokens_append, after_append, tokens_of_neutral hname, after_of_neutral hname]
  exact ⟨rfl, rfl⟩

/-- A call with a balanced item between its parentheses. -/
theorem isCall_call (hname : ∀ c ∈ name, IsNeutral c) (ht : (after .plain t).IsSettled)
    (hends : ¬ Dangles t) (hbalanced : IsBalanced (tokens .plain t)) :
    IsCall name (1 + exposed ',' [] (tokens .plain t)) (Formula.call name [t]) := by
  have hcall : Formula.call name [t] = name ++ '(' :: (t ++ [')']) := by
    simp [Formula.call, Text.joinWith]
  obtain ⟨htokens, hafter⟩ := tokens_call hname (t ++ [')'])
  rw [hcall]
  refine ⟨hafter ▸ after_concat_closing ht hends, tokens .plain t, ?_, hbalanced, rfl⟩
  rw [htokens, tokens_concat_delimiter ht hends (.inr rfl)]

/-- A comma behind an item that does not dangle separates it from the next. -/
theorem tokens_pair (ht : (after .plain t).IsSettled) (hends : ¬ Dangles t) (u : Text) :
    tokens .plain (t ++ ',' :: ' ' :: u)
        = tokens .plain t ++ .char ',' :: .char ' ' :: tokens .plain u ∧
      after .plain (t ++ ',' :: ' ' :: u) = after .plain u := by
  have hsplit : t ++ ',' :: ' ' :: u = (t ++ [',']) ++ ' ' :: u := by simp
  rw [hsplit, tokens_append, after_append _ (t ++ [',']), after_concat_comma ht,
    tokens_concat_delimiter ht hends (.inl rfl), List.append_assoc]
  exact ⟨rfl, rfl⟩

/-- A call with two balanced items between its parentheses. -/
theorem isCall_call_pair (hname : ∀ c ∈ name, IsNeutral c) (ht : (after .plain t).IsSettled)
    (hu : (after .plain u).IsSettled) (hendsT : ¬ Dangles t) (hendsU : ¬ Dangles u)
    (hbalancedT : IsBalanced (tokens .plain t)) (hbalancedU : IsBalanced (tokens .plain u)) :
    IsCall name (2 + exposed ',' [] (tokens .plain t) + exposed ',' [] (tokens .plain u))
      (Formula.call name [t, u]) := by
  have hcall : Formula.call name [t, u] = Formula.call name [t ++ ',' :: ' ' :: u] := by
    simp [Formula.call, Text.joinWith]
  obtain ⟨htokens, hafter⟩ := tokens_pair ht hendsT u
  have hbalanced : IsBalanced (tokens .plain (t ++ ',' :: ' ' :: u)) := by
    rw [htokens]
    exact hbalancedT.append hbalancedU
  have hcommas : exposed ',' [] (tokens .plain (t ++ ',' :: ' ' :: u))
      = exposed ',' [] (tokens .plain t) + (1 + exposed ',' [] (tokens .plain u)) := by
    have hone : exposed ',' [] (.char ',' :: .char ' ' :: tokens .plain u)
        = 1 + exposed ',' [] (.char ' ' :: tokens .plain u) := rfl
    rw [htokens, exposed_append hbalancedT, hone, exposed_cons rfl (by decide)]
  have hpair := isCall_call hname (hafter ▸ hu) (by rwa [Dangles, hafter]) hbalanced
  have hcount : 1 + (exposed ',' [] (tokens .plain t) + (1 + exposed ',' [] (tokens .plain u)))
      = 2 + exposed ',' [] (tokens .plain t) + exposed ',' [] (tokens .plain u) := by omega
  rwa [hcommas, hcount, ← hcall] at hpair

end Lexical

open Lexical

namespace Formula

variable {g h source name : Text} {a b : Formula} {k : Nat}

/-! ### Commands that are written as calls -/

/-- Whatever stands behind the source, it is read as one node, and that node is
written as an item of its own, a call with `k` arguments. -/
def Calls (source name : Text) (k : Nat) : Prop :=
  ∃ node item, (∀ rest, read (source ++ rest) = (read rest).map (node :: ·)) ∧
    (∀ scripted current, put scripted current node = behind current item) ∧ IsCall name k item

/-- Such a source alone is converted to the call alone. -/
theorem Calls.convert (h : Calls source name k) :
    ∃ out, convert source = .ok out ∧ IsCall name k out := by
  obtain ⟨node, item, hread, hput, hcall⟩ := h
  have hnode : read source = .ok [node] := by
    have := hread []
    rwa [List.append_nil, read] at this
  have hne : item ≠ [] := by
    rintro rfl
    obtain ⟨hafter, -⟩ := hcall
    cases hafter
  have hitems : items none [node] = [item] := by
    simp [items, hput, behind]
  refine ⟨item, ?_, hcall⟩
  rw [convert_of_read hnode, toTypst, hitems]
  simp [spaced, hne, Text.joinWith]

/-- A command with arguments in braces, in front of any text. -/
theorem read_arguments {arguments : List Text} {node : Node} {rest : Text} (hname : IsName name)
    (harguments : arguments ≠ [])
    (h : ∀ hle, commandName (name ++ (arguments.flatMap Delimiters.braces.enclose ++ rest))
        = ⟨name, arguments.flatMap Delimiters.braces.enclose ++ rest, hle⟩ →
      Yields (command (name ++ (arguments.flatMap Delimiters.braces.enclose ++ rest))) node rest) :
    read (commandText name arguments ++ rest) = (read rest).map (node :: ·) := by
  obtain ⟨argument, arguments, rfl⟩ := List.exists_cons_of_ne_nil harguments
  rw [commandText, List.cons_append, List.append_assoc]
  refine read_command hname (fun c hc => ?_) h
  obtain rfl : '{' = c := by simpa [Delimiters.enclose, Delimiters.braces] using hc
  decide

/-- The first of several arguments in braces. -/
theorem argument_groups {rest : Text} (hg : Delimiters.braces.Closed g) (ha : read g = .ok a)
    (arguments : List Text) :
    Yields (argument ((g :: arguments).flatMap Delimiters.braces.enclose ++ rest)) a
      (arguments.flatMap Delimiters.braces.enclose ++ rest) := by
  rw [List.flatMap_cons, List.append_assoc]
  exact argument_enclose hg ha

/-- One argument between the parentheses of a call. -/
theorem isCall_of_orderly (hname : ∀ c ∈ name, IsNeutral c) (ha : read g = .ok a)
    (hga : Orderly a) : IsCall name (1 + outerCommas a) (call name [toTypst a]) := by
  have hlegible := legible_of_read ha
  obtain ⟨hbalanced, hcommas⟩ := hga.reads hlegible
  rw [← hcommas]
  exact isCall_call hname (writes_toTypst hga.safe hlegible).settled hga.ends hbalanced

/-- Two arguments between the parentheses of a call. -/
theorem isCall_of_orderly_pair (hname : ∀ c ∈ name, IsNeutral c) (ha : read g = .ok a)
    (hb : read h = .ok b) (hga : Orderly a) (hhb : Orderly b) :
    IsCall name (2 + outerCommas a + outerCommas b) (call name [toTypst a, toTypst b]) := by
  have hlegibleA := legible_of_read ha
  have hlegibleB := legible_of_read hb
  obtain ⟨hbalancedA, hcommasA⟩ := hga.reads hlegibleA
  obtain ⟨hbalancedB, hcommasB⟩ := hhb.reads hlegibleB
  rw [← hcommasA, ← hcommasB]
  exact isCall_call_pair hname (writes_toTypst hga.safe hlegibleA).settled
    (writes_toTypst hhb.safe hlegibleB).settled hga.ends hhb.ends hbalancedA hbalancedB

theorem calls_function (hg : Delimiters.braces.Closed g) (ha : read g = .ok a) (hga : Orderly a)
    (command : FunctionCommand) :
    Calls (commandText command.name [g]) command.function (1 + outerCommas a) := by
  have hisName := isName_of_reserved _ command.mem_reserved
  have hfunction := functionName_of_mem command.mem
  refine ⟨.apply command.name a, call command.function [toTypst a], fun rest => ?_,
    fun _ _ => ?_, isCall_of_orderly ?_ ha hga⟩
  · exact read_arguments hisName (by simp) fun _ hcommand =>
      command_function hcommand command.class_eq (argument_groups hg ha [])
  · rw [put, hfunction]
    rfl
  · rw [← hfunction]
    exact isNeutral_of_functionName hisName.2

theorem calls_sqrt (hg : Delimiters.braces.Closed g) (ha : read g = .ok a) (hga : Orderly a) :
    Calls (commandText "sqrt".toList [g]) "sqrt".toList (1 + outerCommas a) := by
  refine ⟨.sqrt a, call "sqrt".toList [toTypst a], fun rest => ?_, fun _ _ => by rw [put]; rfl,
    isCall_of_orderly (by decide) ha hga⟩
  exact read_arguments (by decide) (by simp) fun _ hcommand =>
    command_sqrt hcommand (by decide) (enclosed?_cons_of_ne (by decide) (by decide) _)
      (argument_groups hg ha [])

theorem calls_binomial (hg : Delimiters.braces.Closed g) (hh : Delimiters.braces.Closed h)
    (ha : read g = .ok a) (hb : read h = .ok b) (hga : Orderly a) (hhb : Orderly b) :
    Calls (commandText "binom".toList [g, h]) "binom".toList
      (2 + outerCommas a + outerCommas b) := by
  refine ⟨.binomial a b, call "binom".toList [toTypst a, toTypst b], fun rest => ?_,
    fun _ _ => by rw [put]; rfl, isCall_of_orderly_pair (by decide) ha hb hga hhb⟩
  exact read_arguments (by decide) (by simp) fun _ hcommand =>
    command_pair hcommand (.inr ⟨by decide, rfl⟩) (argument_groups hg ha [h])
      (argument_groups hh hb [])

/-- The notation of a root with a degree. -/
def rootText (degree radicand : Text) : Text :=
  '\\' :: ("sqrt".toList
    ++ (Delimiters.brackets.enclose degree ++ Delimiters.braces.enclose radicand))

theorem calls_root (hg : Delimiters.brackets.Closed g) (hh : Delimiters.braces.Closed h)
    (ha : read g = .ok a) (hb : read h = .ok b) (hga : Orderly a) (hhb : Orderly b) :
    Calls (rootText g h) "root".toList (2 + outerCommas a + outerCommas b) := by
  refine ⟨.root a b, call "root".toList [toTypst a, toTypst b], fun rest => ?_,
    fun _ _ => by rw [put]; rfl, isCall_of_orderly_pair (by decide) ha hb hga hhb⟩
  have htext : rootText g h ++ rest = '\\' :: ("sqrt".toList ++ (Delimiters.brackets.enclose g
      ++ ([h].flatMap Delimiters.braces.enclose ++ rest))) := by
    simp [rootText]
  rw [htext]
  obtain ⟨h₁, h₂, henclosed⟩ := enclosed?_enclose (d := .brackets) (.inr rfl) hg
    ([h].flatMap Delimiters.braces.enclose ++ rest)
  refine read_command (by decide) ?_ fun hle hcommand => ?_
  · intro c hc
    obtain rfl : '[' = c := by simpa [Delimiters.enclose, Delimiters.brackets] using hc
    decide
  · exact command_root hcommand (by decide) henclosed ha (argument_groups hh hb [])

/-- **A command has an argument for each of its groups, and one more for each
outer comma of a group.** -/
theorem calls_of_groups (ha : read g = .ok a) (hb : read h = .ok b) (hga : Orderly a)
    (hhb : Orderly b) :
    (Delimiters.braces.Closed g →
      (∀ command : FunctionCommand,
        Calls (commandText command.name [g]) command.function (1 + outerCommas a)) ∧
      Calls (commandText "sqrt".toList [g]) "sqrt".toList (1 + outerCommas a) ∧
      (Delimiters.braces.Closed h → Calls (commandText "binom".toList [g, h]) "binom".toList
        (2 + outerCommas a + outerCommas b))) ∧
    (Delimiters.brackets.Closed g → Delimiters.braces.Closed h →
      Calls (rootText g h) "root".toList (2 + outerCommas a + outerCommas b)) :=
  ⟨fun hg => ⟨calls_function hg ha hga, calls_sqrt hg ha hga,
      fun hh => calls_binomial hg hh ha hb hga hhb⟩,
    fun hg hh => calls_root hg hh ha hb hga hhb⟩

/-- Commas in parentheses and in a script stay inside of an argument, and the
comma of a pair does not. -/
theorem calls_of_pair_and_function_value :
    (∀ command : FunctionCommand,
      Calls (commandText command.name ["f(a,b)_\x7bi,j\x7d".toList]) command.function 1) ∧
    Calls (commandText "binom".toList ["f(a,b)_\x7bi,j\x7d".toList, "x,y".toList])
      "binom".toList 3 ∧
    Calls (rootText "f(a,b)_\x7bi,j\x7d".toList "x,y".toList) "root".toList 3 := by
  obtain ⟨a, ha, hga, hcommasA⟩ := exists_read_of (s := "f(a,b)_\x7bi,j\x7d".toList)
    (P := fun a => Orderly a ∧ outerCommas a = 0) (by decide +kernel)
  obtain ⟨b, hb, hhb, hcommasB⟩ := exists_read_of (s := "x,y".toList)
    (P := fun b => Orderly b ∧ outerCommas b = 1) (by decide +kernel)
  obtain ⟨hgroups, hroot⟩ := calls_of_groups ha hb hga hhb
  obtain ⟨hfunction, -, hbinomial⟩ := hgroups (by decide)
  rw [hcommasA] at hfunction hbinomial hroot
  rw [hcommasB] at hbinomial hroot
  exact ⟨hfunction, hbinomial (by decide), hroot (by decide) (by decide)⟩

/-- The comma of a group becomes one of the call. -/
theorem hat_of_pair_has_two_arguments :
    convert "\\hat\x7ba,b\x7d".toList = .ok "hat(a , b)".toList ∧
      ¬ IsCall "hat".toList 1 "hat(a , b)".toList := by
  refine ⟨convert_eq_of (by decide +kernel), fun h => ?_⟩
  have htwo : IsCall "hat".toList 2 "hat(a , b)".toList :=
    ⟨by decide, [.char 'a', .char ' ', .char ',', .char ' ', .char 'b'], by decide,
      by decide, by decide⟩
  exact absurd (h.unique htwo) (by decide)

end Formula

end AnnotatedEquation
