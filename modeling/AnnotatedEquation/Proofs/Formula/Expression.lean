/-
AnnotatedEquation/Proofs/Formula/Expression.lean

Expressions as trees, apart from any notation, and the two notations that
they are written in.

* `Item` is one construct of an expression, with expressions as its
  arguments; what it is built from (`Ordinary`, `Numeral`, `SymbolCommand`
  and the like) carries the conditions on its characters;
* `Expression.latex` writes an expression in LaTeX notation, with every
  argument between delimiters and one space between items;
* `Expression.typst` is its translation into Typst notation;
* `Expression.nodes` are the nodes that a reader should find in it.

Main statement: the translation is the Typst notation of the nodes
(`Expression.toTypst_nodes`).
-/
import AnnotatedEquation.Formula.Typst
import AnnotatedEquation.Palette.Basic
import AnnotatedEquation.Proofs.Palette.Hex
import AnnotatedEquation.Proofs.Text.Part

namespace AnnotatedEquation

/-- The text between the two delimiters. -/
def Delimiters.enclose (d : Delimiters) (s : Text) : Text := d.opening :: (s ++ [d.closing])

namespace Formula

/-! ### What items are built from -/

/-- The characters that mean something to a reader of formulas. -/
def markCharacters : Text := ['\\', '{', '}', '[', ']', '^', '_', '\'', '"', '#', '$']

theorem not_mark_of_class {p : Char → Bool} {c : Char} (hp : ∀ m ∈ markCharacters, p m = false)
    (hc : p c) : c ∉ markCharacters := by
  intro hm
  rw [hp c hm] at hc
  cases hc

/-- A character that stands for itself. -/
structure Ordinary where
  char : Char
  not_blank : Text.isBlank char = false
  not_decimal : Text.isDecimal char = false
  not_odd : Text.isOddDigit char = false
  not_mark : char ∉ markCharacters

/-- A decimal number; there is no point where it has no decimals. -/
structure Numeral where
  whole : Text
  decimals : Text
  whole_ne_nil : whole ≠ []
  isDecimal_of_mem_whole : ∀ c ∈ whole, Text.isDecimal c
  isDecimal_of_mem_decimals : ∀ c ∈ decimals, Text.isDecimal c

def Numeral.text (n : Numeral) : Text :=
  if n.decimals = [] then n.whole else n.whole ++ '.' :: n.decimals

/-- A name that a command can have. -/
def IsName (name : Text) : Prop := name ≠ [] ∧ ∀ c ∈ name, isLetter c

instance (name : Text) : Decidable (IsName name) := inferInstanceAs (Decidable (_ ∧ _))

/-- The commands that are read with arguments of their own, or dropped. -/
def reservedCommands : List Text :=
  fences ++ layoutCommands ++ fractionCommands ++ textCommands
    ++ ["binom", "sqrt", "operatorname", "textcolor", "color", "htmlClass"].map String.toList
    ++ functions.map Prod.fst

theorem isName_of_reserved : ∀ name ∈ reservedCommands, IsName name := by decide

/-- A command of letters that stands for a symbol, without an argument. -/
structure SymbolCommand where
  name : Text
  isName : IsName name
  not_reserved : name ∉ reservedCommands

/-- A command that writes a fraction. -/
structure FractionCommand where
  name : Text
  mem : name ∈ fractionCommands

/-- A command of one argument, with the Typst function that it stands for. -/
structure FunctionCommand where
  name : Text
  function : Text
  mem : (name, function) ∈ functions

/-- The digits of a color. -/
structure HexDigits where
  digits : Text
  isHexDigit_of_mem : ∀ c ∈ digits, isHexDigit c

inductive ScriptMark where
  | superscript
  | subscript
  deriving DecidableEq, Repr

def ScriptMark.char : ScriptMark → Char
  | superscript => '^'
  | subscript => '_'

/-! ### Expressions -/

/-- One construct of an expression. -/
inductive Item where
  | char (c : Ordinary)
  | number (n : Numeral)
  | symbol (command : SymbolCommand)
  | group (body : List Item)
  | fraction (command : FractionCommand) (numerator denominator : List Item)
  | binomial (top bottom : List Item)
  | sqrt (radicand : List Item)
  | root (degree radicand : List Item)
  | apply (command : FunctionCommand) (argument : List Item)
  | colored (color : HexDigits) (body : List Item)
  /-- A script, which applies to the item before it. -/
  | script (mark : ScriptMark) (argument : List Item)

/-- An expression is a sequence of items. -/
abbrev Expression := List Item

/-- The expressions that an item is built from. -/
def Item.arguments : Item → List Expression
  | .char _ | .number _ | .symbol _ => []
  | .group body => [body]
  | .fraction _ numerator denominator => [numerator, denominator]
  | .binomial top bottom => [top, bottom]
  | .sqrt radicand => [radicand]
  | .root degree radicand => [degree, radicand]
  | .apply _ argument => [argument]
  | .colored _ body => [body]
  | .script _ argument => [argument]

/-- The induction over an expression, from its front and into the arguments
of its items. -/
@[elab_as_elim]
theorem Expression.induction {motive : Expression → Prop} (nil : motive [])
    (cons : ∀ (item : Item) (s : Expression), (∀ a ∈ item.arguments, motive a) → motive s →
      motive (item :: s)) : ∀ s, motive s := by
  refine @Item.rec_1 (fun item => ∀ a ∈ item.arguments, motive a) motive ?_ ?_ ?_ ?_ ?_ ?_ ?_ ?_
    ?_ ?_ ?_ nil fun item s => cons item s
  all_goals simp +contextual [Item.arguments]

/-- A script comes next. -/
def Expression.scriptFollows : Expression → Bool
  | .script _ _ :: _ => true
  | _ => false

/-! ### LaTeX notation -/

/-- A command with its arguments in braces. -/
def commandText (name : Text) (arguments : List Text) : Text :=
  '\\' :: (name ++ arguments.flatMap Delimiters.braces.enclose)

mutual

/-- An item in LaTeX notation. -/
def Item.latex : Item → Text
  | .char c => [c.char]
  | .number n => n.text
  | .symbol command => commandText command.name []
  | .group body => Delimiters.braces.enclose (Expression.latex body)
  | .fraction command numerator denominator =>
    commandText command.name [Expression.latex numerator, Expression.latex denominator]
  | .binomial top bottom =>
    commandText "binom".toList [Expression.latex top, Expression.latex bottom]
  | .sqrt radicand => commandText "sqrt".toList [Expression.latex radicand]
  | .root degree radicand =>
    '\\' :: ("sqrt".toList ++ Delimiters.brackets.enclose (Expression.latex degree)
      ++ Delimiters.braces.enclose (Expression.latex radicand))
  | .apply command argument => commandText command.name [Expression.latex argument]
  | .colored color body =>
    commandText "textcolor".toList ['#' :: color.digits, Expression.latex body]
  | .script mark argument =>
    mark.char :: Delimiters.braces.enclose (Expression.latex argument)

/-- An expression in LaTeX notation, with one space between items. -/
def Expression.latex : Expression → Text
  | [] => []
  | [item] => item.latex
  | item :: next :: s => item.latex ++ ' ' :: Expression.latex (next :: s)

end

/-! ### The translation -/

mutual

/-- The items in Typst notation, with one more item of an expression added to
those that are `done`.  A script is appended to the last of them, and all
other items stand behind it; `scripted` tells that a script follows. -/
def Item.addTypst (done : List Text) (scripted : Bool) : Item → List Text
  | .char c => done ++ [[c.char]]
  | .number n => done ++ [n.text]
  | .symbol command => done ++ [symbolName command.name]
  | .group body =>
    let inner := spaced (typstItems [] body)
    done ++ [if scripted ∧ inner ≠ [] then operand inner else inner]
  | .fraction _ numerator denominator =>
    done ++ [operand (spaced (typstItems [] numerator)) ++ ['/']
      ++ operand (spaced (typstItems [] denominator))]
  | .binomial top bottom =>
    done ++ [call "binom".toList [spaced (typstItems [] top), spaced (typstItems [] bottom)]]
  | .sqrt radicand => done ++ [call "sqrt".toList [spaced (typstItems [] radicand)]]
  | .root degree radicand =>
    done ++ [call "root".toList [spaced (typstItems [] degree), spaced (typstItems [] radicand)]]
  | .apply command argument => done ++ [call command.function [spaced (typstItems [] argument)]]
  | .colored color body =>
    done ++ ["#text(fill: rgb(\"#".toList ++ color.digits ++ "\"))[$".toList
      ++ spaced (typstItems [] body) ++ "$]".toList]
  | .script mark argument =>
    done.dropLast ++ [done.getLast?.getD ['"', '"'] ++ [mark.char]
      ++ operand (spaced (typstItems [] argument))]

/-- The items in Typst notation, with the items of an expression added to
those that are `done`. -/
def typstItems (done : List Text) : Expression → List Text
  | [] => done
  | item :: s => typstItems (item.addTypst done (Expression.scriptFollows s)) s

end

/-- The translation of an expression: its items that are not empty, with one
space between them. -/
def Expression.typst (s : Expression) : Text := spaced (typstItems [] s)

/-! ### Nodes -/

mutual

/-- The node of an item. -/
def Item.node : Item → Node
  | .char c => .char c.char
  | .number n => .number n.text
  | .symbol command => .named command.name
  | .group body => .group (Expression.nodes body)
  | .fraction _ numerator denominator =>
    .fraction (Expression.nodes numerator) (Expression.nodes denominator)
  | .binomial top bottom => .binomial (Expression.nodes top) (Expression.nodes bottom)
  | .sqrt radicand => .sqrt (Expression.nodes radicand)
  | .root degree radicand => .root (Expression.nodes degree) (Expression.nodes radicand)
  | .apply command argument => .apply command.name (Expression.nodes argument)
  | .colored color body => .colored ('#' :: color.digits) (Expression.nodes body)
  | .script mark argument => .script mark.char (Expression.nodes argument)

/-- The nodes of an expression. -/
def Expression.nodes : Expression → Formula
  | [] => []
  | item :: s => item.node :: Expression.nodes s

end

/-! ### The translation of the nodes -/

theorem colorText_hexDigits (color : HexDigits) :
    "#text(fill: ".toList ++ colorExpression ('#' :: color.digits) ++ ")[$".toList
      = "#text(fill: rgb(\"#".toList ++ color.digits ++ "\"))[$".toList := by
  have hblank : ∀ c ∈ '#' :: color.digits, Text.isBlank c = false := by
    intro c hc
    rcases List.mem_cons.1 hc with rfl | hc
    · decide
    · have hhex : ∀ x ∈ hexLetters, Text.isBlank x = false := by decide
      exact hhex c (mem_hexLetters (color.isHexDigit_of_mem c hc))
  rw [colorExpression, Text.trim_of_no_blank hblank]
  simp

theorem functionName_of_mem {name function : Text} (h : (name, function) ∈ functions) :
    functionName name = function := by
  have hall : ∀ e ∈ functions, functionName e.1 = e.2 := by decide
  exact hall _ h

theorem scriptFollows_nodes (s : Expression) :
    Formula.scriptFollows s.nodes = s.scriptFollows := by
  rcases s with - | ⟨item, s⟩
  · rfl
  · cases item <;> rfl

/-- A new item behind those that are done: its text is the one that scripts
can be added to, and the one before it is finished. -/
theorem behind_getLast? (done : List Text) (text : Text) :
    (done ++ [text]).dropLast = done.dropLast ++ (behind done.getLast? text).1 ∧
      (done ++ [text]).getLast? = (behind done.getLast? text).2 := by
  refine ⟨?_, by simp [behind]⟩
  rcases List.eq_nil_or_concat' done with rfl | ⟨front, last, rfl⟩ <;> simp [behind]

/-- The items that are done, all but the last of them finished, and a node
put behind them. -/
theorem Item.addTypst_eq {item : Item}
    (h : ∀ a ∈ item.arguments, items none a.nodes = typstItems [] a) (done : List Text)
    (scripted : Bool) :
    (item.addTypst done scripted).dropLast
        = done.dropLast ++ (put scripted done.getLast? item.node).1 ∧
      (item.addTypst done scripted).getLast? = (put scripted done.getLast? item.node).2 := by
  cases item with
  | char c =>
    have hplain : plainChar c.char = [c.char] := by
      have := c.not_mark
      simp only [markCharacters, List.mem_cons, not_or] at this
      simp [plainChar, this]
    simp only [addTypst, node, put, hplain]
    exact behind_getLast? _ _
  | colored color body =>
    simp only [addTypst, node, put, colorText_hexDigits, h body (by simp [arguments])]
    exact behind_getLast? _ _
  | apply command argument =>
    simp only [addTypst, node, put, functionName_of_mem command.mem,
      h argument (by simp [arguments])]
    exact behind_getLast? _ _
  | script mark argument =>
    simp [addTypst, node, put, h argument (by simp [arguments])]
  | _ =>
    simp_all only [addTypst, node, put, arguments, List.mem_cons, List.not_mem_nil, or_false,
      forall_eq_or_imp, forall_eq]
    exact behind_getLast? _ _

theorem typstItems_eq (s : Expression) (done : List Text) :
    typstItems done s = done.dropLast ++ items done.getLast? s.nodes := by
  induction s using Expression.induction generalizing done with
  | nil =>
    rcases List.eq_nil_or_concat' done with rfl | ⟨front, last, rfl⟩ <;>
      simp [typstItems, Expression.nodes, items]
  | cons item s hargs ih =>
    obtain ⟨hfinished, hnext⟩ :=
      Item.addTypst_eq (fun a ha => (by simpa using (hargs a ha []).symm)) done s.scriptFollows
    rw [typstItems, ih, hfinished, hnext, ← scriptFollows_nodes, List.append_assoc]
    rfl

/-- **The translation of an expression is the Typst notation of its nodes.** -/
theorem Expression.toTypst_nodes (s : Expression) : toTypst s.nodes = s.typst := by
  rw [toTypst, Expression.typst, typstItems_eq]
  rfl

end Formula

end AnnotatedEquation
