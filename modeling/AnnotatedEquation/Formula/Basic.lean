/-
AnnotatedEquation/Formula/Basic.lean

Math formulas as trees, and the classes of the commands that may occur in
them.  A formula is a sequence of nodes; scripts and primes are nodes of
their own, which apply to what stands before them.
-/
import AnnotatedEquation.Text.Basic

namespace AnnotatedEquation

namespace Formula

/-- A piece of a formula. -/
inductive Node where
  /-- A character that stands for itself. -/
  | char (c : Char)
  | number (digits : Text)
  | group (body : List Node)
  /-- A superscript or a subscript, told by its mark. -/
  | script (mark : Char) (argument : List Node)
  | prime
  /-- A command of one character that is no letter; there is none where the
  source ends in a backslash. -/
  | symbol (c : Option Char)
  | fraction (numerator denominator : List Node)
  | binomial (top bottom : List Node)
  | sqrt (radicand : List Node)
  | root (degree radicand : List Node)
  /-- Upright text. -/
  | text (raw : Text)
  /-- The name of an operator. -/
  | operator (raw : Text)
  | colored (color : Text) (body : List Node)
  /-- The argument of a class command, whose class is dropped. -/
  | classed (body : List Node)
  /-- A command that applies to one argument. -/
  | apply (command : Text) (argument : List Node)
  /-- A command that stands for a symbol. -/
  | named (command : Text)
  /-- A command that concerns the layout alone. -/
  | layout
  deriving Repr

/-- What a command is, which decides how its arguments are read. -/
inductive CommandClass where
  /-- A layout command; `swallowsDot` if it also takes a dot behind it. -/
  | layout (swallowsDot : Bool)
  | fraction
  | binomial
  | root
  | text
  | operator
  /-- Colors its second argument. -/
  | textColor
  /-- Colors all that follows it. -/
  | restColor
  | htmlClass
  | function
  | symbol
  deriving DecidableEq, Repr

/-! ### Tables of commands -/

/-- Layout commands that a dot may follow. -/
def fences : List Text := ["left", "right"].map String.toList

/-- The other layout commands. -/
def layoutCommands : List Text :=
  ["big", "Big", "bigg", "Bigg", "displaystyle", "textstyle", "limits", "nolimits"].map
    String.toList

def fractionCommands : List Text := ["frac", "dfrac", "tfrac", "cfrac"].map String.toList

def textCommands : List Text := ["text", "textrm", "textit", "textbf", "mbox"].map String.toList

/-- The commands of one argument, with the Typst functions that they stand
for. -/
def functions : List (Text × Text) :=
  [("vec", "arrow"), ("hat", "hat"), ("widehat", "hat"), ("bar", "overline"),
   ("overline", "overline"), ("underline", "underline"), ("tilde", "tilde"),
   ("widetilde", "tilde"), ("dot", "dot"), ("ddot", "dot.double"), ("mathbf", "bold"),
   ("boldsymbol", "bold"), ("bm", "bold"), ("mathrm", "upright"), ("mathit", "italic"),
   ("mathcal", "cal"), ("mathbb", "bb"), ("mathfrak", "frak"), ("mathsf", "sans"),
   ("mathtt", "mono"), ("abs", "abs"), ("norm", "norm")].map
    fun (command, function) => (command.toList, function.toList)

/-- The class of a command. -/
def CommandClass.of (command : Text) : CommandClass :=
  if command ∈ fences then .layout true
  else if command ∈ layoutCommands then .layout false
  else if command ∈ fractionCommands then .fraction
  else if command = "binom".toList then .binomial
  else if command = "sqrt".toList then .root
  else if command ∈ textCommands then .text
  else if command = "operatorname".toList then .operator
  else if command = "textcolor".toList then .textColor
  else if command = "color".toList then .restColor
  else if command = "htmlClass".toList then .htmlClass
  else if (functions.lookup command).isSome then .function
  else .symbol

end Formula

/-- A formula is a sequence of nodes. -/
abbrev Formula := List Formula.Node

end AnnotatedEquation
