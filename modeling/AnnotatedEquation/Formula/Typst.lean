/-
AnnotatedEquation/Formula/Typst.lean

Writing formulas in Typst notation.

A formula is written as items with a space between neighbours.  A script or
a prime belongs to the item before it.  What a script, a fraction or a group
with a script applies to is one operand: a word, a quoted text, or anything
in parentheses.

* `Formula.toTypst` writes a formula;
* `Formula.convert` reads LaTeX notation and writes Typst notation.
-/
import AnnotatedEquation.Formula.Reader
import AnnotatedEquation.Text.Word

namespace AnnotatedEquation.Formula

/-! ### Symbols -/

/-- Commands with the names of their symbols.  Any other command has the
name of its symbol. -/
def symbols : List (Text × Text) :=
  [("epsilon", "epsilon.alt"), ("varepsilon", "epsilon"), ("phi", "phi.alt"), ("varphi", "phi"),
   ("vartheta", "theta.alt"), ("varrho", "rho.alt"), ("varsigma", "sigma.alt"),
   ("varpi", "pi.alt"), ("hbar", "planck.reduce"), ("ell", "ell"), ("cdot", "dot.op"),
   ("times", "times"), ("div", "div"), ("pm", "plus.minus"), ("mp", "minus.plus"), ("le", "<="),
   ("leq", "<="), ("ge", ">="), ("geq", ">="), ("ne", "!="), ("neq", "!="), ("ll", "<<"),
   ("gg", ">>"), ("approx", "approx"), ("equiv", "equiv"), ("sim", "tilde.op"),
   ("simeq", "tilde.eq"), ("propto", "prop"), ("in", "in"), ("notin", "in.not"),
   ("subset", "subset"), ("subseteq", "subset.eq"), ("cup", "union"), ("cap", "sect"),
   ("forall", "forall"), ("exists", "exists"), ("circ", "compose"), ("star", "star"),
   ("ast", "ast"), ("dagger", "dagger"), ("otimes", "times.circle"), ("oplus", "plus.circle"),
   ("wedge", "and"), ("vee", "or"), ("neg", "not"), ("infty", "infinity"), ("partial", "diff"),
   ("nabla", "nabla"), ("sum", "sum"), ("prod", "product"), ("int", "integral"),
   ("iint", "integral.double"), ("iiint", "integral.triple"), ("oint", "integral.cont"),
   ("prime", "prime"), ("emptyset", "emptyset"), ("to", "arrow.r"), ("rightarrow", "arrow.r"),
   ("leftarrow", "arrow.l"), ("gets", "arrow.l"), ("leftrightarrow", "arrow.l.r"),
   ("Rightarrow", "arrow.r.double"), ("Leftarrow", "arrow.l.double"),
   ("Leftrightarrow", "arrow.l.r.double"), ("implies", "arrow.r.double.long"),
   ("iff", "arrow.l.r.double.long"), ("mapsto", "arrow.r.bar"), ("langle", "angle.l"),
   ("rangle", "angle.r"), ("lvert", "|"), ("rvert", "|"), ("vert", "|"), ("mid", "|"),
   ("lVert", "||"), ("rVert", "||"), ("Vert", "||"), ("lfloor", "floor.l"),
   ("rfloor", "floor.r"), ("lceil", "ceil.l"), ("rceil", "ceil.r"), ("ldots", "dots"),
   ("dots", "dots"), ("cdots", "dots.c"), ("vdots", "dots.v"), ("ddots", "dots.down"),
   ("quad", "quad"), ("qquad", "wide")].map
    fun (command, name) => (command.toList, name.toList)

/-- Commands of one character that are no symbols for themselves. -/
def charSymbols : List (Char × Text) :=
  [(',', "thin".toList), (':', "med".toList), (';', "med".toList), (' ', "thin".toList),
   ('!', []), ('|', ['|', '|']), ('#', ['\\', '#']), ('$', ['\\', '$']), ('_', ['\\', '_'])]

/-- The symbol of a command of one character. -/
def charSymbol : Option Char → Text
  | some c => (charSymbols.lookup c).getD [c]
  | none => []

/-- The symbol of a command. -/
def symbolName (command : Text) : Text := (symbols.lookup command).getD command

/-- The function of a command of one argument. -/
def functionName (command : Text) : Text := (functions.lookup command).getD command

/-- A character that stands for itself. -/
def plainChar (c : Char) : Text := if c ∈ ['"', '#', '$'] then ['\\', c] else [c]

/-- Text between quotes. -/
def quotedText (raw : Text) : Text :=
  ['"'] ++ raw.flatMap (fun c => if c = '"' ∨ c = '\\' then ['\\', c] else [c]) ++ ['"']

/-- A color: digits behind a hash, or a name. -/
def colorExpression (color : Text) : Text :=
  match Text.trim color with
  | '#' :: digits => "rgb(\"#".toList ++ digits ++ "\")".toList
  | name => name

/-! ### Operands -/

/-- A character of a name or a number. -/
def isNameChar (c : Char) : Bool := Text.isWord c || c = '.'

/-- The text is a word, or a quoted text. -/
def isOperand (t : Text) : Bool :=
  (t ≠ [] && t.all isNameChar) ||
    match t with
    | '"' :: s => s.dropWhile (· ≠ '"') = ['"']
    | _ => false

/-- The text as one operand. -/
def operand (t : Text) : Text := if isOperand t then t else ['('] ++ t ++ [')']

/-- Items with a space between neighbours; empty ones are left out. -/
def spaced (items : List Text) : Text := Text.joinWith [' '] (items.filter (· ≠ []))

/-- A call of a function. -/
def call (function : Text) (arguments : List Text) : Text :=
  function ++ ['('] ++ Text.joinWith [',', ' '] arguments ++ [')']

/-! ### Formulas -/

/-- A script or a prime comes next. -/
def scriptFollows : Formula → Bool
  | .script _ _ :: _ => true
  | .prime :: _ => true
  | _ => false

/-- A new item behind the one that scripts could be added to. -/
def behind (current : Option Text) (item : Text) : List Text × Option Text :=
  (current.toList, some item)

mutual

/-- Puts a node behind an item that scripts can be added to, if there is
one: the items that are finished by it, and the one that scripts can be added
to from now on.  `scripted` tells that a script or a prime follows. -/
def put (scripted : Bool) (current : Option Text) : Node → List Text × Option Text
  | .script mark argument =>
    ([], some (current.getD ['"', '"'] ++ [mark] ++ operand (spaced (items none argument))))
  | .prime => ([], some (current.getD [] ++ ['\'']))
  | .layout => ([], current)
  | .char c => behind current (plainChar c)
  | .number digits => behind current digits
  | .group body =>
    let inner := spaced (items none body)
    behind current (if scripted ∧ inner ≠ [] then operand inner else inner)
  | .symbol c => behind current (charSymbol c)
  | .fraction numerator denominator =>
    behind current (operand (spaced (items none numerator)) ++ ['/']
      ++ operand (spaced (items none denominator)))
  | .binomial top bottom =>
    behind current (call "binom".toList [spaced (items none top), spaced (items none bottom)])
  | .sqrt radicand => behind current (call "sqrt".toList [spaced (items none radicand)])
  | .root degree radicand =>
    behind current (call "root".toList [spaced (items none degree), spaced (items none radicand)])
  | .text raw => behind current (quotedText raw)
  | .operator raw => behind current (call "op".toList [quotedText raw])
  | .colored color body =>
    behind current ("#text(fill: ".toList ++ colorExpression color ++ ")[$".toList
      ++ spaced (items none body) ++ "$]".toList)
  | .classed body => behind current (spaced (items none body))
  | .apply command argument =>
    behind current (call (functionName command) [spaced (items none argument)])
  | .named command => behind current (symbolName command)

/-- The items of a formula, behind an item that scripts can be added to. -/
def items (current : Option Text) : Formula → List Text
  | [] => current.toList
  | node :: nodes =>
    let (finished, next) := put (scriptFollows nodes) current node
    finished ++ items next nodes

end

/-- The formula in Typst notation. -/
def toTypst (formula : Formula) : Text := spaced (items none formula)

/-- LaTeX notation put into Typst notation. -/
def convert (source : Text) : Except Char Text := (read source).map toTypst

end AnnotatedEquation.Formula
