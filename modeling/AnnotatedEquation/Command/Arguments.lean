/-
AnnotatedEquation/Command/Arguments.lean

Taking command-line arguments apart into options and operands.

An option has a long name, which is written out in full, and perhaps a short
one.  Short options may be joined in one argument.  A value is joined to a
long name by an equals sign or to a short one directly, or else it is the
next argument, whatever that looks like.  Two dashes end the options, and a
single dash is an operand.
-/
import AnnotatedEquation.Text.Basic

namespace AnnotatedEquation

/-- An option that a command knows. -/
structure OptionRule (α : Type) where
  option : α
  long : Text
  short : Option Char := none
  takesValue : Bool := false

/-- The options given, each with its value, and the operands. -/
structure Arguments (α : Type) where
  options : List (α × Text) := []
  operands : List Text := []

namespace Arguments

variable {α : Type}

/-- The options given in one argument, and one that still waits for its
value. -/
structure Given (α : Type) where
  options : List (α × Text) := []
  waiting : Option α := none

/-- The options that characters give, joined behind a dash. -/
def cluster? (rules : List (OptionRule α)) : Text → Option (Given α)
  | [] => some {}
  | c :: s => do
    let rule ← rules.find? (·.short = some c)
    if rule.takesValue then
      if s = [] then some { waiting := some rule.option }
      else some { options := [(rule.option, s)] }
    else
      let more ← cluster? rules s
      some { more with options := (rule.option, []) :: more.options }

/-- The options that an argument gives which begins with a dash. -/
def given? (rules : List (OptionRule α)) (argument : Text) : Option (Given α) :=
  let name := argument.takeWhile (· ≠ '=')
  let value := (argument.dropWhile (· ≠ '=')).tail?
  match rules.find? (·.long = name) with
  | some rule =>
    match rule.takesValue, value with
    | true, some value => some { options := [(rule.option, value)] }
    | true, none => some { waiting := some rule.option }
    | false, some _ => none
    | false, none => some { options := [(rule.option, [])] }
  | none => if ['-', '-'] <+: argument then none else cluster? rules (argument.drop 1)

/-- Options in front of others. -/
def before (options : List (α × Text)) (more : Arguments α) : Arguments α :=
  { more with options := options ++ more.options }

/-- An operand in front of others. -/
def operandBefore (operand : Text) (more : Arguments α) : Arguments α :=
  { more with operands := operand :: more.operands }

/-- Takes arguments apart; gives nothing if an option is unknown or misused.
`mixed` tells that options may follow operands. -/
def read? (rules : List (OptionRule α)) (mixed : Bool) : List Text → Option (Arguments α)
  | [] => some {}
  | argument :: rest =>
    if argument = ['-', '-'] then some { operands := rest }
    else if argument.head? = some '-' ∧ argument ≠ ['-'] then do
      let given ← given? rules argument
      match given.waiting, rest with
      | none, rest => (read? rules mixed rest).map (before given.options)
      | some _, [] => none
      | some option, value :: rest =>
        (read? rules mixed rest).map (before (given.options ++ [(option, value)]))
    else if mixed then (read? rules mixed rest).map (operandBefore argument)
    else some { operands := argument :: rest }

/-- An option is given. -/
def has [BEq α] (a : Arguments α) (option : α) : Bool := a.options.any (·.1 == option)

/-- The value of an option, given last if it is given repeatedly. -/
def value? [BEq α] (a : Arguments α) (option : α) : Option Text := a.options.reverse.lookup option

end Arguments

end AnnotatedEquation
