import AnnotatedEquation.Command.Arguments
import AnnotatedEquation.Command.Choice
import AnnotatedEquation.Command.Invocation
import AnnotatedEquation.Command.Run
import AnnotatedEquation.Decimal.Binary64
import AnnotatedEquation.Decimal.Shortest
import AnnotatedEquation.Document.Beamer
import AnnotatedEquation.Document.ColorLiteral
import AnnotatedEquation.Document.Format
import AnnotatedEquation.Document.Html
import AnnotatedEquation.Document.Latex
import AnnotatedEquation.Document.Notice
import AnnotatedEquation.Document.PageScript
import AnnotatedEquation.Document.PageStyle
import AnnotatedEquation.Document.Typst
import AnnotatedEquation.Entries
import AnnotatedEquation.Escape.Html
import AnnotatedEquation.Escape.InlineMath
import AnnotatedEquation.Escape.Reserved
import AnnotatedEquation.Failure
import AnnotatedEquation.Files.Path
import AnnotatedEquation.Files.Tree
import AnnotatedEquation.Formula.Basic
import AnnotatedEquation.Formula.Reader
import AnnotatedEquation.Formula.Typst
import AnnotatedEquation.Interaction
import AnnotatedEquation.Json.Basic
import AnnotatedEquation.Json.Reader
import AnnotatedEquation.Main
import AnnotatedEquation.Markup.Delimiter
import AnnotatedEquation.Markup.EquationSpan
import AnnotatedEquation.Markup.Fragment
import AnnotatedEquation.Markup.Mark
import AnnotatedEquation.Markup.ProseSpan
import AnnotatedEquation.Markup.Reference
import AnnotatedEquation.Markup.TagStyle
import AnnotatedEquation.Palette.Basic
import AnnotatedEquation.Palette.Builtin
import AnnotatedEquation.Palette.Reader
import AnnotatedEquation.Source.Content
import AnnotatedEquation.Source.Draft
import AnnotatedEquation.Source.Problem
import AnnotatedEquation.Text.Basic
import AnnotatedEquation.Text.Blank
import AnnotatedEquation.Text.Case
import AnnotatedEquation.Text.CodeRanges
import AnnotatedEquation.Text.Digit
import AnnotatedEquation.Text.Lines
import AnnotatedEquation.Text.Numeral
import AnnotatedEquation.Text.Printable
import AnnotatedEquation.Text.Quoted
import AnnotatedEquation.Text.Styling
import AnnotatedEquation.Text.Word
import AnnotatedEquation.Proofs.Text.Occurrence
import AnnotatedEquation.Proofs.Text.Part
import AnnotatedEquation.Proofs.Entries
import AnnotatedEquation.Proofs.Markup.Forest
import AnnotatedEquation.Proofs.Markup.Level
import AnnotatedEquation.Proofs.Markup.Layout
import AnnotatedEquation.Proofs.Markup.Decomposition
import AnnotatedEquation.Proofs.Markup.Reading
import AnnotatedEquation.Proofs.Markup.Site
import AnnotatedEquation.Proofs.Markup.ReadBack
import AnnotatedEquation.Proofs.Source.Lines
import AnnotatedEquation.Proofs.Source.Equation
import AnnotatedEquation.Proofs.Palette.Resolution
import AnnotatedEquation.Proofs.Document.Lookup
import AnnotatedEquation.Proofs.Failure
import AnnotatedEquation.Proofs.Document.Sparing
import AnnotatedEquation.Proofs.Markup.ProseBack
import AnnotatedEquation.Proofs.Source.Description
import AnnotatedEquation.Proofs.Document.Colors
import AnnotatedEquation.Proofs.Markup.Found
import AnnotatedEquation.Proofs.Markup.Flat
import AnnotatedEquation.Proofs.Escape.Latex
import AnnotatedEquation.Proofs.Source.Drawn
import AnnotatedEquation.Proofs.Markup.Bare
import AnnotatedEquation.Proofs.Document.Bare
import AnnotatedEquation.Proofs.Markup.Preorder
import AnnotatedEquation.Proofs.Document.Anchors
import AnnotatedEquation.Proofs.Palette.Hex
import AnnotatedEquation.Proofs.Text.Caseless
import AnnotatedEquation.Proofs.Document.ColorLiteral
import AnnotatedEquation.Proofs.Document.Unconverted
import AnnotatedEquation.Proofs.Document.Refusal
import AnnotatedEquation.Proofs.Document.Coordinate
import AnnotatedEquation.Proofs.Document.OneEquation
import AnnotatedEquation.Proofs.Document.ColorNames
import AnnotatedEquation.Proofs.Source.Streams
import AnnotatedEquation.Proofs.Source.Outline
import AnnotatedEquation.Proofs.Source.Sections
import AnnotatedEquation.Proofs.Source.Growth
import AnnotatedEquation.Proofs.Source.CrossCheck
import AnnotatedEquation.Proofs.Source.References
import AnnotatedEquation.Proofs.Formula.Expression
import AnnotatedEquation.Proofs.Formula.Reading
import AnnotatedEquation.Proofs.Formula.Translation
import AnnotatedEquation.Proofs.Escape.Pairing
import AnnotatedEquation.Proofs.Escape.Spelling
import AnnotatedEquation.Proofs.Document.ShownText
import AnnotatedEquation.Proofs.Interaction
import AnnotatedEquation.Proofs.Files.Tree
import AnnotatedEquation.Proofs.Command.Export
import AnnotatedEquation.Proofs.Text.Styling
import AnnotatedEquation.Proofs.Command.Sources
import AnnotatedEquation.Proofs.Command.StrictCheck
import AnnotatedEquation.Proofs.Command.Validation
import AnnotatedEquation.Proofs.Document.Declarations
import AnnotatedEquation.Proofs.Formula.Places
import AnnotatedEquation.Proofs.Formula.Outcome
import AnnotatedEquation.Proofs.Formula.Lexical
import AnnotatedEquation.Proofs.Formula.Skeleton
import AnnotatedEquation.Proofs.Formula.Blocks
import AnnotatedEquation.Proofs.Formula.Levels
import AnnotatedEquation.Proofs.Formula.Arguments
import AnnotatedEquation.Proofs.Formula.Operand
import AnnotatedEquation.Proofs.Formula.Cursor
import AnnotatedEquation.Proofs.Formula.Tracking
import AnnotatedEquation.Proofs.Text.Position
import AnnotatedEquation.Proofs.Text.Pattern
import AnnotatedEquation.Proofs.Markup.Place
import AnnotatedEquation.Proofs.Markup.Search
import AnnotatedEquation.Proofs.Markup.Replacing
import AnnotatedEquation.Proofs.Markup.Visiting
import AnnotatedEquation.Proofs.Source.Scanning
import AnnotatedEquation.Proofs.Source.Machine
import AnnotatedEquation.Proofs.Markup.Matching
import AnnotatedEquation.Proofs.Palette.Digits
import AnnotatedEquation.Proofs.Files.Path
import AnnotatedEquation.Proofs.Text.Rewriting
import AnnotatedEquation.Proofs.Command.DefaultOutput
import AnnotatedEquation.Proofs.Document.Literal
import AnnotatedEquation.Proofs.Document.Swapping
import AnnotatedEquation.Proofs.Document.QuietName
