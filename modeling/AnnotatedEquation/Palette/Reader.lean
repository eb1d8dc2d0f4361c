/-
AnnotatedEquation/Palette/Reader.lean

Palettes from files.  A palette file holds a JSON object with a list of
`colors` and perhaps a `name`; a palette without a name, or with one that
says nothing, is called after its file.
-/
import AnnotatedEquation.Files.Path
import AnnotatedEquation.Json.Reader
import AnnotatedEquation.Palette.Basic

namespace AnnotatedEquation.Palette

/-- A name as text. -/
def nameText (value : Json) : Text := value.text?.getD value.display

/-- The palette that the text of a file writes. -/
def ofText (path : Path) (source : Text) : Except Failure Palette :=
  match Json.read source with
  | .error .malformed => .error (.notJson path.text)
  | .error .overlong => .error (.undecodable path.text)
  | .ok value =>
    match value.member? "colors".toList with
    | some (.array colors) =>
      let name := match value.member? "name".toList with
        | some name => if name.isVoid then path.stem else nameText name
        | none => path.stem
      ofValues name colors
    | _ => .error (.noColorList path.text)

end AnnotatedEquation.Palette
