/-
AnnotatedEquation/Palette/Builtin.lean

The palettes that come with the library, under their keys.
-/
import AnnotatedEquation.Palette.Basic

namespace AnnotatedEquation.Palette

/-- The palette `vibrant`. -/
def vibrant : Palette where
  name := "Vibrant".toList
  colors := List.map String.toList
    ["#8b5cf6", "#10b981", "#ec4899", "#3b82f6", "#06b6d4", "#f59e0b",
     "#ef4444", "#a855f7", "#14b8a6", "#84cc16", "#6366f1", "#f97316"]
  all_hex := by decide +kernel

/-- The palette `accessible`. -/
def accessible : Palette where
  name := "Accessible".toList
  colors := List.map String.toList
    ["#0072B2", "#E69F00", "#009E73", "#56B4E9", "#CC79A7", "#F0E442",
     "#D55E00", "#000000", "#999999", "#4B0082", "#8B4513", "#2F4F4F"]
  all_hex := by decide +kernel

/-- The palette `contrast`. -/
def contrast : Palette where
  name := "High Contrast".toList
  colors := List.map String.toList
    ["#0066CC", "#FF6600", "#9933CC", "#00AA88", "#CC0066", "#CCAA00",
     "#CC3300", "#006600", "#660099", "#996633", "#336699", "#663366"]
  all_hex := by decide +kernel

/-- The palette `nocolor`: every term is black. -/
def nocolor : Palette where
  name := "No color".toList
  colors := List.replicate 12 "#000000".toList
  all_hex := by decide +kernel

/-- The palette `viridis`. -/
def viridis : Palette where
  name := "Viridis".toList
  colors := List.map String.toList
    ["#440154", "#31688e", "#35b779", "#fde724", "#20908d", "#5ec962",
     "#3b528b", "#29af7f", "#2c728e", "#482173"]
  all_hex := by decide +kernel

/-- The built-in palettes under their keys, in order. -/
def builtin : Entries Palette :=
  [("vibrant".toList, vibrant), ("accessible".toList, accessible),
   ("contrast".toList, contrast), ("nocolor".toList, nocolor), ("viridis".toList, viridis)]

/-- The key of the palette to use where none is asked for. -/
def defaultKey : Text := "vibrant".toList

/-- The built-in palette under a key. -/
def named (key : Text) : Except Failure Palette :=
  match builtin.get? key with
  | some palette => .ok palette
  | none => .error (.unknownPalette key)

end AnnotatedEquation.Palette
