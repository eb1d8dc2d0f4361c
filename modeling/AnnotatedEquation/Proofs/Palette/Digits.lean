/-
AnnotatedEquation/Proofs/Palette/Digits.lean

The digits that a document is given for a color, and the color that they
denote.

* `ownDigits` are the digits of a color as it is written, and `sixDigits` the
  same in upper case, each twice if there are three;
* `rgb?` is what a color denotes: how much red, green and blue.

A color that is accepted is a hash, its digits and perhaps a line feed
(`exists_digits_of_isHexColor`).  The line feed is counted with the digits, so
that three of them are no longer three and stay single.

Main statements: the digits of a color are given in the six-digit form exactly
if no line feed ends it, and two colors are given alike exactly if they denote
the same and are broken alike (`hexDigits_of_accepted_colors`).
-/
import AnnotatedEquation.Palette.Basic
import AnnotatedEquation.Proofs.Palette.Hex
import Mathlib.Data.List.Basic

namespace AnnotatedEquation

variable {c d : Char} {color digits other : Text} {a b : Text} {u v : List Nat}

/-! ### What a color denotes -/

/-- The digits of a color as it is written. -/
def ownDigits (color : Text) : Text := color.filter isHexDigit

/-- Each item twice if there are three of them. -/
def doubled {α : Type} (l : List α) : List α :=
  if l.length = 3 then l.flatMap fun x => [x, x] else l

/-- The digits of a color in upper case, each twice if there are three. -/
def sixDigits (color : Text) : Text := (doubled (ownDigits color)).map Char.toUpper

/-- The digits of the six-digit form. -/
def upperHexLetters : Text := "0123456789ABCDEF".toList

/-- The value of a hexadecimal digit. -/
def hexValue (c : Char) : Nat := if c ≤ '9' then c.toNat - 48 else c.toLower.toNat - 87

/-- Red, green and blue, each from 0 to 255.  A digit that stands alone counts
for two of its kind. -/
def channels? : List Nat → Option (Nat × Nat × Nat)
  | [r, g, b] => some (17 * r, 17 * g, 17 * b)
  | [r, r', g, g', b, b'] => some (16 * r + r', 16 * g + g', 16 * b + b')
  | _ => none

/-- The red, green and blue that a color denotes. -/
def rgb? (color : Text) : Option (Nat × Nat × Nat) := channels? ((ownDigits color).map hexValue)

/-! ### Digits and their values -/

theorem hexValue_lt (hc : isHexDigit c) : hexValue c < 16 := by
  have hall : ∀ c ∈ hexLetters, hexValue c < 16 := by decide
  exact hall c (mem_hexLetters hc)

theorem toUpper_eq_iff (hc : isHexDigit c) (hd : isHexDigit d) :
    c.toUpper = d.toUpper ↔ hexValue c = hexValue d := by
  have hall : ∀ c ∈ hexLetters, ∀ d ∈ hexLetters,
      (c.toUpper = d.toUpper ↔ hexValue c = hexValue d) := by decide
  exact hall c (mem_hexLetters hc) d (mem_hexLetters hd)

theorem toUpper_mem_upperHexLetters (hc : isHexDigit c) : c.toUpper ∈ upperHexLetters := by
  have hall : ∀ c ∈ hexLetters, c.toUpper ∈ upperHexLetters := by decide
  exact hall c (mem_hexLetters hc)

theorem upperChar_of_isHexDigit (hc : isHexDigit c) : Text.upperChar c = [c.toUpper] := by
  have hall : ∀ c ∈ hexLetters, Text.upperChar c = [c.toUpper] := by decide
  exact hall c (mem_hexLetters hc)

theorem upper_of_isHexDigit (h : ∀ c ∈ digits, isHexDigit c) :
    Text.upper digits = digits.map Char.toUpper := by
  rw [Text.upper, List.map_eq_flatMap]
  exact List.flatMap_congr fun c hc => upperChar_of_isHexDigit (h c hc)

/-- Digits are the same in upper case exactly if their values are. -/
theorem map_toUpper_eq_iff (h : ∀ c ∈ digits, isHexDigit c) (h' : ∀ c ∈ other, isHexDigit c) :
    digits.map Char.toUpper = other.map Char.toUpper ↔
      digits.map hexValue = other.map hexValue := by
  induction digits generalizing other with
  | nil => simp
  | cons c digits ih =>
    rcases other with - | ⟨d, other⟩
    · simp
    · obtain ⟨hc, h⟩ := List.forall_mem_cons.1 h
      obtain ⟨hd, h'⟩ := List.forall_mem_cons.1 h'
      rw [List.map_cons, List.map_cons, List.map_cons, List.map_cons, List.cons.injEq,
        List.cons.injEq, toUpper_eq_iff hc hd, ih h h']

/-! ### Doubling -/

theorem mem_doubled {α : Type} {l : List α} {x : α} : x ∈ doubled l ↔ x ∈ l := by
  rw [doubled]
  split <;> simp

theorem map_doubled {α β : Type} (f : α → β) (l : List α) :
    (doubled l).map f = doubled (l.map f) := by
  simp only [doubled, List.length_map]
  split
  · simp [List.map_flatMap, List.flatMap_map]
  · rfl

theorem length_doubled {α : Type} {l : List α} (h : l.length = 3 ∨ l.length = 6) :
    (doubled l).length = 6 := by
  rw [doubled]
  rcases h with h | h <;> simp [h]

/-- The numbers are the values of digits in one of the two forms. -/
def IsForm (u : List Nat) : Prop := (u.length = 3 ∨ u.length = 6) ∧ ∀ n ∈ u, n < 16

theorem exists_of_length_eq_six {α : Type} {l : List α} (h : l.length = 6) :
    ∃ r r' g g' b b', l = [r, r', g, g', b, b'] := by
  match l, h with
  | [r, r', g, g', b, b'], _ => exact ⟨r, r', g, g', b, b', rfl⟩

theorem channels?_doubled (h : u.length = 3 ∨ u.length = 6) :
    channels? (doubled u) = channels? u := by
  rcases h with h | h
  · obtain ⟨r, g, b, rfl⟩ := List.length_eq_three.1 h
    have hpair : ∀ n, 16 * n + n = 17 * n := fun n => by omega
    simp [channels?, doubled, hpair]
  · rw [doubled, if_neg (by omega)]

/-- Six values below sixteen are told by what they denote. -/
theorem channels?_inj (hu : u.length = 6) (hv : v.length = 6) (hu' : ∀ n ∈ u, n < 16)
    (hv' : ∀ n ∈ v, n < 16) : channels? u = channels? v ↔ u = v := by
  obtain ⟨r, r', g, g', b, b', rfl⟩ := exists_of_length_eq_six hu
  obtain ⟨s, s', h, h', c, c', rfl⟩ := exists_of_length_eq_six hv
  have hpair : ∀ {m m' n n' : Nat}, m' < 16 → n' < 16 →
      (16 * m + m' = 16 * n + n' ↔ m = n ∧ m' = n') := by omega
  rw [List.forall_mem_cons, List.forall_mem_cons, List.forall_mem_cons, List.forall_mem_cons,
    List.forall_mem_cons, List.forall_mem_singleton] at hu' hv'
  obtain ⟨-, hr, -, hg, -, hb⟩ := hu'
  obtain ⟨-, hs, -, hh, -, hc⟩ := hv'
  simp only [channels?, Option.some.injEq, Prod.mk.injEq, hpair hr hs, hpair hg hh, hpair hb hc,
    List.cons.injEq, and_true, and_assoc]

/-- **Values denote the same color exactly if they are the same when doubled.** -/
theorem channels?_eq_iff (hu : IsForm u) (hv : IsForm v) :
    channels? u = channels? v ↔ doubled u = doubled v := by
  rw [← channels?_doubled hu.1, ← channels?_doubled hv.1]
  exact channels?_inj (length_doubled hu.1) (length_doubled hv.1)
    (fun n hn => hu.2 n (mem_doubled.1 hn)) fun n hn => hv.2 n (mem_doubled.1 hn)

theorem isSome_channels? (h : u.length = 3 ∨ u.length = 6) : (channels? u).isSome := by
  rw [← channels?_doubled h]
  obtain ⟨r, r', g, g', b, b', heq⟩ := exists_of_length_eq_six (length_doubled h)
  rw [heq]
  rfl

theorem doubled_eq_iff {α : Type} {l l' : List α} (h : l.length = l'.length) :
    doubled l = doubled l' ↔ l = l' := by
  rw [doubled, doubled, h]
  split
  · next hlength =>
    obtain ⟨x, y, z, rfl⟩ := List.length_eq_three.1 (h.trans hlength)
    obtain ⟨x', y', z', rfl⟩ := List.length_eq_three.1 hlength
    simp
  · rfl

/-! ### Accepted colors -/

/-- A color that is accepted is a hash, its digits and perhaps a line feed. -/
theorem exists_digits_of_isHexColor (h : isHexColor color) :
    ∃ digits, (color = '#' :: digits ∨ color = '#' :: (digits ++ ['\n'])) ∧
      (digits.length = 3 ∨ digits.length = 6) ∧ ∀ c ∈ digits, isHexDigit c := by
  rw [isHexColor.eq_def] at h
  split at h
  · next s =>
    simp only [Bool.and_eq_true, Bool.or_eq_true, decide_eq_true_eq, List.all_eq_true] at h
    refine ⟨dropFinalNewline s, ?_, h.1, h.2⟩
    rw [dropFinalNewline]
    split
    · next hlast => exact Or.inr (by rw [List.dropLast_append_getLast? '\n' hlast])
    · exact Or.inl rfl
  · cases h

/-- A line feed ends the color. -/
def EndsInNewline (color : Text) : Prop := color.getLast? = some '\n'

instance : Decidable (EndsInNewline color) := inferInstanceAs (Decidable (_ = _))

theorem not_endsInNewline_of_digits (h : ∀ c ∈ digits, isHexDigit c) :
    ¬ EndsInNewline ('#' :: digits) := by
  intro hlast
  rcases List.mem_cons.1 (List.mem_of_getLast? hlast) with heq | hmem
  · exact absurd heq (by decide)
  · exact absurd (h _ hmem) (by decide)

theorem endsInNewline_of_newline : EndsInNewline ('#' :: (digits ++ ['\n'])) := by
  rw [EndsInNewline, ← List.cons_append, List.getLast?_concat]

theorem ownDigits_of_digits (h : ∀ c ∈ digits, isHexDigit c) :
    ownDigits ('#' :: digits) = digits ∧ ownDigits ('#' :: (digits ++ ['\n'])) = digits := by
  have hhash : isHexDigit '#' = false := by decide
  have hnewline : isHexDigit '\n' = false := by decide
  have hall : digits.filter isHexDigit = digits := List.filter_eq_self.2 h
  simp [ownDigits, hhash, hnewline, hall]

/-- **The digits of an accepted color**: the six-digit form, unless a line feed
ends the color, which keeps the digits as they are and stays behind them. -/
theorem hexDigits_of_isHexColor (h : isHexColor color) :
    hexDigits color =
      if EndsInNewline color then (ownDigits color).map Char.toUpper ++ ['\n']
      else sixDigits color := by
  obtain ⟨digits, hcolor, hlength, hdigits⟩ := exists_digits_of_isHexColor h
  have hne : digits ≠ [] := by
    rintro rfl
    simp at hlength
  obtain ⟨hown, hown'⟩ := ownDigits_of_digits hdigits
  rcases hcolor with rfl | rfl
  · have hdrop := dropWhile_hash hdigits hne []
    rw [List.append_nil] at hdrop
    rw [if_neg (not_endsInNewline_of_digits hdigits), hexDigits, hdrop, sixDigits, hown]
    refine upper_of_isHexDigit fun c hc => hdigits c ?_
    exact mem_doubled.1 hc
  · have hnewline : Text.upper ['\n'] = ['\n'] := by decide
    have hthree : (digits ++ ['\n']).length ≠ 3 := by
      rw [List.length_append, List.length_singleton]
      omega
    rw [if_pos endsInNewline_of_newline, hexDigits, dropWhile_hash hdigits hne, hown']
    simp only [if_neg hthree]
    rw [Text.upper, List.flatMap_append]
    exact congrArg₂ (· ++ ·) (upper_of_isHexDigit hdigits) hnewline

/-- The digits of an accepted color are in one of the two forms. -/
theorem isForm_of_isHexColor (h : isHexColor color) :
    (∀ c ∈ ownDigits color, isHexDigit c) ∧ IsForm ((ownDigits color).map hexValue) := by
  have hdigits : ∀ c ∈ ownDigits color, isHexDigit c := fun c hc => (List.mem_filter.1 hc).2
  refine ⟨hdigits, ?_, ?_⟩
  · obtain ⟨digits, hcolor, hlength, hall⟩ := exists_digits_of_isHexColor h
    obtain ⟨hown, hown'⟩ := ownDigits_of_digits hall
    rw [List.length_map]
    rcases hcolor with rfl | rfl
    · rwa [hown]
    · rwa [hown']
  · intro n hn
    obtain ⟨c, hc, rfl⟩ := List.mem_map.1 hn
    exact hexValue_lt (hdigits c hc)

theorem sixDigits_spec (h : isHexColor color) :
    (sixDigits color).length = 6 ∧ ∀ c ∈ sixDigits color, c ∈ upperHexLetters := by
  obtain ⟨hdigits, hform, -⟩ := isForm_of_isHexColor h
  rw [List.length_map] at hform
  refine ⟨by rw [sixDigits, List.length_map, length_doubled hform], fun x hx => ?_⟩
  obtain ⟨c, hc, rfl⟩ := List.mem_map.1 hx
  exact toUpper_mem_upperHexLetters (hdigits c (mem_doubled.1 hc))

theorem sixDigits_eq_iff (ha : isHexColor a) (hb : isHexColor b) :
    sixDigits a = sixDigits b ↔ rgb? a = rgb? b := by
  obtain ⟨hdigits, hform⟩ := isForm_of_isHexColor ha
  obtain ⟨hdigits', hform'⟩ := isForm_of_isHexColor hb
  rw [rgb?, rgb?, channels?_eq_iff hform hform', ← map_doubled, ← map_doubled, sixDigits, sixDigits,
    map_toUpper_eq_iff (fun c hc => hdigits c (mem_doubled.1 hc))
      fun c hc => hdigits' c (mem_doubled.1 hc)]

/-- Digits that are kept as they are tell the color and the form in which it
is written. -/
theorem map_toUpper_ownDigits_eq_iff (ha : isHexColor a) (hb : isHexColor b) :
    (ownDigits a).map Char.toUpper = (ownDigits b).map Char.toUpper ↔
      rgb? a = rgb? b ∧ (ownDigits a).length = (ownDigits b).length := by
  obtain ⟨hdigits, hform⟩ := isForm_of_isHexColor ha
  obtain ⟨hdigits', hform'⟩ := isForm_of_isHexColor hb
  have hlength : (ownDigits a).length = (ownDigits b).length →
      ((ownDigits a).map hexValue).length = ((ownDigits b).map hexValue).length := by simp
  rw [map_toUpper_eq_iff hdigits hdigits', rgb?, rgb?, channels?_eq_iff hform hform']
  constructor
  · intro heq
    exact ⟨congrArg doubled heq, by simpa using congrArg List.length heq⟩
  · rintro ⟨hrgb, heq⟩
    exact (doubled_eq_iff (hlength heq)).1 hrgb

/-- An accepted color denotes a color. -/
theorem isSome_rgb? (h : isHexColor color) : (rgb? color).isSome :=
  isSome_channels? (isForm_of_isHexColor h).2.1

theorem not_mem_sixDigits_newline (h : isHexColor color) : '\n' ∉ sixDigits color := fun hmem =>
  absurd ((sixDigits_spec h).2 _ hmem) (by decide)

/-- Two accepted colors are given alike exactly if they denote the same, and a
line feed ends both or none; if it does, they are written in the same form. -/
theorem hexDigits_eq_iff (ha : isHexColor a) (hb : isHexColor b) :
    hexDigits a = hexDigits b ↔ rgb? a = rgb? b ∧ (EndsInNewline a ↔ EndsInNewline b) ∧
      (EndsInNewline a → (ownDigits a).length = (ownDigits b).length) := by
  rw [hexDigits_of_isHexColor ha, hexDigits_of_isHexColor hb]
  by_cases hna : EndsInNewline a <;> by_cases hnb : EndsInNewline b
  · rw [if_pos hna, if_pos hnb, List.append_left_inj, map_toUpper_ownDigits_eq_iff ha hb]
    simp [hna, hnb]
  · rw [if_pos hna, if_neg hnb]
    refine iff_of_false (fun heq => not_mem_sixDigits_newline hb ?_) (by simp [hna, hnb])
    rw [← heq]
    simp
  · rw [if_neg hna, if_pos hnb]
    refine iff_of_false (fun heq => not_mem_sixDigits_newline ha ?_) (by simp [hna, hnb])
    rw [heq]
    simp
  · rw [if_neg hna, if_neg hnb, sixDigits_eq_iff ha hb]
    simp [hna, hnb]

/-- **The digits of the colors of palettes.**  They are six digits of upper case
exactly if no line feed ends the color, and then they are its own digits in
order, each twice if there are three.  Two colors have the same digits exactly
if they denote the same red, green and blue, but for a line feed at the end,
which is kept and keeps the digits single. -/
theorem hexDigits_of_accepted_colors (p q : Palette) :
    (∀ color ∈ p.colors, (rgb? color).isSome ∧
      ((hexDigits color).length = 6 ∧ (∀ c ∈ hexDigits color, c ∈ upperHexLetters) ↔
        ¬ EndsInNewline color) ∧
      (¬ EndsInNewline color → hexDigits color = sixDigits color) ∧
      (EndsInNewline color →
        hexDigits color = (ownDigits color).map Char.toUpper ++ ['\n'])) ∧
    ∀ a ∈ p.colors, ∀ b ∈ q.colors,
      hexDigits a = hexDigits b ↔ rgb? a = rgb? b ∧ (EndsInNewline a ↔ EndsInNewline b) ∧
        (EndsInNewline a → (ownDigits a).length = (ownDigits b).length) := by
  have haccepted : ∀ (p : Palette), ∀ color ∈ p.colors, isHexColor color := fun p =>
    List.all_eq_true.1 p.all_hex
  refine ⟨fun color hcolor => ?_, fun a ha b hb =>
    hexDigits_eq_iff (haccepted p a ha) (haccepted q b hb)⟩
  have h := haccepted p color hcolor
  have heq := hexDigits_of_isHexColor h
  refine ⟨isSome_rgb? h, ⟨fun ⟨_, hupper⟩ hnewline => ?_, fun hnewline => ?_⟩,
    fun hnewline => ?_, fun hnewline => ?_⟩
  · rw [if_pos hnewline] at heq
    exact absurd (hupper '\n' (by simp [heq])) (by decide)
  · rw [heq, if_neg hnewline]
    exact sixDigits_spec h
  · rw [heq, if_neg hnewline]
  · rw [heq, if_pos hnewline]

/-- A palette with one color in both forms, and with a line feed behind it. -/
def grayBlue : Palette where
  name := "Gray blue".toList
  colors := ["#abc".toList, "#AABBCC".toList, "#abc\n".toList]
  all_hex := by decide

theorem hexDigits_of_accepted_colors_grayBlue :
    "#abc".toList ∈ grayBlue.colors ∧ "#AABBCC".toList ∈ grayBlue.colors ∧
      "#abc\n".toList ∈ grayBlue.colors ∧
      hexDigits "#abc".toList = "AABBCC".toList ∧
      hexDigits "#abc".toList = hexDigits "#AABBCC".toList ∧
      hexDigits "#abc".toList ≠ hexDigits "#abc\n".toList := by
  have hshort : "#abc".toList ∈ grayBlue.colors := by decide
  have hlong : "#AABBCC".toList ∈ grayBlue.colors := by decide
  have hbroken : "#abc\n".toList ∈ grayBlue.colors := by decide
  obtain ⟨hdigits, heq⟩ := hexDigits_of_accepted_colors grayBlue grayBlue
  refine ⟨hshort, hlong, hbroken, ?_, ?_, ?_⟩
  · rw [(hdigits _ hshort).2.2.1 (by decide)]
    decide
  · exact (heq _ hshort _ hlong).2 (by decide)
  · exact fun hsame => absurd ((heq _ hshort _ hbroken).1 hsame) (by decide)

/-- A color with a line feed behind it is accepted, and does not get six
digits. -/
theorem newline_behind_color_is_kept :
    ∃ p, Palette.ofValues "Gray blue".toList [.string ("#abc\n".toList.map .char)] = .ok p ∧
      ∃ color ∈ p.colors, hexDigits color = "ABC\n".toList ∧ (hexDigits color).length ≠ 6 := by
  refine ⟨⟨"Gray blue".toList, ["#abc\n".toList], by decide⟩, ?_,
    "#abc\n".toList, List.mem_singleton_self _, by decide, by decide⟩
  rfl

end AnnotatedEquation
