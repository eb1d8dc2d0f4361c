/-
AnnotatedEquation/Proofs/Command/StrictCheck.lean

The refusal of a strict export, told from every other way in which an export
fails.  All of them end with the same exit code; what tells the strict check
is the last line on the stream of diagnostics.  Names of files, terms and
palettes stand in the other lines, and a name may hold whatever the strict
line holds; but no other line ends as it does.

* `Failure.IsLate` tells which failures can come up behind the strict check,
  and `Failure.endings` what their messages end in;
* `Command.IsStrictRefusal` is the outcome that a strict refusal leaves.

Main statement: a strict export is refused by the strict check exactly if the
content of the source has errors (`Command.strict_exportFile`).
-/
import AnnotatedEquation.Proofs.Command.Export
import AnnotatedEquation.Proofs.Document.Refusal
import AnnotatedEquation.Proofs.Document.Sparing
import AnnotatedEquation.Proofs.Failure
import AnnotatedEquation.Proofs.Text.Styling

namespace AnnotatedEquation

variable {t : FileTree} {verbose : Bool} {r : ExportRequest} {c : Content} {p : Palette}
variable {failure : Failure} {message : Text}

/-! ### Failures behind the strict check -/

namespace Failure

/-- The failure can come up once a source has been read and checked. -/
def IsLate (failure : Failure) : Prop :=
  failure.IsOfColor ∨ failure.IsOfPaletteFile ∨ failure.IsAccident

/-- What the messages of late failures end in. -/
def endings : List Text :=
  ["\" not found in term order", " colors available)", "]", ": not valid JSON",
    ": expected an object with a \"colors\" list"].map String.toList

theorem IsLate.exists_ending (h : failure.IsLate) (hmessage : failure.message? = some message) :
    ∃ front, ∃ ending ∈ endings, message = front ++ ending := by
  cases failure with
  | unknownTerm term =>
    obtain rfl := Option.some.inj hmessage
    exact ⟨_, "\" not found in term order".toList, by decide, rfl⟩
  | paletteTooShort term index palette size =>
    obtain rfl := Option.some.inj hmessage
    exact ⟨_, " colors available)".toList, by decide, rfl⟩
  | unknownFormat name => rcases h with h | h | h <;> exact h.elim
  | unknownPalette key => rcases h with h | h | h <;> exact h.elim
  | badColors palette colors =>
    obtain rfl := Option.some.inj hmessage
    refine ⟨"Scheme \"".toList ++ palette ++ "\" has invalid hex colors: ".toList
      ++ (['['] ++ Json.listed (Json.displayItems colors)), "]".toList, by decide, ?_⟩
    rw [Json.display, List.append_assoc _ _ "]".toList]
    rfl
  | notJson path =>
    obtain rfl := Option.some.inj hmessage
    exact ⟨_, ": not valid JSON".toList, by decide, rfl⟩
  | noColorList path =>
    obtain rfl := Option.some.inj hmessage
    exact ⟨_, ": expected an object with a \"colors\" list".toList, by decide, rfl⟩
  | oddDigit digit => cases hmessage
  | badTemplate template => cases hmessage
  | undecodable path => cases hmessage

end Failure

namespace Palette

variable {order : List Text}

theorem failsAs_colorFor (term : Text) : FailsAs Failure.IsOfColor (p.colorFor order term) := by
  rw [colorFor]
  split
  · exact failsAs_error trivial
  · split
    · exact failsAs_error trivial
    · exact failsAs_ok _

theorem failsAs_guarded {α : Type} {terms : List Text} (value : α) :
    FailsAs Failure.IsOfColor (guarded (p.firstRefusal? order terms) value) :=
  fun _ hfailure => isOfColor_of_firstRefusal? (guarded_eq_error_iff.1 hfailure)

end Palette

/-- A piece of an equation is refused as its color is, unless it can do
without. -/
theorem Typst.failsAs_dress_of_colorFor {P : Failure → Prop} {term : Text}
    (h : FailsAs P (p.colorFor c.termOrder term)) : FailsAs P (Typst.dress c p term) := by
  rw [Typst.dress]
  split
  · exact failsAs_ok _
  · exact failsAs_ok _
  · next failure _ hfailure => exact failsAs_error (h failure hfailure)

/-- **Documents are refused for want of a color, or by accident.** -/
theorem Format.failsAs_document (format : Format) (c : Content) (p : Palette) :
    FailsAs Failure.IsLate (format.document c p) := by
  have hcolor : ∀ failure : Failure, failure.IsOfColor → failure.IsLate := fun _ h => Or.inl h
  have hterm : ∀ term, FailsAs Failure.IsLate (p.colorFor c.termOrder term) := fun term =>
    (Palette.failsAs_colorFor term).mono hcolor
  cases format with
  | html =>
    have hdocument : Format.html.document c p = _ := Html.document_guarded c p Html.mathSpan
    rw [hdocument]
    exact (Palette.failsAs_guarded _).mono hcolor
  | latex =>
    have hdocument : Format.latex.document c p = _ := Latex.document_guarded c p
    rw [hdocument]
    exact (Palette.failsAs_guarded _).mono hcolor
  | beamer =>
    have hdocument : Format.beamer.document c p = _ := Beamer.document_guarded c p
    rw [hdocument]
    exact (Palette.failsAs_guarded _).mono hcolor
  | typst =>
    have haccident : ∀ failure : Failure, failure.IsAccident → failure.IsLate := fun _ h =>
      Or.inr (Or.inr h)
    have horder : FailsAs Failure.IsLate (p.termColors c.termOrder) :=
      FailsAs.mapM fun term _ => (hterm term).bind fun _ => failsAs_ok _
    exact Typst.failsAs_document haccident horder
      (fun term => Typst.failsAs_dress_of_colorFor (hterm term)) fun term _ => hterm term

/-! ### Palettes of a request -/

/-- **What a palette file holds is refused for what it lacks, or by
accident.** -/
theorem Palette.failsAs_ofText (path : Path) (source : Text) :
    FailsAs Failure.IsLate (Palette.ofText path source) := by
  have hlacking : ∀ failure : Failure, failure.IsOfPaletteFile → failure.IsLate := fun _ h =>
    Or.inr (Or.inl h)
  have haccident : ∀ failure : Failure, failure.IsAccident → failure.IsLate := fun _ h =>
    Or.inr (Or.inr h)
  rw [Palette.ofText]
  split
  · exact failsAs_error (hlacking _ trivial)
  · exact failsAs_error (haccident _ trivial)
  · split
    · rw [Palette.ofValues]
      split
      · exact failsAs_ok _
      · exact failsAs_error (hlacking _ trivial)
    · exact failsAs_error (hlacking _ trivial)

namespace Command

/-- **A palette is refused for what its file lacks, or by accident**, if the
key is that of a built-in one. -/
theorem failsAs_selectPalette {key : Text} (hkey : key ∈ Entries.keys Palette.builtin)
    (paletteFile : Option (Path × Place)) :
    FailsAs Failure.IsLate (selectPalette t key paletteFile) := by
  rcases paletteFile with - | ⟨path, place⟩
  · obtain ⟨palette, hpalette⟩ :=
      Option.isSome_iff_exists.1 (Entries.isSome_get?_of_mem_keys hkey)
    have hselect : selectPalette t key none = .ok palette := by
      rw [selectPalette, Palette.named, hpalette]
    rw [hselect]
    exact failsAs_ok _
  · have htext : FailsAs Failure.IsLate (fileText t path place) := by
      rw [fileText]
      split
      · exact failsAs_ok _
      · exact failsAs_error (Or.inr (Or.inr trivial))
    exact htext.bind fun source => Palette.failsAs_ofText path source

theorem mem_keys_of_readExport? {a : Arguments Invocation.CommandOption}
    (h : Invocation.readExport? a = some r) : r.palette ∈ Entries.keys Palette.builtin := by
  simp only [Invocation.readExport?, Option.bind_eq_bind, Option.bind_eq_some_iff] at h
  obtain ⟨format, -, palette, hpalette, h⟩ := h
  split at h
  · obtain rfl := Option.some.inj h
    exact List.mem_of_find?_eq_some hpalette
  · cases h

theorem mem_keys_of_readCommand? {name : Text} {arguments : List Text}
    (h : Invocation.readCommand? name arguments = some (.export r)) :
    r.palette ∈ Entries.keys Palette.builtin := by
  rw [Invocation.readCommand?] at h
  split at h
  · obtain ⟨a, -, h⟩ := Option.bind_eq_some_iff.1 h
    split at h
    · cases h
    · obtain ⟨request, hrequest, heq⟩ := Option.map_eq_some_iff.1 h
      obtain rfl := Request.export.inj heq
      exact mem_keys_of_readExport? hrequest
  -- the other commands ask for no export
  · split at h
    · obtain ⟨a, -, h⟩ := Option.bind_eq_some_iff.1 h
      split at h
      · cases h
      · split at h <;> cases h
    · split at h
      · obtain ⟨a, -, h⟩ := Option.bind_eq_some_iff.1 h
        split at h
        · cases h
        · split at h <;> cases h
      · cases h

/-- The key of a palette that a command line chooses is that of a built-in
one. -/
theorem mem_keys_of_read? {arguments : List Text}
    (h : Invocation.read? arguments = some ⟨verbose, .export r⟩) :
    r.palette ∈ Entries.keys Palette.builtin := by
  rw [Invocation.read?] at h
  obtain ⟨a, -, h⟩ := Option.bind_eq_some_iff.1 h
  split at h
  · cases h
  · split at h
    · obtain ⟨request, hrequest, heq⟩ := Option.map_eq_some_iff.1 h
      obtain ⟨-, rfl⟩ := Invocation.mk.inj heq
      exact mem_keys_of_readCommand? hrequest
    · cases h

/-! ### The strict check -/

/-- What the message of a strict refusal ends in. -/
def strictEnding : Text := " validation error(s)".toList

/-- The outcome is that of a strict export which is refused since the source
has errors: the last line of the diagnostics tells how many. -/
structure IsStrictRefusal (input : Path) (o : Outcome) : Prop where
  exitCode : o.exitCode = 1
  accident : o.accident = none
  getLast? : ∃ n, o.diagnostics.getLast? =
    some (Text.unstyled ("Error: ".toList ++ (input.name ++ " has ".toList ++ Text.ofNat n
      ++ strictEnding)))

theorem not_suffix_of_mem_endings {ending : Text} (h : ending ∈ Failure.endings) :
    ¬ ending <:+ strictEnding ∧ ¬ strictEnding <:+ ending ∧ '\x1b' ∉ ending ∧
      ∀ c ∈ ending.head?, ¬ Text.isInStyle c := by
  have hall : ∀ ending ∈ Failure.endings, ¬ ending <:+ strictEnding ∧ ¬ strictEnding <:+ ending ∧
      '\x1b' ∉ ending ∧ ∀ c ∈ ending.head?, ¬ Text.isInStyle c := by decide
  exact hall ending h

theorem getLast?_refused (t : FileTree) (output diagnostics : List Text) (message : Text) :
    (refused t output diagnostics message).diagnostics.getLast? =
      some (Text.unstyled ("Error: ".toList ++ message)) :=
  List.getLast?_concat

/-- A late failure does not look like a strict refusal. -/
theorem not_isStrictRefusal_failed (h : failure.IsLate) (diagnostics : List Text) (input : Path) :
    ¬ IsStrictRefusal input (failed t [] diagnostics failure) := by
  rintro ⟨-, haccident, n, hlast⟩
  rw [failed] at haccident hlast
  rcases hmessage : failure.message? with - | message <;> rw [hmessage] at haccident hlast
  · cases haccident
  · obtain ⟨front, ending, hending, rfl⟩ := h.exists_ending hmessage
    obtain ⟨hne, hne', hescape, hhead⟩ := not_suffix_of_mem_endings hending
    have hline := Option.some.inj ((getLast?_refused t [] diagnostics _).symm.trans hlast)
    rw [← List.append_assoc, ← List.append_assoc] at hline
    have hsuffix : ending <:+ Text.unstyled ("Error: ".toList ++ front ++ ending) :=
      Text.suffix_unstyled_append _ hhead hescape
    have hstrict : strictEnding <:+ Text.unstyled ("Error: ".toList ++ front ++ ending) := by
      rw [hline]
      exact Text.suffix_unstyled_append _ (by decide) (by decide)
    rcases List.suffix_or_suffix_of_suffix hsuffix hstrict with h | h
    · exact hne h
    · exact hne' h

theorem isStrictRefusal_refused (t : FileTree) (diagnostics : List Text) (input : Path)
    (c : Content) : IsStrictRefusal input (refused t [] diagnostics (strictMessage input c)) :=
  ⟨rfl, rfl, c.errors.length, getLast?_refused t [] diagnostics _⟩

/-- **Behind the strict check, no export is refused by it.** -/
theorem not_isStrictRefusal_exportContent (hkey : r.palette ∈ Entries.keys Palette.builtin)
    (input : Path) (paletteFile : Option (Path × Place)) (c : Content) :
    ¬ IsStrictRefusal input (exportContent t verbose r input paletteFile c) := by
  rcases exportContent_cases t verbose r input paletteFile c with
    ⟨failure, more, hfailure, h⟩ | ⟨palette, document, more, -, -, h⟩
  · rw [h]
    refine not_isStrictRefusal_failed ?_ _ input
    rcases hfailure with hpalette | ⟨palette, hdocument⟩
    · exact failsAs_selectPalette hkey paletteFile failure hpalette
    · exact r.format.failsAs_document c palette failure hdocument
  · rw [h]
    rintro ⟨hexit, -⟩
    exact Nat.zero_ne_one hexit

/-- The lines about a content come first, whatever follows them. -/
theorem checkLines_prefix_exportContent (t : FileTree) (verbose : Bool) (r : ExportRequest)
    (input : Path) (paletteFile : Option (Path × Place)) (c : Content) :
    checkLines verbose c <+: (exportContent t verbose r input paletteFile c).diagnostics := by
  rcases exportContent_cases t verbose r input paletteFile c with
    ⟨failure, more, -, h⟩ | ⟨palette, document, more, -, -, h⟩
  · rw [h, failed]
    rcases failure.message? with - | message
    · exact List.prefix_append _ _
    · show checkLines verbose c <+: checkLines verbose c ++ more ++ _
      rw [List.append_assoc]
      exact List.prefix_append _ _
  · rw [h]
    exact List.prefix_append _ _

variable {source : Text}

/-- **A strict export of a content** is refused by the strict check exactly if
the content has errors; the lines about the content come first, and if it is
refused, the line of the strict check is the only other one. -/
theorem strict_exportFile (verbose : Bool) (input : Path × Place)
    (paletteFile : Option (Path × Place)) (hkey : r.palette ∈ Entries.keys Palette.builtin)
    (hstrict : r.strict) (hsource : fileText t input.1 input.2 = .ok source) :
    (IsStrictRefusal input.1 (exportFile t verbose r input paletteFile) ↔
      ¬ (Content.read source).isValid) ∧
    checkLines verbose (Content.read source) <+:
      (exportFile t verbose r input paletteFile).diagnostics ∧
    (IsStrictRefusal input.1 (exportFile t verbose r input paletteFile) →
      ∃ line, (exportFile t verbose r input paletteFile).diagnostics =
        checkLines verbose (Content.read source) ++ [line]) := by
  have hvalid : ¬ (r.strict ∧ (Content.read source).errors ≠ []) ↔
      (Content.read source).isValid := not_strict_iff.trans ⟨fun h => h hstrict, fun h _ => h⟩
  rw [exportFile_eq, hsource]
  by_cases h : r.strict ∧ (Content.read source).errors ≠ []
  · simp only [if_pos h]
    refine ⟨iff_of_true (isStrictRefusal_refused t _ _ _) fun h' => hvalid.2 h' h, ?_, fun _ => ?_⟩
    · exact List.prefix_append _ _
    · exact ⟨_, rfl⟩
  · simp only [if_neg h]
    have hnot : ¬ IsStrictRefusal input.1
        (exportContent t verbose r input.1 paletteFile (Content.read source)) :=
      not_isStrictRefusal_exportContent hkey input.1 paletteFile _
    refine ⟨iff_of_false hnot fun h' => h' (hvalid.1 h), ?_, fun h' => absurd h' hnot⟩
    exact checkLines_prefix_exportContent t verbose r input.1 paletteFile _

end Command

end AnnotatedEquation
