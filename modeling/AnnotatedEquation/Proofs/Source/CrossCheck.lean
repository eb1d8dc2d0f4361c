/-
AnnotatedEquation/Proofs/Source/CrossCheck.lean

What the cross-check says about a source, told by three lists of names: the
terms in their order, the terms that the description refers to, and the names
of the definitions.

* `Problem.lead`, `Problem.verdict` and `Problem.size` tell of a message how it
  begins, how it goes on behind the term, and how long it is.

Main statements: a message tells its problem (`Problem.message_injective`),
which problems there are depends on the names alone and not on their order
(`Problem.perm_errors`, `Problem.perm_warnings`), and the cross-check of a
source tells every disagreement once (`Source.crossCheck_read`).
-/
import AnnotatedEquation.Proofs.Source.Description
import AnnotatedEquation.Proofs.Source.Equation
import AnnotatedEquation.Proofs.Source.Growth

namespace AnnotatedEquation

open scoped List

variable {marked referred defined marked' referred' defined' : List Text}

namespace Problem

/-! ### Messages -/

theorem message_referredButUnmarked (t : Text) : message (.referredButUnmarked t) =
    "Term \"".toList ++ t ++ "\" is referenced in the description (".toList
      ++ ("[...]\x7b.".toList ++ t ++ ['}']) ++ ") but never marked in the equation (".toList
      ++ ("\\mark[".toList ++ t ++ "]\x7b...\x7d".toList) ++ [')'] := rfl

theorem message_markedButUndefined (t : Text) : message (.markedButUndefined t) =
    "Term \"".toList ++ t ++ "\" is marked in the equation (".toList
      ++ ("\\mark[".toList ++ t ++ "]\x7b...\x7d".toList)
      ++ ") but has no definition (## .".toList ++ t ++ [')'] := rfl

theorem message_markedButUnreferred (t : Text) : message (.markedButUnreferred t) =
    "Term \"".toList ++ t ++ "\" is marked in the equation (".toList
      ++ ("\\mark[".toList ++ t ++ "]\x7b...\x7d".toList)
      ++ ") but never referenced in the description (".toList
      ++ ("[...]\x7b.".toList ++ t ++ ['}']) ++ [')'] := rfl

theorem message_definedButUnmarked (t : Text) : message (.definedButUnmarked t) =
    "Definition \"## .".toList ++ t
      ++ "\" does not correspond to any term marked in the equation (".toList
      ++ ("\\mark[".toList ++ t ++ "]\x7b...\x7d".toList) ++ [')'] := rfl

/-- The term that a problem is about. -/
def term : Problem → Text
  | referredButUnmarked t | markedButUndefined t | markedButUnreferred t | definedButUnmarked t => t

/-- What a message begins with. -/
def lead : Problem → Text
  | definedButUnmarked _ => "Definition \"## .".toList
  | _ => "Term \"".toList

/-- What follows where the term is first named. -/
def verdict : Problem → Text
  | referredButUnmarked _ => "\" is referenced in the description (".toList
  | markedButUndefined _ | markedButUnreferred _ => "\" is marked in the equation (".toList
  | definedButUnmarked _ => "\" does not correspond to any term marked in the equation (".toList

/-- The length of a message. -/
def size : Problem → Nat
  | referredButUnmarked t | markedButUnreferred t => 99 + 3 * t.length
  | markedButUndefined t => 77 + 3 * t.length
  | definedButUnmarked t => 87 + 2 * t.length

theorem length_message (p : Problem) : p.message.length = p.size := by
  cases p with
  | referredButUnmarked t =>
    rw [message_referredButUnmarked]
    show _ = 99 + 3 * t.length
    simp
    omega
  | markedButUndefined t =>
    rw [message_markedButUndefined]
    show _ = 77 + 3 * t.length
    simp
    omega
  | markedButUnreferred t =>
    rw [message_markedButUnreferred]
    show _ = 99 + 3 * t.length
    simp
    omega
  | definedButUnmarked t =>
    rw [message_definedButUnmarked]
    show _ = 87 + 2 * t.length
    simp
    omega

theorem lead_isPrefix (p : Problem) : p.lead ++ (p.term ++ p.verdict) <+: p.message := by
  have hfront : ∀ u v w r : Text, u ++ (v ++ w) <+: u ++ (v ++ (w ++ r)) := by
    intro u v w r
    exact ⟨r, by simp only [List.append_assoc]⟩
  cases p with
  | referredButUnmarked t =>
    rw [message_referredButUnmarked]
    simp only [List.append_assoc]
    exact hfront _ _ _ _
  | markedButUndefined t =>
    rw [message_markedButUndefined]
    simp only [List.append_assoc]
    exact hfront _ _ _ _
  | markedButUnreferred t =>
    rw [message_markedButUnreferred]
    simp only [List.append_assoc]
    exact hfront _ _ _ _
  | definedButUnmarked t =>
    rw [message_definedButUnmarked]
    simp only [List.append_assoc]
    exact hfront _ _ _ _

/-- Of two beginnings of a text with names of one length in the same place, the
names are the same, and one goes on as the other. -/
theorem same_name {u v w v' w' s : Text} (h : u ++ (v ++ w) <+: s) (h' : u ++ (v' ++ w') <+: s)
    (hlength : v.length = v'.length) : v = v' ∧ (w <+: w' ∨ w' <+: w) := by
  obtain ⟨r, rfl⟩ := h
  rw [List.append_assoc, List.prefix_append_right_inj, List.append_assoc] at h'
  have hv : v' <+: v ++ (w ++ r) := (List.prefix_append v' w').trans h'
  obtain rfl : v' = v :=
    (List.prefix_of_prefix_length_le hv (List.prefix_append v _) hlength.ge).eq_of_length
      hlength.symm
  rw [List.prefix_append_right_inj] at h'
  exact ⟨rfl, List.prefix_or_prefix_of_prefix (List.prefix_append w r) h'⟩

/-- **A message tells its problem.**  The kinds differ in how they begin, in
their lengths, or in what follows on the term. -/
theorem message_injective : Function.Injective message := by
  intro p q h
  have hsize : p.size = q.size := by rw [← length_message, ← length_message, h]
  have hp := lead_isPrefix p
  have hq := lead_isPrefix q
  rw [h] at hp
  have hterm : p.lead = q.lead → p.term.length = q.term.length → p.term = q.term := by
    intro hlead hlength
    rw [hlead] at hp
    exact (same_name hp hq hlength).1
  have hlead : ∀ {u v s : Text}, "Term \"".toList ++ u <+: s →
      ¬ "Definition \"## .".toList ++ v <+: s := by
    rintro u v _ ⟨r, rfl⟩ h
    exact absurd (List.cons_prefix_cons.1 h).1 (by decide)
  have hverdict : ¬ ("\" is referenced in the description (".toList <+:
      "\" is marked in the equation (".toList ∨ "\" is marked in the equation (".toList <+:
      "\" is referenced in the description (".toList) := by decide
  cases p with
  | referredButUnmarked t =>
    cases q <;> simp only [size] at hsize
    case referredButUnmarked u => exact congrArg _ (hterm rfl (show t.length = u.length by omega))
    case markedButUndefined u => omega
    case markedButUnreferred u =>
      exact (hverdict (same_name hp hq (show t.length = u.length by omega)).2).elim
    case definedButUnmarked u => exact (hlead hp hq).elim
  | markedButUndefined t =>
    cases q <;> simp only [size] at hsize
    case markedButUndefined u => exact congrArg _ (hterm rfl (show t.length = u.length by omega))
    case definedButUnmarked u => exact (hlead hp hq).elim
    all_goals omega
  | markedButUnreferred t =>
    cases q <;> simp only [size] at hsize
    case referredButUnmarked u =>
      exact (hverdict (same_name hq hp (show u.length = t.length by omega)).2).elim
    case markedButUndefined u => omega
    case markedButUnreferred u => exact congrArg _ (hterm rfl (show t.length = u.length by omega))
    case definedButUnmarked u => exact (hlead hp hq).elim
  | definedButUnmarked t =>
    cases q <;> simp only [size] at hsize
    case definedButUnmarked u => exact congrArg _ (hterm rfl (show t.length = u.length by omega))
    all_goals exact (hlead hq hp).elim

/-! ### Which problems there are -/

theorem nodup_map_append_map {f g : Text → Problem} {l l' : List Text}
    (hf : Function.Injective f) (hg : Function.Injective g) (hne : ∀ t u, f t ≠ g u)
    (hl : l.Nodup) (hl' : l'.Nodup) : (l.map f ++ l'.map g).Nodup := by
  refine List.nodup_append'.2 ⟨hl.map hf, hl'.map hg, fun p h h' => ?_⟩
  obtain ⟨t, -, rfl⟩ := List.mem_map.1 h
  obtain ⟨u, -, hu⟩ := List.mem_map.1 h'
  exact hne t u hu.symm

/-- No problem is found twice. -/
theorem nodup_problems (hmarked : marked.Nodup) :
    (errors marked referred defined ++ warnings marked referred defined).Nodup := by
  have herrors : (errors marked referred defined).Nodup :=
    nodup_map_append_map (fun _ _ => referredButUnmarked.inj) (fun _ _ => markedButUndefined.inj)
      (by simp) ((nodup_eraseDups referred).filter _) (hmarked.filter _)
  have hwarnings : (warnings marked referred defined).Nodup :=
    nodup_map_append_map (fun _ _ => markedButUnreferred.inj) (fun _ _ => definedButUnmarked.inj)
      (by simp) (hmarked.filter _) ((nodup_eraseDups defined).filter _)
  refine List.nodup_append'.2 ⟨herrors, hwarnings, fun p h h' => ?_⟩
  rw [errors, List.mem_append, List.mem_map, List.mem_map] at h
  rw [warnings, List.mem_append, List.mem_map, List.mem_map] at h'
  rcases h with ⟨t, -, rfl⟩ | ⟨t, -, rfl⟩ <;> simp at h'

theorem perm_filter {P Q : Text → Bool} {l l' : List Text} (hl : l.Nodup) (hl' : l'.Nodup)
    (h : ∀ t, t ∈ l ∧ P t ↔ t ∈ l' ∧ Q t) : l.filter P ~ l'.filter Q := by
  rw [List.perm_ext_iff_of_nodup (hl.filter P) (hl'.filter Q)]
  simpa only [List.mem_filter] using h

/-- Which errors there are depends on which names there are. -/
theorem perm_errors (hnodup : marked.Nodup) (hnodup' : marked'.Nodup)
    (hmarked : ∀ t, t ∈ marked ↔ t ∈ marked') (hreferred : ∀ t, t ∈ referred ↔ t ∈ referred')
    (hdefined : ∀ t, t ∈ defined ↔ t ∈ defined') :
    errors marked referred defined ~ errors marked' referred' defined' := by
  refine .append (.map _ ?_) (.map _ ?_)
  · apply perm_filter (nodup_eraseDups referred) (nodup_eraseDups referred')
    simp [hreferred, hmarked]
  · apply perm_filter hnodup hnodup'
    simp [hmarked, hdefined]

/-- Which warnings there are depends on which names there are. -/
theorem perm_warnings (hnodup : marked.Nodup) (hnodup' : marked'.Nodup)
    (hmarked : ∀ t, t ∈ marked ↔ t ∈ marked') (hreferred : ∀ t, t ∈ referred ↔ t ∈ referred')
    (hdefined : ∀ t, t ∈ defined ↔ t ∈ defined') :
    warnings marked referred defined ~ warnings marked' referred' defined' := by
  refine .append (.map _ ?_) (.map _ ?_)
  · apply perm_filter hnodup hnodup'
    simp [hmarked, hreferred]
  · apply perm_filter (nodup_eraseDups defined) (nodup_eraseDups defined')
    simp [hdefined, hmarked]

theorem errors_eq_nil_iff : errors marked referred defined = [] ↔
    (∀ t ∈ referred, t ∈ marked) ∧ ∀ t ∈ marked, t ∈ defined := by
  simp [errors]

end Problem

namespace Source

/-! ### Sources -/

theorem nodup_termOrder_read (source : Text) : (Content.read source).termOrder.Nodup := by
  rw [termOrder_eq_eraseDups]
  exact nodup_eraseDups _

theorem nodup_keys_read (source : Text) : (Content.read source).definitions.keys.Nodup := by
  rw [definitions_read, keys_outlinedDefinitions]
  exact nodup_eraseDups _

theorem errors_read (source : Text) : (Content.read source).errors =
    (Problem.errors (Content.read source).termOrder (referredTerms source)
      (Content.read source).definitions.keys).map Problem.message := by
  rw [← referredTerms_ofLines]
  rfl

theorem warnings_read (source : Text) : (Content.read source).warnings =
    (Problem.warnings (Content.read source).termOrder (referredTerms source)
      (Content.read source).definitions.keys).map Problem.message := by
  rw [← referredTerms_ofLines]
  rfl

/-- **The cross-check tells every disagreement of the names, and each one
once.**  Errors are the referred terms that are not marked, in the order of
their first references, and then the marked ones without a definition; warnings
are the marked terms that no reference names, and then the definitions of other
names.  A source with the same names in other places, or named more often, has
the same messages in another order. -/
theorem crossCheck_read (source other : Text) :
    ((Content.read source).isValid ↔
      (∀ term ∈ referredTerms source, term ∈ (Content.read source).termOrder) ∧
        ∀ term ∈ (Content.read source).termOrder, term ∈ (Content.read source).definitions.keys) ∧
      (Content.read source).errors =
        ((referredTerms source).eraseDups.filter (· ∉ (Content.read source).termOrder)).map
            (fun term => Problem.message (.referredButUnmarked term)) ++
          ((Content.read source).termOrder.filter
            (· ∉ (Content.read source).definitions.keys)).map
            (fun term => Problem.message (.markedButUndefined term)) ∧
      (Content.read source).warnings =
        ((Content.read source).termOrder.filter (· ∉ referredTerms source)).map
            (fun term => Problem.message (.markedButUnreferred term)) ++
          ((Content.read source).definitions.keys.filter
            (· ∉ (Content.read source).termOrder)).map
            (fun term => Problem.message (.definedButUnmarked term)) ∧
      ((Content.read source).errors ++ (Content.read source).warnings).Nodup ∧
      ((∀ term, term ∈ (Content.read source).termOrder ↔ term ∈ (Content.read other).termOrder) →
        (∀ term, term ∈ referredTerms source ↔ term ∈ referredTerms other) →
        (∀ term, term ∈ (Content.read source).definitions.keys ↔
          term ∈ (Content.read other).definitions.keys) →
        (Content.read source).errors ~ (Content.read other).errors ∧
          (Content.read source).warnings ~ (Content.read other).warnings) := by
  have horder := nodup_termOrder_read source
  refine ⟨?_, ?_, ?_, ?_, fun hmarked hreferred hdefined => ⟨?_, ?_⟩⟩
  · rw [Content.isValid, List.isEmpty_iff, errors_read, List.map_eq_nil_iff]
    exact Problem.errors_eq_nil_iff
  · rw [errors_read, Problem.errors, List.map_append, List.map_map, List.map_map]
    rfl
  · rw [warnings_read, Problem.warnings, eraseDups_of_nodup (nodup_keys_read source),
      List.map_append, List.map_map, List.map_map]
    rfl
  · rw [errors_read, warnings_read, ← List.map_append]
    exact (Problem.nodup_problems horder).map Problem.message_injective
  · rw [errors_read, errors_read]
    exact .map _
      (Problem.perm_errors horder (nodup_termOrder_read other) hmarked hreferred hdefined)
  · rw [warnings_read, warnings_read]
    exact .map _
      (Problem.perm_warnings horder (nodup_termOrder_read other) hmarked hreferred hdefined)

/-- A source with a disagreement of every kind. -/
def untidySource : Text :=
  Text.unlines <| List.map String.toList
    ["$$", "\\mark[a]\x7bx\x7d + \\mark[b]\x7by\x7d", "$$", "## Description",
     "Of [this]\x7b.b\x7d", "and [that]\x7b.c\x7d.", "## .a", "Alpha.", "## .d", "Delta."]

/-- The same names, with a reference made again, and the rest in another
order. -/
def shuffledSource : Text :=
  Text.unlines <| List.map String.toList
    ["## .d", "Delta.", "$$", "\\mark[a]\x7bx\x7d + \\mark[b]\x7by\x7d", "$$", "## .a", "Alpha.",
     "## Description", "First [that]\x7b.c\x7d,", "then [this]\x7b.b\x7d and [that]\x7b.c\x7d."]

theorem crossCheck_read_untidySource :
    ((∀ term, term ∈ (Content.read untidySource).termOrder ↔
        term ∈ (Content.read shuffledSource).termOrder) ∧
      (∀ term, term ∈ referredTerms untidySource ↔ term ∈ referredTerms shuffledSource) ∧
      ∀ term, term ∈ (Content.read untidySource).definitions.keys ↔
        term ∈ (Content.read shuffledSource).definitions.keys) ∧
      (Content.read untidySource).isValid = false ∧
      ((Content.read untidySource).errors ++ (Content.read untidySource).warnings).Nodup ∧
      (Content.read untidySource).errors ~ (Content.read shuffledSource).errors ∧
      (Content.read untidySource).warnings ~ (Content.read shuffledSource).warnings := by
  have hnames : (Content.read untidySource).termOrder = (Content.read shuffledSource).termOrder ∧
      referredTerms untidySource = [['b'], ['c']] ∧
      referredTerms shuffledSource = [['c'], ['b'], ['c']] ∧
      (Content.read untidySource).definitions.keys = [['a'], ['d']] ∧
      (Content.read shuffledSource).definitions.keys = [['d'], ['a']] := by decide +kernel
  obtain ⟨horder, hreferred, hreferred', hdefined, hdefined'⟩ := hnames
  obtain ⟨hvalid, -, -, hnodup, hperm⟩ := crossCheck_read untidySource shuffledSource
  have hsame : (∀ term, term ∈ (Content.read untidySource).termOrder ↔
        term ∈ (Content.read shuffledSource).termOrder) ∧
      (∀ term, term ∈ referredTerms untidySource ↔ term ∈ referredTerms shuffledSource) ∧
      ∀ term, term ∈ (Content.read untidySource).definitions.keys ↔
        term ∈ (Content.read shuffledSource).definitions.keys := by
    rw [horder, hreferred, hreferred', hdefined, hdefined']
    exact ⟨fun _ => Iff.rfl, by simp [or_comm], by simp [or_comm]⟩
  obtain ⟨hmarked, hreferred, hdefined⟩ := hsame
  exact ⟨⟨hmarked, hreferred, hdefined⟩, by decide +kernel, hnodup,
    hperm hmarked hreferred hdefined⟩

end Source

end AnnotatedEquation
