/-
AnnotatedEquation/Proofs/Source/Marking.lean

The scan of a line for its marks, told in positions.

* `Mark.attempt` looks at an opening.  Where it begins no mark, it tells what
  is copied and where the scan goes on: behind the opening if the name has no
  end or holds a character that no name may hold, behind the bracket if the
  name is empty or not followed by a brace, and behind the brace if that one is
  never closed;
* `Mark.scanFrom` scans a line from a position on, goes through the content of
  every mark on its own, and registers the terms: each mark gives its term
  before its content is looked at, and a term is listed once.

Main statements: what is copied holds no mark (`Mark.forest_of_broken`), and
the scan writes the forest of the line with spans for its marks, and registers
the terms of the forest in their order (`Mark.scanFrom_eq`).
-/
import AnnotatedEquation.Markup.EquationSpan
import AnnotatedEquation.Proofs.Entries
import AnnotatedEquation.Proofs.Markup.Decomposition
import AnnotatedEquation.Proofs.Markup.Level
import AnnotatedEquation.Proofs.Markup.Reading
import AnnotatedEquation.Proofs.Text.Position

namespace AnnotatedEquation

open Delimiters (braces)
open Fragment (termsAll writeAll)
open Text (Bars)

variable {line s t u v name term content copied rest : Text} {order terms : List Text}
  {pos start resume stop : Nat}

/-! ### Openings at which no other begins -/

namespace Text

/-- Up to the next occurrence of a pattern it begins nowhere. -/
theorem not_prefix_before_find? {p w : Text} (hp : p ≠ []) (h : find? p s pos = some start)
    (hw : w <:+ s.extract pos start) (hne : w ≠ []) : ¬ p <+: w ++ s.drop start := by
  obtain ⟨⟨u, v⟩, hcut, hstart⟩ := Option.map_eq_some_iff.1 h
  obtain rfl : pos + u.length = start := hstart
  obtain ⟨hs, hfirst⟩ := (cutAt?_eq_some_iff hp).1 hcut
  obtain ⟨hextract, hdrop⟩ := eq_of_drop_eq_append hs
  rw [hextract] at hw
  rw [hdrop]
  exact hfirst w hw hne

end Text

namespace Mark

/-- No mark begins in the rest of an opening. -/
theorem bars_tail : Bars opening opening.tail := by decide

/-- No mark begins in a name that holds no opening bracket. -/
theorem bars_name (hname : '[' ∉ name) : Bars opening (name ++ [']']) := by
  refine Text.bars_concat (by decide) fun h => ?_
  have hin : '[' ∈ name ++ [']'] := h.subset (by decide)
  rcases List.mem_append.1 hin with hin | hin
  · exact hname hin
  · exact absurd hin (by decide)

theorem prefix_of_read? {run : Run} (h : read? s = some (run, rest)) : opening <+: s := by
  obtain ⟨name, content, -, rfl, -⟩ := read?_eq_some_iff.1 h
  exact ⟨name ++ ([']', '{'] ++ (content ++ ('}' :: rest))), by simp [write]⟩

/-! ### Looking at an opening -/

/-- The characters that no name may hold; its end is a closing bracket. -/
def breakers : List Char := ['[', '{', '}']

/-- What is found at an opening: no mark, what is copied instead, and where
the scan goes on; or a mark with the position behind it. -/
inductive Attempt where
  | broken (copied : Text) (resume : Nat)
  | mark (term content : Text) (stop : Nat)

/-- Looks at the opening at a position. -/
def attempt (line : Text) (start : Nat) : Attempt :=
  match Text.find? [']'] line (start + opening.length) with
  | none => .broken opening (start + opening.length)
  | some nameEnd =>
    let name := line.extract (start + opening.length) nameEnd
    if name.any (· ∈ breakers) then .broken opening (start + opening.length)
    else if name = [] ∨ line.extract (nameEnd + 1) (nameEnd + 2) ≠ ['{'] then
      .broken (line.extract start (nameEnd + 1)) (nameEnd + 1)
    else
      match braces.matchAt? line (nameEnd + 2) with
      | none => .broken (line.extract start (nameEnd + 2)) (nameEnd + 2)
      | some stop => .mark name (line.extract (nameEnd + 2) (stop - 1)) stop

/-- The text at an opening whose name ends and is followed by a brace. -/
theorem matchAt?_header {nameEnd : Nat}
    (h : line.drop start = opening ++ (name ++ ']' :: '{' :: t))
    (hend : nameEnd = start + opening.length + name.length) :
    line.drop (nameEnd + 2) = t ∧ braces.matchAt? line (nameEnd + 2) =
      (braces.content? t).map fun (inside, _) => nameEnd + 2 + inside.length + 1 := by
  have hline : line.drop start = (opening ++ name ++ [']']) ++ '{' :: t := by simp [h]
  have hlength : start + (opening ++ name ++ [']'] ++ ['{']).length = nameEnd + 2 := by
    rw [hend]
    simp
    omega
  have hmatch := Delimiters.matchAt?_eq_map_content? (d := braces) hline (by decide)
  rw [hlength] at hmatch
  refine ⟨?_, hmatch⟩
  have hline' : line.drop start = (opening ++ name ++ [']'] ++ ['{']) ++ t := by simp [h]
  rw [← hlength]
  exact (Text.eq_of_drop_eq_append hline').2

/-- A mark at the opening is found. -/
theorem attempt_of_read? (h : read? (line.drop start) = some (.tagged term content, rest)) :
    ∃ stop, attempt line start = .mark term content stop ∧ line.drop stop = rest := by
  obtain ⟨_, _, hrun, hs, hname, hclosed⟩ := read?_eq_some_iff.1 h
  obtain ⟨rfl, rfl⟩ := Run.tagged.inj hrun
  obtain ⟨hname, hbracket⟩ := isTermName_iff.1 hname
  simp only [isName, Bool.and_eq_true, decide_eq_true_eq, List.all_eq_true] at hname
  have hline : line.drop start = opening ++ (term ++ ']' :: '{' :: (content ++ '}' :: rest)) := by
    rw [hs, write]
    simp
  have hs₁ := (Text.eq_of_drop_eq_append hline).2
  obtain ⟨hterm, hs₂⟩ := Text.eq_of_drop_eq_append hs₁
  have hend := Text.find?_singleton_of_drop hs₁ hbracket
  generalize hnameEnd : start + opening.length + term.length = nameEnd at *
  obtain ⟨hs₃, hmatch⟩ := matchAt?_header hline hnameEnd.symm
  have hbrace : line.extract (nameEnd + 1) (nameEnd + 2) = ['{'] := by
    have hdrop : line.drop (nameEnd + 1) = ['{'] ++ (content ++ '}' :: rest) := by
      rw [← List.drop_drop, hs₂]
      rfl
    exact (Text.eq_of_drop_eq_append hdrop).1
  have hcontent : braces.content? (content ++ '}' :: rest) = some (content, rest) :=
    braces_content?_eq_some_iff.2 ⟨rfl, hclosed⟩
  have hbreakers : term.any (· ∈ breakers) = false := by
    rw [List.any_eq_false]
    exact fun c hc => by simpa [breakers] using hname.2 c hc
  rw [hcontent, Option.map_some] at hmatch
  refine ⟨nameEnd + 2 + content.length + 1, ?_, ?_⟩
  · rw [attempt, hend]
    simp only [hterm, hbreakers, Bool.false_eq_true, if_false, hname.1, hbrace, ne_eq, not_true_eq_false,
      or_self, hmatch, Nat.add_sub_cancel]
    rw [(Text.eq_of_drop_eq_append hs₃).1]
  · have hs₄ : line.drop (nameEnd + 2) = (content ++ ['}']) ++ rest := by simp [hs₃]
    have hrest := (Text.eq_of_drop_eq_append hs₄).2
    rwa [List.length_append, List.length_singleton, ← Nat.add_assoc] at hrest

/-- The text at an opening whose name has an end. -/
theorem eq_of_find?_name {nameEnd : Nat} (hstart : opening <+: line.drop start)
    (hend : Text.find? [']'] line (start + opening.length) = some nameEnd) :
    (line.drop start = opening ++ (line.extract (start + opening.length) nameEnd
        ++ ']' :: line.drop (nameEnd + 1)) ∧
      nameEnd = start + opening.length + (line.extract (start + opening.length) nameEnd).length) ∧
    ']' ∉ line.extract (start + opening.length) nameEnd := by
  obtain ⟨t, ht⟩ := hstart
  obtain ⟨hname, hbracket⟩ := Text.eq_of_find?_singleton hend
  have hlength := Option.some.inj (hend.symm.trans (Text.find?_singleton_of_drop hname hbracket))
  rw [(Text.eq_of_drop_eq_append ht.symm).2] at hname
  exact ⟨⟨by rw [← ht, hname], hlength⟩, hbracket⟩

theorem eq_of_extract_brace {i : Nat} (h : line.extract i (i + 1) = ['{']) :
    line.drop i = '{' :: line.drop (i + 1) := by
  rw [← Text.extract_append_drop (Nat.le_succ i), h]
  rfl

/-- What is found at an opening is a mark that is read there. -/
theorem read?_of_attempt (hstart : opening <+: line.drop start)
    (h : attempt line start = .mark term content stop) :
    read? (line.drop start) = some (.tagged term content, line.drop stop) := by
  rw [attempt] at h
  split at h
  · cases h
  next nameEnd hend =>
  obtain ⟨⟨hline, hnameEnd⟩, hbracket⟩ := eq_of_find?_name hstart hend
  dsimp only at h
  split at h
  · cases h
  next hbreakers =>
  split at h
  · cases h
  next hheader =>
  split at h
  · cases h
  next stop' hmatch =>
  obtain ⟨rfl, rfl, rfl⟩ := Attempt.mark.inj h
  rw [not_or, not_not] at hheader
  generalize line.extract (start + opening.length) nameEnd = name at *
  rw [eq_of_extract_brace hheader.2] at hline
  rw [(matchAt?_header hline hnameEnd).2] at hmatch
  obtain ⟨⟨inside, rest⟩, hinside, rfl⟩ := Option.map_eq_some_iff.1 hmatch
  obtain ⟨hs, hclosed⟩ := braces_content?_eq_some_iff.1 hinside
  obtain ⟨hcontent, hrest⟩ := Text.eq_of_drop_eq_append hs
  have hrest' : line.drop (nameEnd + 2 + inside.length + 1) = rest := by
    rw [← List.drop_drop, hrest]
    rfl
  have hname : IsTermName name := by
    refine isTermName_iff.2 ⟨?_, hbracket⟩
    simp only [isName, Bool.and_eq_true, decide_eq_true_eq, List.all_eq_true]
    refine ⟨hheader.1, fun c hc => ?_⟩
    simpa [breakers] using List.any_eq_false.1 (Bool.eq_false_iff.2 hbreakers) c hc
  rw [Nat.add_sub_cancel, hcontent, hrest']
  refine read?_eq_some_iff.2 ⟨name, inside, rfl, ?_, hname, hclosed⟩
  rw [hline, hs, write]
  simp

/-- What is copied up to a position behind an opening. -/
theorem bars_of_drop (h : line.drop start = (opening ++ u) ++ line.drop resume)
    (hresume : resume = start + (opening ++ u).length) (hu : Bars opening u) :
    line.drop start = line.extract start resume ++ line.drop resume ∧
      ∃ c w, line.extract start resume = c :: w ∧ Bars opening w := by
  have hextract : line.extract start resume = opening ++ u := by
    rw [hresume]
    exact (Text.eq_of_drop_eq_append h).1
  rw [hextract]
  exact ⟨h, '\\', opening.tail ++ u, rfl, bars_tail.append hu⟩

/-- Where no mark is found, what is copied stands at the opening, and neither
there nor in the rest of it a mark begins. -/
theorem bars_of_broken (hstart : opening <+: line.drop start)
    (h : attempt line start = .broken copied resume) :
    line.drop start = copied ++ line.drop resume ∧
      ∃ c w, copied = c :: w ∧ Bars opening w := by
  have hopening : line.drop start = opening ++ line.drop (start + opening.length) := by
    obtain ⟨t, ht⟩ := hstart
    rw [(Text.eq_of_drop_eq_append ht.symm).2, ht]
  rw [attempt] at h
  split at h
  · obtain ⟨rfl, rfl⟩ := Attempt.broken.inj h
    exact ⟨hopening, '\\', opening.tail, rfl, bars_tail⟩
  next nameEnd hend =>
  obtain ⟨⟨hline, hnameEnd⟩, -⟩ := eq_of_find?_name hstart hend
  dsimp only at h
  split at h
  · obtain ⟨rfl, rfl⟩ := Attempt.broken.inj h
    exact ⟨hopening, '\\', opening.tail, rfl, bars_tail⟩
  next hbreakers =>
  generalize line.extract (start + opening.length) nameEnd = name at *
  have hname : '[' ∉ name := by
    intro hin
    exact hbreakers (List.any_eq_true.2 ⟨'[', hin, by decide⟩)
  split at h
  · obtain ⟨rfl, rfl⟩ := Attempt.broken.inj h
    refine bars_of_drop (u := name ++ [']']) ?_ ?_ (bars_name hname)
    · rw [hline]
      simp
    · rw [hnameEnd]
      simp
      omega
  next hheader =>
  split at h
  · obtain ⟨rfl, rfl⟩ := Attempt.broken.inj h
    rw [not_or, not_not] at hheader
    rw [eq_of_extract_brace hheader.2] at hline
    have hbrace : Bars opening ['{'] := by decide
    refine bars_of_drop (u := name ++ [']'] ++ ['{']) ?_ ?_ ((bars_name hname).append hbrace)
    · rw [hline]
      simp
    · rw [hnameEnd]
      simp
      omega
  · cases h

theorem forest_of_broken (hstart : opening <+: line.drop start)
    (h : attempt line start = .broken copied resume) :
    TagStyle.mark.forest (line.drop start) =
      (Fragment.plain copied).before (TagStyle.mark.forest (line.drop resume)) := by
  obtain ⟨hline, c, w, rfl, hbars⟩ := bars_of_broken hstart h
  rw [hline]
  refine TagStyle.forest_append _ fun x hx hne => ?_
  rcases List.suffix_cons_iff.1 hx with rfl | hx
  · -- a mark at the opening would have been found
    rw [← hline]
    rcases hread : read? (line.drop start) with - | ⟨run, rest⟩
    · exact hread
    · obtain ⟨term, content, rfl, -⟩ := read?_eq_some_iff.1 hread
      obtain ⟨stop, hmark, -⟩ := attempt_of_read? hread
      cases h.symm.trans hmark
  · rcases hread : read? (x ++ line.drop resume) with - | ⟨run, rest⟩
    · exact hread
    · exact absurd (prefix_of_read? hread) ((hbars.of_suffix hx).not_prefix_append hne)

/-! ### The scan -/

theorem lt_resume (h : attempt line start = .broken copied resume) : start < resume := by
  rw [attempt] at h
  split at h
  · obtain ⟨-, rfl⟩ := Attempt.broken.inj h
    exact Nat.lt_add_of_pos_right (by decide)
  next nameEnd hend =>
  have hle := Text.le_of_find? hend
  dsimp only at h
  split at h
  · obtain ⟨-, rfl⟩ := Attempt.broken.inj h
    exact Nat.lt_add_of_pos_right (by decide)
  · split at h
    · obtain ⟨-, rfl⟩ := Attempt.broken.inj h
      omega
    · split at h
      · obtain ⟨-, rfl⟩ := Attempt.broken.inj h
        omega
      · cases h

/-- The terms with one more, which comes last if it is new. -/
def register (order : List Text) (term : Text) : List Text :=
  if term ∈ order then order else order ++ [term]

/-- Terms that are registered one after the other are listed each at its first
place. -/
theorem foldl_register (more : List Text) :
    more.foldl register terms.eraseDups = (terms ++ more).eraseDups := by
  induction more using List.reverseRecOn with
  | nil => rw [List.append_nil, List.foldl_nil]
  | append_singleton more term ih =>
    rw [List.foldl_concat, ih, ← List.append_assoc, eraseDups_concat, register]
    simp only [List.mem_eraseDups]

/-- Scans the line from `pos` on: what is written for it, and the terms, those
of `order` first. -/
def scanFrom (line : Text) (pos : Nat) (order : List Text) : Text × List Text :=
  match _hstart : Text.find? opening line pos with
  | none => (line.drop pos, order)
  | some start =>
    match _hattempt : attempt line start with
    | .broken copied resume =>
      (scanFrom line resume order).map (line.extract pos start ++ copied ++ ·) id
    | .mark term content stop =>
      let inner := scanFrom content 0 (register order term)
      (scanFrom line stop inner.2).map
        (line.extract pos start ++ EquationSpan.write term inner.1 ++ ·) id
termination_by line.length - pos
decreasing_by
  all_goals
    have hpos := Text.le_of_find? _hstart
    have hlength := Text.lt_length_of_find? (by decide) _hstart
  · have hresume := lt_resume _hattempt
    omega
  · have hread := read?_of_attempt (Text.prefix_of_find? _hstart) _hattempt
    have hcontent := TagStyle.mark.length_content_lt hread
    rw [List.length_drop] at hcontent
    omega
  · have hread := read?_of_attempt (Text.prefix_of_find? _hstart) _hattempt
    have hrest := TagStyle.mark.length_rest_lt hread
    rw [List.length_drop, List.length_drop] at hrest
    omega

/-- The scan of a stretch without an opening copies it. -/
theorem forest_before_find? (h : Text.find? opening line pos = some start) :
    TagStyle.mark.forest (line.drop pos) =
      (Fragment.plain (line.extract pos start)).before (TagStyle.mark.forest (line.drop start)) := by
  rw [← Text.extract_append_drop (Text.le_of_find? h)]
  refine TagStyle.forest_append _ fun w hw hne => ?_
  rcases hread : read? (w ++ line.drop start) with - | ⟨run, rest⟩
  · exact hread
  · exact absurd (prefix_of_read? hread) (Text.not_prefix_before_find? (by decide) h hw hne)

theorem forest_of_find?_eq_none (h : Text.find? opening line pos = none) :
    TagStyle.mark.forest (line.drop pos) = (Fragment.plain (line.drop pos)).before [] := by
  have hnone : ∀ w, w <:+ line.drop pos → w ≠ [] → TagStyle.mark.read? (w ++ []) = none := by
    intro w hw _
    rw [List.append_nil, List.suffix_iff_eq_drop.1 hw, List.drop_drop]
    rcases hread : read? (line.drop (pos + ((line.drop pos).length - w.length))) with - | ⟨run, rest⟩
    · exact hread
    · exact absurd (prefix_of_read? hread)
        (Text.not_prefix_of_find?_eq_none h (Nat.le_add_right pos _))
  have hforest := TagStyle.forest_append TagStyle.mark hnone
  rwa [List.append_nil, TagStyle.forest_nil] at hforest

/-- What is written for some fragments, and their terms behind those of an
order. -/
def output (order : List Text) (fs : List Fragment) : Text × List Text :=
  (writeAll EquationSpan.write fs, (termsAll fs).foldl register order)

theorem output_before_plain (order : List Text) (u : Text) (fs : List Fragment) :
    output order ((Fragment.plain u).before fs) = (output order fs).map (u ++ ·) id := by
  rw [output, Fragment.termsAll_before_plain, Fragment.writeAll_eq_writeAllFrom _ 0,
    Fragment.writeAllFrom_before_plain, ← Fragment.writeAll_eq_writeAllFrom]
  rfl

theorem output_tagged (order : List Text) (term : Text) (body fs : List Fragment) :
    output order (.tagged term body :: fs) =
      (output (output (register order term) body).2 fs).map
        (EquationSpan.write term (output (register order term) body).1 ++ ·) id := by
  simp only [output, writeAll, Fragment.write, termsAll, Fragment.terms, List.cons_append,
    List.foldl_cons, List.foldl_append, Prod.map, id]

/-- **The scan of a line writes its forest with spans for the marks, and
registers the terms of the forest in their order.** -/
theorem scanFrom_eq (line : Text) (pos : Nat) (order : List Text) :
    scanFrom line pos order = output order (TagStyle.mark.forest (line.drop pos)) := by
  fun_induction scanFrom line pos order with
  | case1 line pos order hstart =>
    rw [forest_of_find?_eq_none hstart, output_before_plain]
    simp [output, writeAll, termsAll]
  | case2 line pos order start hstart copied resume hattempt ih =>
    have hopening := Text.prefix_of_find? hstart
    rw [forest_before_find? hstart, forest_of_broken hopening hattempt, output_before_plain,
      output_before_plain, ih, Prod.map_map, Function.comp_id]
    simp only [Function.comp_def, List.append_assoc]
  | case3 line pos order start hstart term content stop hattempt inner ihContent ihRest =>
    have hread := read?_of_attempt (Text.prefix_of_find? hstart) hattempt
    have hinner : inner = output (register order term) (TagStyle.mark.forest content) := ihContent
    rw [forest_before_find? hstart, TagStyle.mark.forest_of_tagged hread, output_before_plain,
      output_tagged, ihRest, Prod.map_map, hinner, Function.comp_id]
    simp only [Function.comp_def, List.append_assoc]

end Mark

end AnnotatedEquation
