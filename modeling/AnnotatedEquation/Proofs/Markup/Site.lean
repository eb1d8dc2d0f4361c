/-
AnnotatedEquation/Proofs/Markup/Site.lean

The sites of a line: the positions at which a well-formed mark begins,
wherever it stands, each judged by the whole line.

* `Mark.IsSite` says what a site is, and `Mark.siteNames` lists the names at
  all positions of a line that are sites;
* `Mark.front?` is the name of the mark at the very front of a text.

Main statement: the sites of a line are the terms of its forest, in the same
order (`Mark.siteNames_eq_termsAll`).  That a mark is judged inside the
content of another as it is in the whole line is `Mark.front?_append`.
-/
import AnnotatedEquation.Proofs.Markup.Decomposition
import AnnotatedEquation.Proofs.Markup.Reading

namespace AnnotatedEquation.Mark

open Delimiters (braces)

variable {line s u v name content rest : Text} {p n m : Nat} {e e' : Bool} {c : Char}

/-! ### Sites -/

/-- At position `p` the line continues with a mark of a term: the opening,
the name of the term, `]\x7b`, and a content that is closed again. -/
def IsSite (line : Text) (p : Nat) (name : Text) : Prop :=
  IsTermName name ∧ opening ++ name ++ [']', '{'] <+: line.drop p ∧
    (braces.matchAt? line (p + (opening ++ name ++ [']', '{']).length)).isSome

instance : Decidable (IsSite line p name) := inferInstanceAs (Decidable (_ ∧ _))

/-- The name at a position that is a site. -/
def siteName? (line : Text) (p : Nat) : Option Text :=
  let name := (line.drop (p + opening.length)).takeWhile (· ∉ ['[', ']', '{', '}'])
  if IsSite line p name then some name else none

/-- The names at all sites of a line, by increasing position. -/
def siteNames (line : Text) : List Text :=
  (List.range line.length).filterMap (siteName? line)

theorem siteName?_eq_some_iff : siteName? line p = some name ↔ IsSite line p name := by
  rw [siteName?, Option.ite_none_right_eq_some, Option.some.injEq]
  constructor
  · rintro ⟨h, rfl⟩
    exact h
  · intro h
    -- the name is what stands before the first bracket or brace
    obtain ⟨⟨-, hname⟩, ⟨t, ht⟩, -⟩ := id h
    have hdrop : line.drop (p + opening.length) = name ++ ']' :: '{' :: t := by
      rw [← List.drop_drop, ← ht]
      simp
    have : (line.drop (p + opening.length)).takeWhile (· ∉ ['[', ']', '{', '}']) = name := by
      rw [hdrop, List.takeWhile_append_of_pos fun c hc => by simpa using hname c hc]
      simp
    rw [this]
    exact ⟨h, rfl⟩

/-! ### The mark at the front -/

/-- The name of the mark at the front of a text. -/
def front? (s : Text) : Option Text := (read? s).bind fun (run, _) => run.term?

theorem front?_eq_some_iff :
    front? s = some name ↔
      ∃ content rest, s = write name content ++ rest ∧ IsTermName name ∧ braces.Closed content := by
  rw [front?, Option.bind_eq_some_iff]
  constructor
  · rintro ⟨⟨run, rest⟩, h, ht⟩
    obtain ⟨name', content, rfl, rfl, hname, hclosed⟩ := read?_eq_some_iff.1 h
    obtain rfl : name' = name := by simpa [Run.term?] using ht
    exact ⟨content, rest, rfl, hname, hclosed⟩
  · rintro ⟨content, rest, rfl, hname, hclosed⟩
    exact ⟨_, read?_eq_some_iff.2 ⟨name, content, rfl, rfl, hname, hclosed⟩, rfl⟩

theorem front?_eq_none_of_not_prefix (h : ¬ opening <+: s) : front? s = none := by
  rw [Option.eq_none_iff_forall_ne_some]
  intro name hname
  obtain ⟨content, rest, rfl, -, -⟩ := front?_eq_some_iff.1 hname
  exact h ⟨name ++ ([']', '{'] ++ (content ++ '}' :: rest)), by simp [write]⟩

theorem siteName?_eq_front? (line : Text) (p : Nat) : siteName? line p = front? (line.drop p) := by
  refine Option.ext fun name => ?_
  rw [siteName?_eq_some_iff, front?_eq_some_iff, IsSite]
  -- the brace is found in the line where it is found in the text behind the header
  have key : ∀ t, line.drop p = opening ++ name ++ [']', '{'] ++ t →
      ((braces.matchAt? line (p + (opening ++ name ++ [']', '{']).length)).isSome ↔
        (braces.content? t).isSome) := fun t ht => by
    have h : line.drop p = (opening ++ name ++ [']']) ++ '{' :: t := by simp [ht]
    simpa using Delimiters.isSome_matchAt?_iff h (by decide)
  constructor
  · rintro ⟨hname, ⟨t, ht⟩, hmatch⟩
    obtain ⟨⟨content, rest⟩, h⟩ := Option.isSome_iff_exists.1 ((key t ht.symm).1 hmatch)
    obtain ⟨rfl, hclosed⟩ := braces_content?_eq_some_iff.1 h
    exact ⟨content, rest, by simp [← ht, write], hname, hclosed⟩
  · rintro ⟨content, rest, hs, hname, hclosed⟩
    have ht : line.drop p = opening ++ name ++ [']', '{'] ++ (content ++ '}' :: rest) := by
      simp [hs, write]
    refine ⟨hname, ⟨_, ht.symm⟩, (key _ ht).2 ?_⟩
    rw [braces_content?_eq_some_iff.2 ⟨rfl, hclosed⟩]
    rfl

/-! ### Sites along a line -/

@[simp] theorem siteNames_nil : siteNames [] = [] := rfl

theorem siteNames_cons (c : Char) (s : Text) :
    siteNames (c :: s) = (front? (c :: s)).toList ++ siteNames s := by
  have hsucc : ∀ p, siteName? (c :: s) (p + 1) = siteName? s p := fun p => by
    simp [siteName?_eq_front?]
  have hzero : siteName? (c :: s) 0 = front? (c :: s) := siteName?_eq_front? _ 0
  rw [siteNames, List.length_cons, List.range_succ_eq_map, List.filterMap_cons, hzero,
    List.filterMap_map]
  have : (siteName? (c :: s) ∘ Nat.succ) = siteName? s := funext hsucc
  rw [this]
  rcases front? (c :: s) with - | name <;> rfl

/-- A stretch of a line in which no mark begins has no sites. -/
theorem siteNames_append_of_bars (h : Text.Bars opening u) :
    siteNames (u ++ v) = siteNames v := by
  induction u with
  | nil => rfl
  | cons c u ih =>
    have hfront : front? (c :: (u ++ v)) = none :=
      front?_eq_none_of_not_prefix (h.not_prefix_append (by simp))
    rw [List.cons_append, siteNames_cons, hfront, ih (h.of_suffix (List.suffix_cons c u))]
    rfl

/-- No mark begins between the first character of a mark and its content. -/
theorem bars_header (hname : IsTermName name) :
    Text.Bars opening ("mark[".toList ++ name ++ [']', '{']) := by
  have h := Text.bars_concat (p := opening) (u := "mark[".toList ++ name ++ [']']) (c := '{')
    (by decide) ?_
  · simpa using h
  · rw [List.append_assoc, List.append_assoc, Text.infix_append_of_bars (by decide)]
    intro hin
    have : '[' ∈ name ++ ([']'] ++ ['{']) := hin.mem (by decide)
    have hbracket : '[' ∉ name := fun hc => hname.2 _ hc (by simp)
    simp [hbracket] at this

/-- A mark up to its content opens one level. -/
theorem level?_header (hname : IsTermName name) (m : Nat) (e : Bool) :
    braces.level? m e (opening ++ name ++ [']', '{']) = some (m + 1, false) := by
  have hopening : ∀ c ∈ opening, c ≠ '{' ∧ c ≠ '}' := by decide
  have hbefore : braces.level? m e (opening ++ name ++ [']']) = some (m, false) := by
    refine Delimiters.level?_concat_of_no_delimiter (fun c hc => ?_) m e
    simp only [List.mem_append, List.mem_singleton] at hc
    rcases hc with (hc | hc) | rfl
    · exact hopening c hc
    · have hc' : c ≠ '{' ∧ c ≠ '}' :=
        ⟨fun h => hname.2 c hc (by simp [h]), fun h => hname.2 c hc (by simp [h])⟩
      exact hc'
    · decide
  have : opening ++ name ++ [']', '{'] = (opening ++ name ++ [']']) ++ ['{'] := by simp
  rw [this, Delimiters.level?_append, hbefore]
  rfl

/-- **A mark is judged inside the content of another as in the whole line**:
what follows the content neither makes nor breaks a mark that begins in
it. -/
theorem front?_append (h : braces.level? m e s = some (0, e')) (rest : Text) :
    front? (s ++ '}' :: rest) = front? s := by
  refine Option.ext fun name => ?_
  rw [front?_eq_some_iff, front?_eq_some_iff]
  constructor
  · rintro ⟨content, rest', hs, hname, -⟩
    -- the mark up to its content holds no closing brace, so it lies inside
    have hheader : '}' ∉ opening ++ name ++ [']', '{'] := by
      have hopening : '}' ∉ opening := by decide
      have : '}' ∉ name := fun hc => hname.2 _ hc (by simp)
      simp [this, hopening]
    have hprefix : opening ++ name ++ [']', '{'] <+: s ++ '}' :: rest :=
      ⟨content ++ '}' :: rest', by simp [hs, write]⟩
    obtain ⟨t, rfl⟩ := (Text.prefix_append_cons_iff hheader).1 hprefix
    -- one level deeper behind it, and outside again at the end: so it closes
    rw [Delimiters.level?_append, level?_header hname] at h
    obtain ⟨inside, rest'', hinside⟩ := Delimiters.exists_content?_of_level? h (Nat.zero_le m)
    obtain ⟨rfl, hclosed⟩ := braces_content?_eq_some_iff.1 hinside
    exact ⟨inside, rest'', by simp [write], hname, hclosed⟩
  · rintro ⟨content, rest', rfl, hname, hclosed⟩
    exact ⟨content, rest' ++ '}' :: rest, by simp, hname, hclosed⟩

theorem siteNames_append_of_level? (h : braces.level? m e s = some (0, e')) (rest : Text) :
    siteNames (s ++ '}' :: rest) = siteNames s ++ siteNames rest := by
  induction s generalizing m e with
  | nil =>
    -- no mark begins with the closing brace
    have hbars : Text.Bars opening ['}'] := by decide
    have hhead : ¬ opening <+: '}' :: rest := hbars.not_prefix_append (by simp)
    have : front? ('}' :: rest) = none := front?_eq_none_of_not_prefix hhead
    rw [List.nil_append, siteNames_cons, this]
    rfl
  | cons c s ih =>
    -- at every character the same is judged, in whatever level
    obtain ⟨m', e'', h'⟩ := Delimiters.level?_tail h
    have hfront := front?_append h rest
    rw [List.cons_append] at hfront ⊢
    rw [siteNames_cons, siteNames_cons, hfront, ih h', List.append_assoc]

theorem siteNames_write (hname : IsTermName name) (hclosed : braces.Closed content) (rest : Text) :
    siteNames (write name content ++ rest) = name :: (siteNames content ++ siteNames rest) := by
  have hfront : front? (write name content ++ rest) = some name :=
    front?_eq_some_iff.2 ⟨content, rest, rfl, hname, hclosed⟩
  have hwrite : write name content ++ rest =
      '\\' :: (("mark[".toList ++ name ++ [']', '{']) ++ (content ++ '}' :: rest)) := by
    have hopening : opening = '\\' :: "mark[".toList := rfl
    simp only [write, hopening, List.append_assoc, List.cons_append, List.nil_append]
  rw [hwrite] at hfront ⊢
  rw [siteNames_cons, hfront, siteNames_append_of_bars (bars_header hname),
    siteNames_append_of_level? hclosed]
  rfl

/-- **The sites of a line are the terms of its forest**, position by position
on the one side and by taking marks apart on the other. -/
theorem siteNames_eq_termsAll (line : Text) :
    siteNames line = Fragment.termsAll (TagStyle.mark.forest line) := by
  induction line using TagStyle.reading_induction TagStyle.mark with
  | nil => simp
  | skip c s h ih =>
    have hfront : front? (c :: s) = none := by
      have h' : read? (c :: s) = none := h
      rw [front?, h']
      rfl
    rw [siteNames_cons, hfront, TagStyle.forest_cons _ h, Fragment.termsAll_before_plain, ← ih]
    rfl
  | plain s text rest h ih =>
    -- marks are never read as plain text
    obtain ⟨name, content, hrun, -⟩ := read?_eq_some_iff.1 h
    cases hrun
  | tagged s term content rest h ihContent ihRest =>
    obtain ⟨name, inner, hrun, rfl, hname, hclosed⟩ := read?_eq_some_iff.1 h
    obtain ⟨rfl, rfl⟩ := Run.tagged.inj hrun
    rw [siteNames_write hname hclosed, TagStyle.forest_of_tagged _ h, Fragment.termsAll_tagged,
      ihContent, ihRest]
    rfl

end AnnotatedEquation.Mark
