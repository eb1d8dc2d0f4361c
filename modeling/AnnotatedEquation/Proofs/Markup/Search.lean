/-
AnnotatedEquation/Proofs/Markup/Search.lean

The search for the next span of an equation, told in positions.

* `EquationSpan.IsSpan` says what a well-formed span is, judged by the whole
  text, and `EquationSpan.IsForeign` what a foreign class is;
* `EquationSpan.search` looks for the next span from a position on.  Where an
  opening begins no span, it goes on one position further if the class has no
  end or no argument, behind the class if it is foreign, and in the content if
  that is never closed.

Going on behind a foreign class passes over what begins in its name: such a
span is hidden (`EquationSpan.Hidden`).

Main statements: the search gives the first span that is not hidden, so that
it gives the first span exactly if that one is not hidden, and likewise for
the spans that are found one behind the other
(`EquationSpan.search_finds_first_unless_hidden`).  A span may be hidden
(`EquationSpan.foreign_name_hides_span`).
-/
import AnnotatedEquation.Proofs.Markup.Place
import AnnotatedEquation.Proofs.Markup.Reading

namespace AnnotatedEquation

open Delimiters (braces)
open TagPlace (First Leftmost)

namespace EquationSpan

variable {s t name name' term content text rest : Text} {f g : TagPlace} {fs : List TagPlace}
  {p q pos : Nat}

/-! ### Spans and foreign classes -/

/-- A class command up to its argument. -/
def header (name : Text) : Text := opening ++ name ++ ['}', '{']

/-- At position `p` the text continues with the command of a class, which is
given an argument. -/
def HasClass (s : Text) (p : Nat) (name : Text) : Prop := '}' ∉ name ∧ header name <+: s.drop p

/-- The position behind the header of a span. -/
def contentFrom (f : TagPlace) : Nat := f.start + (header (classStart ++ f.term)).length

/-- A well-formed span: the class of a term, and the brace behind it is
matched. -/
def IsSpan (s : Text) (f : TagPlace) : Prop :=
  HasClass s f.start (classStart ++ f.term) ∧
    braces.matchAt? s (contentFrom f) = some f.stop ∧
    f.content = s.extract (contentFrom f) (f.stop - 1)

/-- A class that is not that of a term. -/
def IsForeign (s : Text) (p : Nat) (name : Text) : Prop :=
  HasClass s p name ∧ ¬ classStart <+: name

/-- The position lies in a foreign class whose command begins before it, but
not before `pos`. -/
def Hidden (s : Text) (pos q : Nat) : Prop :=
  ∃ p name, (pos ≤ p ∧ p < q ∧ q < p + (opening ++ name ++ ['}']).length) ∧ IsForeign s p name

instance : Decidable (HasClass s p name) := inferInstanceAs (Decidable (_ ∧ _))

instance : Decidable (IsSpan s f) := inferInstanceAs (Decidable (_ ∧ _))

instance : Decidable (IsForeign s p name) := inferInstanceAs (Decidable (_ ∧ _))

theorem write_eq_header (term content : Text) :
    write term content = header (classStart ++ term) ++ (content ++ ['}']) := by
  simp [write, header]

theorem length_write_eq (term content : Text) :
    (write term content).length =
      (header (classStart ++ term)).length + content.length + 1 := by
  simp [write_eq_header, Nat.add_assoc]

/-- Behind a header, the search for the closing brace reads the content. -/
theorem matchAt?_header {k : Nat} (h : s.drop p = header name ++ t)
    (hk : k = p + (header name).length) :
    braces.matchAt? s k = (braces.content? t).map fun (inside, _) => k + inside.length + 1 := by
  have h' : s.drop p = (opening ++ name ++ ['}']) ++ '{' :: t := by simp [h, header]
  have hheader : header name = (opening ++ name ++ ['}']) ++ ['{'] := by simp [header]
  rw [hk, hheader]
  exact Delimiters.matchAt?_eq_map_content? h' (by decide)

/-- A piece that is read at its position is a well-formed span. -/
theorem isSpan_of_reads (h : TagStyle.equationSpan.Reads s f) : IsSpan s f := by
  obtain ⟨hread, hstop : f.stop = f.start + (write f.term f.content).length⟩ := h
  obtain ⟨hs, hterm, hclosed⟩ := read?_eq_some_tagged_iff.1 hread
  have hs : s.drop f.start =
      header (classStart ++ f.term) ++ (f.content ++ '}' :: s.drop f.stop) := by
    rw [hs, write_eq_header]
    simp
  have hname : '}' ∉ classStart ++ f.term := by
    have : '}' ∉ classStart := by decide
    simp [this, hterm]
  have hcontent : braces.content? (f.content ++ '}' :: s.drop f.stop) =
      some (f.content, s.drop f.stop) := braces_content?_eq_some_iff.2 ⟨rfl, hclosed⟩
  have hend : f.stop = contentFrom f + f.content.length + 1 := by
    rw [hstop, length_write_eq, contentFrom]
    omega
  refine ⟨⟨hname, _, hs.symm⟩, ?_, ?_⟩
  · rw [matchAt?_header (k := contentFrom f) hs rfl, hcontent, hend]
    rfl
  · have hdrop := (Text.eq_of_drop_eq_append hs).2
    rw [hend, Nat.add_sub_cancel]
    exact (Text.eq_of_drop_eq_append hdrop).1.symm

/-- A well-formed span is read at its position. -/
theorem reads_of_isSpan (h : IsSpan s f) : TagStyle.equationSpan.Reads s f := by
  obtain ⟨⟨hname, t, ht⟩, hmatch, hcontent⟩ := h
  have hterm : '}' ∉ f.term := fun h => hname (List.mem_append_right _ h)
  have hdrop : s.drop (contentFrom f) = t := (Text.eq_of_drop_eq_append ht.symm).2
  -- the content that the brace closes is the one that is read there
  rw [contentFrom, matchAt?_header ht.symm rfl] at hmatch
  obtain ⟨⟨inside, rest⟩, hinside, hend⟩ := Option.map_eq_some_iff.1 hmatch
  obtain ⟨rfl, hclosed⟩ := braces_content?_eq_some_iff.1 hinside
  have hend : f.stop = contentFrom f + inside.length + 1 := hend.symm
  obtain rfl : f.content = inside := by
    rw [hcontent, hend, Nat.add_sub_cancel]
    exact (Text.eq_of_drop_eq_append hdrop).1
  have hwhole : s.drop f.start = write f.term f.content ++ rest := by
    rw [← ht, write_eq_header]
    simp
  have hstop : f.stop = f.start + (write f.term f.content).length := by
    rw [hend, length_write_eq, contentFrom]
    omega
  have hrest : s.drop f.stop = rest := by
    rw [hstop]
    exact (Text.eq_of_drop_eq_append hwhole).2
  exact ⟨read?_eq_some_tagged_iff.2 ⟨by rw [hrest, hwhole], hterm, hclosed⟩, hstop⟩

/-- **A well-formed span is one that is read at its position.** -/
theorem reads_iff : TagStyle.equationSpan.Reads s f ↔ IsSpan s f :=
  ⟨isSpan_of_reads, reads_of_isSpan⟩

theorem read?_eq_some_plain_iff :
    read? t = some (.plain text, rest) ↔ ∃ name, text = opening ++ name ++ ['}'] ∧
      t = text ++ rest ∧ ('}' ∉ name ∧ ¬ classStart <+: name) ∧ ['{'] <+: rest := by
  constructor
  · intro h
    simp only [read?, Option.bind_eq_bind, Option.bind_eq_some_iff, Prod.exists] at h
    obtain ⟨s₁, h₁, name, s₂, h₂, s₃, h₃, h⟩ := h
    split at h
    · next h₄ =>
      simp only [Option.some.injEq, Prod.mk.injEq, Run.plain.injEq] at h
      obtain ⟨rfl, rfl⟩ := h
      obtain rfl := Text.after?_eq_some_iff.1 h₁
      obtain ⟨rfl, hbrace⟩ := Text.cutAt?_singleton_eq_some_iff.1 h₂
      exact ⟨name, rfl, by simp, ⟨hbrace, Text.after?_eq_none_iff.1 h₄⟩,
        ⟨s₃, (Text.after?_eq_some_iff.1 h₃).symm⟩⟩
    · simp [Option.bind_eq_some_iff] at h
  · rintro ⟨name, rfl, rfl, ⟨hbrace, hforeign⟩, inner, rfl⟩
    have hcut : Text.cutAt? ['}'] (name ++ '}' :: '{' :: inner) = some (name, '{' :: inner) :=
      Text.cutAt?_singleton_eq_some_iff.2 ⟨rfl, hbrace⟩
    have hafter : Text.after? classStart name = none := Text.after?_eq_none_iff.2 hforeign
    have hinner : Text.after? ['{'] ('{' :: inner) = some inner := Text.after?_append ['{'] _
    simp [read?, hcut, hafter, hinner]

/-- A foreign class is what is read as a plain run. -/
theorem exists_plain_iff :
    (∃ rest, read? (s.drop p) = some (.plain text, rest)) ↔
      ∃ name, text = opening ++ name ++ ['}'] ∧ IsForeign s p name := by
  constructor
  · rintro ⟨rest, hread⟩
    obtain ⟨name, rfl, hs, ⟨hbrace, hforeign⟩, inner, rfl⟩ := read?_eq_some_plain_iff.1 hread
    exact ⟨name, rfl, ⟨hbrace, inner, by rw [hs, header]; simp⟩, hforeign⟩
  · rintro ⟨name, rfl, ⟨hbrace, inner, hs⟩, hforeign⟩
    refine ⟨'{' :: inner, read?_eq_some_plain_iff.2 ⟨name, rfl, ?_, ⟨hbrace, hforeign⟩, inner, rfl⟩⟩
    rw [← hs, header]
    simp

theorem hides_iff : TagStyle.equationSpan.Hides s pos q ↔ Hidden s pos q := by
  constructor
  · rintro ⟨p, text, rest, hrange, hread⟩
    obtain ⟨name, rfl, hforeign⟩ := exists_plain_iff.1 ⟨rest, hread⟩
    exact ⟨p, name, hrange, hforeign⟩
  · rintro ⟨p, name, hrange, hforeign⟩
    obtain ⟨rest, hread⟩ := exists_plain_iff.2 ⟨name, rfl, hforeign⟩
    exact ⟨p, _, rest, hrange, hread⟩

/-- A span at or behind `pos` that nothing hides from there. -/
abbrev Open (s : Text) (pos : Nat) (f : TagPlace) : Prop := TagStyle.equationSpan.Open s pos f

theorem open_iff : Open s pos f ↔ pos ≤ f.start ∧ IsSpan s f ∧ ¬ Hidden s pos f.start := by
  rw [Open, TagStyle.Open, reads_iff, hides_iff]

/-! ### Classes that begin in the name of another -/

/-- The name of a class ends at the first closing brace. -/
theorem HasClass.brace_iff (h : HasClass s p name) {i : Nat} (hi : p ≤ i)
    (hle : i ≤ p + (opening ++ name).length) :
    s[i]? = some '}' ↔ i = p + (opening ++ name).length := by
  obtain ⟨hname, t, ht⟩ := h
  obtain ⟨k, rfl⟩ := Nat.exists_eq_add_of_le hi
  have hs : s.drop p = (opening ++ name) ++ '}' :: '{' :: t := by rw [← ht, header]; simp
  have hfree : '}' ∉ opening ++ name := by
    have : '}' ∉ opening := by decide
    simp [this, hname]
  have hchar : s[p + k]? = ((opening ++ name) ++ '}' :: '{' :: t)[k]? := by
    rw [← hs, List.getElem?_drop]
  have hk : k ≤ (opening ++ name).length := by omega
  rw [hchar]
  constructor
  · intro hbrace
    by_contra hne
    have hlt : k < (opening ++ name).length := by omega
    rw [List.getElem?_append_left hlt] at hbrace
    exact hfree (List.mem_of_getElem? hbrace)
  · intro heq
    obtain rfl : k = (opening ++ name).length := by omega
    rw [List.getElem?_append_right (Nat.le_refl _)]
    simp

/-- A class that begins in the name of another ends with it. -/
theorem HasClass.end_eq (hp : HasClass s p name) (hq : HasClass s q name') (hle : p ≤ q)
    (hlt : q ≤ p + (opening ++ name).length) :
    q + (opening ++ name').length = p + (opening ++ name).length := by
  have hend : s[p + (opening ++ name).length]? = some '}' :=
    (hp.brace_iff (by omega) (Nat.le_refl _)).2 rfl
  have hend' : s[q + (opening ++ name').length]? = some '}' :=
    (hq.brace_iff (by omega) (Nat.le_refl _)).2 rfl
  rcases Nat.le_total (q + (opening ++ name').length) (p + (opening ++ name).length) with h | h
  · exact (hp.brace_iff (by omega) h).1 hend'
  · exact ((hq.brace_iff hlt h).1 hend).symm

theorem nests : TagStyle.equationSpan.Nests := by
  intro s text rest k inner rest' hread hk hread'
  have hread₀ : read? (s.drop 0) = some (.plain text, rest) := hread
  obtain ⟨name, rfl, hforeign⟩ := exists_plain_iff.1 ⟨rest, hread₀⟩
  obtain ⟨name', rfl, hforeign'⟩ := exists_plain_iff.1 ⟨rest', hread'⟩
  have hlength : ∀ u : Text, (u ++ ['}']).length = u.length + 1 := by simp
  rw [hlength] at hk ⊢
  have hend := hforeign.1.end_eq hforeign'.1 (Nat.zero_le k) (by omega)
  rw [hlength]
  omega

/-- Of two classes, the later one ends with the earlier one or begins behind
its header. -/
theorem HasClass.cases (hp : HasClass s p name) (hq : HasClass s q name') (hle : p ≤ q) :
    q + (header name').length = p + (header name).length ∨ p + (header name).length ≤ q := by
  have hlength : ∀ name, (header name).length = (opening ++ name).length + 2 := by
    intro name
    simp [header, Nat.add_assoc]
  simp only [hlength]
  by_cases hlt : q ≤ p + (opening ++ name).length
  · have := hp.end_eq hq hle hlt
    omega
  · right
    -- the brace that opens the argument begins no class
    by_contra hbrace
    have hq' : q = p + (opening ++ name ++ ['}']).length := by
      simp only [List.length_append, List.length_singleton] at hlt hbrace ⊢
      omega
    obtain ⟨-, t, ht⟩ := hp
    obtain ⟨-, t', ht'⟩ := hq
    have hdrop : s.drop q = '{' :: t := by
      rw [hq', ← List.drop_drop, ← ht, header]
      simp
    have hfirst : header name' ++ t' = '\\' :: ((header name').tail ++ t') := rfl
    rw [hdrop, hfirst] at ht'
    exact absurd (List.cons.inj ht').1 (by decide)

/-! ### Classes found by position -/

theorem HasClass.find?_eq (h : HasClass s p name) :
    Text.find? ['}'] s (p + opening.length) = some (p + opening.length + name.length) ∧
      s[p + opening.length + name.length + 1]? = some '{' := by
  obtain ⟨hname, t, ht⟩ := h
  have hs : s.drop p = opening ++ (name ++ '}' :: '{' :: t) := by
    rw [← ht, header]
    simp
  have hdrop := (Text.eq_of_drop_eq_append hs).2
  refine ⟨Text.find?_singleton_of_drop hdrop hname, ?_⟩
  rw [Nat.add_assoc _ name.length, ← List.getElem?_drop, hdrop]
  simp

/-- An opening whose class is ended and given an argument begins that class. -/
theorem hasClass_of_find? {k : Nat} (hopening : opening <+: s.drop p)
    (hend : Text.find? ['}'] s (p + opening.length) = some k) (harg : s[k + 1]? = some '{') :
    HasClass s p (s.extract (p + opening.length) k) ∧
      p + (header (s.extract (p + opening.length) k)).length = k + 2 := by
  obtain ⟨t, ht⟩ := hopening
  have hdrop : s.drop (p + opening.length) = t := (Text.eq_of_drop_eq_append ht.symm).2
  obtain ⟨hs, hname⟩ := Text.eq_of_find?_singleton hend
  obtain ⟨inner, hinner⟩ : ∃ inner, s.drop (k + 1) = '{' :: inner := by
    rw [← List.head?_drop, List.head?_eq_some_iff] at harg
    exact harg
  refine ⟨⟨hname, inner, ?_⟩, ?_⟩
  · rw [header, ← ht, ← hdrop, hs, hinner]
    simp
  · -- the name ends where it is found to end
    have hk := Option.some.inj (hend.symm.trans (Text.find?_singleton_of_drop hs hname))
    simp only [header, List.length_append, List.length_cons, List.length_nil]
    omega

/-- Where no class begins, nothing is read. -/
theorem read?_drop_eq_none (h : ∀ name, ¬ HasClass s p name) : read? (s.drop p) = none := by
  rcases hread : read? (s.drop p) with - | ⟨text | ⟨term, content⟩, rest⟩
  · rfl
  · obtain ⟨name, -, hforeign⟩ := exists_plain_iff.1 ⟨rest, hread⟩
    exact absurd hforeign.1 (h name)
  · have hreads : TagStyle.equationSpan.Reads s _ := TagStyle.reads_of_read? hread
    exact absurd (reads_iff.1 hreads).1 (h _)

/-! ### The search -/

/-- The next span at or behind `pos`. -/
def search (s : Text) (pos : Nat) : Option TagPlace :=
  match _hstart : Text.find? opening s pos with
  | none => none
  | some start =>
    match _hend : Text.find? ['}'] s (start + opening.length) with
    | none => search s (start + 1)
    | some classEnd =>
      if s[classEnd + 1]? = some '{' then
        match Text.after? classStart (s.extract (start + opening.length) classEnd) with
        | none => search s (classEnd + 1)
        | some term =>
          match braces.matchAt? s (classEnd + 2) with
          | none => search s (classEnd + 2)
          | some stop => some ⟨start, stop, term, s.extract (classEnd + 2) (stop - 1)⟩
      else search s (start + 1)
termination_by s.length - pos
decreasing_by
  all_goals
    have hpos := Text.le_of_find? _hstart
    have hlength := Text.lt_length_of_find? (by decide) _hstart
  · omega
  · have hclass := Text.le_of_find? _hend
    omega
  · have hclass := Text.le_of_find? _hend
    omega
  · omega

theorem not_open_of_find?_eq_none (h : Text.find? opening s pos = none) : ¬ Open s pos f := by
  rintro ⟨hpos, hreads, -⟩
  exact Text.not_prefix_of_find?_eq_none h hpos (prefix_of_read? hreads.1)

/-- Nothing is picked before the next opening. -/
theorem open_iff_of_find? {start : Nat} (h : Text.find? opening s pos = some start) :
    Open s pos f ↔ Open s start f := by
  refine TagStyle.open_iff_of_le (Text.le_of_find? h) fun p hp hlt => ?_
  refine read?_eq_none_of_not_prefix fun hopening => ?_
  have := Text.find?_le_of_prefix h hp hopening
  omega

/-- Going on in the content of a span that is never closed passes over no
other span: what begins in its header ends it in the same place. -/
theorem open_iff_of_unmatched {k : Nat} (h : HasClass s p name) (hk : k = p + (header name).length)
    (hnone : braces.matchAt? s k = none) : Open s p f ↔ Open s k f := by
  have hsame : ∀ q name', HasClass s q name' → p ≤ q → q + (header name').length = k ∨ k ≤ q := by
    intro q name' hq hle
    rw [hk]
    exact h.cases hq hle
  rw [open_iff, open_iff]
  constructor
  · rintro ⟨hle, hspan, hhidden⟩
    refine ⟨?_, hspan, fun hh => hhidden ?_⟩
    · refine (hsame _ _ hspan.1 hle).resolve_left fun hcontent => ?_
      -- the span would have the content that is never closed
      have hmatch := hspan.2.1
      rw [contentFrom, hcontent, hnone] at hmatch
      cases hmatch
    · obtain ⟨q, name', ⟨hq, hrange⟩, hforeign⟩ := hh
      exact ⟨q, name', ⟨by omega, hrange⟩, hforeign⟩
  · rintro ⟨hle, hspan, hhidden⟩
    refine ⟨by omega, hspan, fun hh => hhidden ?_⟩
    obtain ⟨q, name', ⟨hq, hlt, hrange⟩, hforeign⟩ := hh
    refine ⟨q, name', ⟨?_, hlt, hrange⟩, hforeign⟩
    refine (hsame _ _ hforeign.1 hq).resolve_left fun hcontent => ?_
    simp only [header, List.length_append, List.length_cons, List.length_nil] at hcontent hrange
    omega

theorem open_self (h : IsSpan s f) : Open s f.start f := by
  refine open_iff.2 ⟨Nat.le_refl _, h, ?_⟩
  rintro ⟨p, name, ⟨hle, hlt, -⟩, -⟩
  omega

/-- Going on behind an opening that begins no class passes over nothing. -/
theorem open_iff_of_no_class (h : ∀ name, ¬ HasClass s p name) :
    Open s p f ↔ Open s (p + 1) f :=
  TagStyle.open_succ_iff (read?_drop_eq_none h)

/-- Going on behind a foreign class passes over what it hides. -/
theorem open_iff_of_foreign {k : Nat} (h : IsForeign s p name)
    (hk : p + (header name).length = k + 1) : Open s p f ↔ Open s k f := by
  obtain ⟨rest, hread⟩ := exists_plain_iff.2 ⟨name, rfl, h⟩
  have hlength : p + (opening ++ name ++ ['}']).length = k := by
    simp only [header, List.length_append, List.length_cons, List.length_nil] at hk ⊢
    omega
  rw [← hlength]
  exact TagStyle.open_add_iff nests hread

theorem first_iff_of_span (h : IsSpan s f) : some f = some g ↔ First (Open s f.start) g := by
  have hfirst : First (Open s f.start) f := ⟨open_self h, fun k hk => hk.1⟩
  constructor
  · rintro hfg
    exact Option.some.inj hfg ▸ hfirst
  · intro hg
    have hstart : f.start = g.start := Nat.le_antisymm (hfirst.2 g hg.1) (hg.2 f hfirst.1)
    rw [TagStyle.Reads.unique (reads_iff.2 h) hg.1.2.1 hstart]

/-- **The search gives the first span that is not hidden.** -/
theorem search_eq_some_iff : search s pos = some f ↔ First (Open s pos) f := by
  fun_induction search s pos with
  | case1 pos hstart =>
    exact iff_of_false (by simp) fun h => not_open_of_find?_eq_none hstart h.1
  | case2 pos start hstart hend ih =>
    rw [ih]
    refine TagPlace.first_congr fun g => ((open_iff_of_find? hstart).trans ?_).symm
    refine open_iff_of_no_class fun name hclass => ?_
    rw [hclass.find?_eq.1] at hend
    cases hend
  | case3 pos start hstart classEnd hend harg hafter ih =>
    rw [ih]
    refine TagPlace.first_congr fun g => ((open_iff_of_find? hstart).trans ?_).symm
    obtain ⟨hclass, hlength⟩ := hasClass_of_find? (Text.prefix_of_find? hstart) hend harg
    exact open_iff_of_foreign ⟨hclass, Text.after?_eq_none_iff.1 hafter⟩ hlength
  | case4 pos start hstart classEnd hend harg term hafter hmatch ih =>
    rw [ih]
    refine TagPlace.first_congr fun g => ((open_iff_of_find? hstart).trans ?_).symm
    obtain ⟨hclass, hlength⟩ := hasClass_of_find? (Text.prefix_of_find? hstart) hend harg
    exact open_iff_of_unmatched hclass hlength.symm hmatch
  | case5 pos start hstart classEnd hend harg term hafter stop hmatch =>
    obtain ⟨hclass, hlength⟩ := hasClass_of_find? (Text.prefix_of_find? hstart) hend harg
    rw [Text.after?_eq_some_iff.1 hafter] at hclass hlength
    have hspan : IsSpan s ⟨start, stop, term, s.extract (classEnd + 2) (stop - 1)⟩ := by
      have hcontent : contentFrom ⟨start, stop, term, s.extract (classEnd + 2) (stop - 1)⟩ =
          classEnd + 2 := hlength
      exact ⟨hclass, by rw [hcontent, hmatch], by rw [hcontent]⟩
    exact (first_iff_of_span hspan).trans
      (TagPlace.first_congr fun g => (open_iff_of_find? hstart).symm)
  | case6 pos start hstart classEnd hend harg ih =>
    rw [ih]
    refine TagPlace.first_congr fun g => ((open_iff_of_find? hstart).trans ?_).symm
    refine open_iff_of_no_class fun name hclass => ?_
    obtain ⟨hfind, hbrace⟩ := hclass.find?_eq
    rw [hfind] at hend
    exact harg (Option.some.inj hend ▸ hbrace)

theorem search_eq_none_iff : search s pos = none ↔ ∀ f, ¬ Open s pos f := by
  constructor
  · intro h f hf
    obtain ⟨g, hg⟩ := TagPlace.exists_first hf
    rw [search_eq_some_iff.2 hg] at h
    cases h
  · intro h
    rw [Option.eq_none_iff_forall_ne_some]
    intro f hf
    exact h f (search_eq_some_iff.1 hf).1

/-! ### The spans found one behind the other -/

/-- The spans found from a position on, each behind the one before it. -/
def found (s : Text) (pos : Nat) : List TagPlace :=
  match _h : search s pos with
  | none => []
  | some f => f :: found s f.stop
termination_by s.length - pos
decreasing_by
  obtain ⟨⟨hpos, hreads, -⟩, -⟩ := search_eq_some_iff.1 _h
  have hstop := hreads.start_lt_stop
  have hlength := hreads.stop_le_length
  omega

theorem leftmost_found (s : Text) (pos : Nat) : Leftmost (Open s) pos (found s pos) := by
  fun_induction found s pos with
  | case1 pos h => exact search_eq_none_iff.1 h
  | case2 pos f h ih => exact ⟨search_eq_some_iff.1 h, ih⟩

/-- **The places of the spans are found one behind the other.** -/
theorem places_eq_found (s : Text) : TagStyle.equationSpan.places s = found s 0 :=
  Leftmost.unique (fun hf hg => TagStyle.Reads.unique hf.2.1 hg.2.1)
    (TagStyle.leftmost_places nests s) (leftmost_found s 0)

/-- A span ends in a closing brace. -/
theorem IsSpan.closing (h : IsSpan s f) : s[f.stop - 1]? = some '}' := by
  obtain ⟨hread, hstop⟩ := reads_iff.2 h
  have hs := (TagStyle.equationSpan.eq_of_read? hread).1
  have hwrite : write f.term f.content =
      header (classStart ++ f.term) ++ f.content ++ ['}'] := by
    simp [write_eq_header]
  have hlast : f.stop - 1 = f.start + (header (classStart ++ f.term) ++ f.content).length := by
    change f.stop = f.start + (write f.term f.content).length at hstop
    rw [hstop, hwrite]
    simp
    omega
  change s.drop f.start = write f.term f.content ++ s.drop f.stop at hs
  rw [hlast, ← List.getElem?_drop, hs, hwrite]
  simp

/-- A span hides nothing that begins behind it, and no foreign class that
begins before its end does. -/
theorem open_iff_of_behind (hg : Open s pos g) (h : g.stop ≤ f.start) :
    Open s g.stop f ↔ Open s pos f := by
  rw [open_iff, open_iff]
  obtain ⟨hpos, hspan, -⟩ := open_iff.1 hg
  have hlt := (reads_iff.2 hspan).start_lt_stop
  constructor
  · rintro ⟨-, hf, hhidden⟩
    refine ⟨by omega, hf, fun hh => hhidden ?_⟩
    obtain ⟨p, name, ⟨hp, hrange, hend⟩, hforeign⟩ := hh
    refine ⟨p, name, ⟨?_, hrange, hend⟩, hforeign⟩
    -- the brace that ends the span would be in the name
    by_contra hbefore
    have hend' : f.start < p + (opening ++ name).length + 1 := by
      simpa [Nat.add_assoc] using hend
    have hbrace := (hforeign.1.brace_iff (i := g.stop - 1) (by omega) (by omega)).1 hspan.closing
    omega
  · rintro ⟨-, hf, hhidden⟩
    refine ⟨h, hf, fun hh => hhidden ?_⟩
    obtain ⟨p, name, ⟨hp, hrange⟩, hforeign⟩ := hh
    exact ⟨p, name, ⟨by omega, hrange⟩, hforeign⟩

theorem mem_found_iff :
    f ∈ found s pos ↔ Open s pos f ∧ TagPlace.Outside (found s pos) f :=
  (leftmost_found s pos).mem_iff (fun h => h.1) (fun h => h.2.1.start_lt_stop)
    (fun hf hg => TagStyle.Reads.unique hf.2.1 hg.2.1) open_iff_of_behind

/-! ### What the search finds, and what it does not -/

/-- **The search finds the first span unless that one is hidden.**  The span
that is found is the first one that is not hidden, and none is found exactly
if all are hidden; so the first span of all is found exactly if it is not
hidden.  The tagged runs of a text are the spans found one behind the other,
and these are the spans outside of earlier ones that are not hidden; so they
are all the spans outside of earlier ones exactly if none of them is
hidden. -/
theorem search_finds_first_unless_hidden (s : Text) :
    (∀ pos,
      (∀ f, search s pos = some f ↔
        First (fun g => pos ≤ g.start ∧ IsSpan s g ∧ ¬ Hidden s pos g.start) f) ∧
      (search s pos = none ↔ ∀ f, pos ≤ f.start → IsSpan s f → Hidden s pos f.start) ∧
      ((∀ f, search s pos = some f ↔ First (fun g => pos ≤ g.start ∧ IsSpan s g) f) ↔
        ∀ f, First (fun g => pos ≤ g.start ∧ IsSpan s g) f → ¬ Hidden s pos f.start)) ∧
    TagStyle.equationSpan.runs s = cutFrom s 0 (found s 0) ∧
    (∀ f, f ∈ found s 0 ↔
      IsSpan s f ∧ TagPlace.Outside (found s 0) f ∧ ¬ Hidden s 0 f.start) ∧
    ((∀ f, f ∈ found s 0 ↔ IsSpan s f ∧ TagPlace.Outside (found s 0) f) ↔
      ∀ f, IsSpan s f → TagPlace.Outside (found s 0) f → ¬ Hidden s 0 f.start) := by
  have hsome : ∀ pos f, search s pos = some f ↔
      First (fun g => pos ≤ g.start ∧ IsSpan s g ∧ ¬ Hidden s pos g.start) f :=
    fun pos f => search_eq_some_iff.trans (TagPlace.first_congr fun g => open_iff)
  have hmem : ∀ f, f ∈ found s 0 ↔
      IsSpan s f ∧ TagPlace.Outside (found s 0) f ∧ ¬ Hidden s 0 f.start := by
    intro f
    rw [mem_found_iff, open_iff]
    have := Nat.zero_le f.start
    tauto
  refine ⟨fun pos => ⟨hsome pos, ?_, fun h f hf => ?_, fun h f => ?_⟩, ?_, hmem, fun h f => ?_,
    fun h f => ?_⟩
  · rw [search_eq_none_iff]
    refine forall_congr' fun f => ?_
    rw [open_iff]
    tauto
  · exact ((hsome pos f).1 ((h f).2 hf)).1.2.2
  · rw [hsome]
    constructor
    · rintro ⟨⟨hpos, hspan, hhidden⟩, hfirst⟩
      refine ⟨⟨hpos, hspan⟩, fun g hg => ?_⟩
      -- the first span of all is not hidden, and so the one that is found
      obtain ⟨k, hk⟩ := TagPlace.exists_first (P := fun g => pos ≤ g.start ∧ IsSpan s g) hg
      have := hfirst k ⟨hk.1.1, hk.1.2, h k hk⟩
      exact this.trans (hk.2 g hg)
    · intro hf
      exact ⟨⟨hf.1.1, hf.1.2, h f hf⟩, fun g hg => hf.2 g ⟨hg.1, hg.2.1⟩⟩
  · rw [← places_eq_found]
    exact TagStyle.runs_eq_cut _ s
  · intro hspan hout
    exact ((hmem f).1 ((h f).2 ⟨hspan, hout⟩)).2.2
  · rw [hmem]
    exact ⟨fun hf => ⟨hf.1, hf.2.1⟩, fun hf => ⟨hf.1, hf.2, h f hf.1 hf.2⟩⟩

/-- A span that begins in the name of a foreign class is not found, though
nothing is found before it. -/
theorem foreign_name_hides_span :
    let s := opening ++ write ['a'] ['x']
    let f : TagPlace := ⟨11, 32, ['a'], ['x']⟩
    IsSpan s f ∧ TagPlace.Outside (found s 0) f ∧ search s 0 = none ∧ found s 0 = [] ∧
      TagStyle.equationSpan.runs s = [.plain s] := by
  intro s f
  have hspan : IsSpan s f := by decide
  have hnone : search s 0 = none := by decide +kernel
  have hfound : found s 0 = [] := by
    rw [found]
    split
    · rfl
    · next h => cases hnone.symm.trans h
  have hruns : TagStyle.equationSpan.runs s = [.plain s] := by
    rw [TagStyle.runs_eq_cut, places_eq_found, hfound]
    rfl
  exact ⟨hspan, by rw [hfound]; decide, hnone, hfound, hruns⟩

end EquationSpan

end AnnotatedEquation
