/-
AnnotatedEquation/Proofs/Formula/Outcome.lean

How reading a formula can end, for any source.

* A reading `Ends s P` if it gives something that is `P`, or refuses an odd
  digit of the text `s`;
* a formula is `Legible` if its numbers are made of digits, its commands of
  letters and so on: what the reader takes for granted of its nodes.

Main statements: a source gives a legible formula or holds an odd digit
(`ends_read`), and what an argument leaves behind it is an end of its text
(`ends_reader`).
-/
import AnnotatedEquation.Proofs.Formula.Places
import Mathlib.Data.List.TakeWhile

namespace AnnotatedEquation.Formula

variable {α β : Type} {s t rest : Text} {c : Char} {P Q : α → Prop}

/-! ### Outcomes -/

/-- The reading gives something that is `P`, or refuses an odd digit of `s`. -/
def Ends (s : Text) (P : α → Prop) : Except Char α → Prop
  | .ok value => P value
  | .error c => c ∈ s ∧ Text.isOddDigit c

theorem Ends.mono {x : Except Char α} (h : Ends s P x) (hs : s ⊆ t) (hP : ∀ v, P v → Q v) :
    Ends t Q x := by
  cases x with
  | ok value => exact hP value h
  | error c => exact ⟨hs h.1, h.2⟩

theorem Ends.bind {x : Except Char α} {f : α → Except Char β} {Q : β → Prop} (h : Ends s P x)
    (hs : s ⊆ t) (hf : ∀ v, P v → Ends t Q (f v)) : Ends t Q (x >>= f) := by
  cases x with
  | ok value => exact hf value h
  | error c => exact ⟨hs h.1, h.2⟩

/-! ### Legible formulas -/

/-- The node is made of what the reader makes such nodes of. -/
def Node.IsLegible : Node → Prop
  | .char c => c ≠ '\\'
  | .number digits => ∀ c ∈ digits, Text.isDecimal c ∨ c = '.'
  | .script mark _ => mark = '^' ∨ mark = '_'
  | .apply command _ | .named command => ∀ c ∈ command, isLetter c
  | _ => True

/-- All nodes of the formula are legible. -/
def Legible (f : Formula) : Prop := ∀ p ∈ places f, p.node.IsLegible

theorem legible_nil : Legible [] := by simp [Legible, places]

theorem legible_cons {node : Node} {f : Formula} :
    Legible (node :: f) ↔
      node.IsLegible ∧ (∀ a ∈ node.arguments, Legible a) ∧ Legible f :=
  forall_mem_places_cons

theorem legible_singleton {node : Node} :
    Legible [node] ↔ node.IsLegible ∧ ∀ a ∈ node.arguments, Legible a := by
  simp [legible_cons, legible_nil]

/-! ### Parts of commands -/

theorem suffix_of_first? {first : First s.length} (h : first? s = some first) :
    first.char :: first.rest <:+ s := by
  unfold first? at h
  split at h
  · next c t hs =>
    obtain rfl := Option.some.inj h
    exact hs ▸ List.dropWhile_suffix _
  · cases h

theorem eq_of_content? {d : Delimiters} {e : Enclosed s.length} (h : content? d s = some e) :
    s = e.inside ++ d.closing :: e.rest := by
  unfold content? at h
  split at h
  · next inside rest hs =>
    obtain rfl := Option.some.inj h
    exact Delimiters.eq_of_content? hs
  · cases h

/-- A level in front of a text, blanks aside. -/
theorem suffix_of_enclosed? {d : Delimiters} {e : Enclosed s.length} (h : enclosed? d s = some e) :
    d.opening :: (e.inside ++ d.closing :: e.rest) <:+ s := by
  rw [enclosed?, Option.bind_eq_bind, Option.bind_eq_some_iff] at h
  obtain ⟨⟨c, t, ht⟩, hfirst, h⟩ := h
  simp only at h
  split at h
  · next hc =>
    rw [Option.bind_eq_bind, Option.bind_eq_some_iff] at h
    obtain ⟨e', hcontent, h⟩ := h
    obtain rfl := Option.some.inj h
    have hsuffix : c :: t <:+ s := suffix_of_first? hfirst
    rwa [hc, eq_of_content? hcontent] at hsuffix
  · cases h

theorem subset_of_enclosed? {d : Delimiters} {e : Enclosed s.length} (h : enclosed? d s = some e) :
    e.inside ⊆ s ∧ e.rest <:+ s := by
  have hsuffix := suffix_of_enclosed? h
  refine ⟨fun x hx => hsuffix.subset (by simp [hx]), List.IsSuffix.trans ?_ hsuffix⟩
  exact ⟨d.opening :: (e.inside ++ [d.closing]), by simp⟩

theorem rest_suffix_rawGroup (s : Text) : (rawGroup s).rest <:+ s := by
  unfold rawGroup
  split
  · next inside rest _ _ h => exact (subset_of_enclosed? h).2
  · exact List.suffix_refl _

theorem rest_suffix_afterLayout (swallowsDot : Bool) (s : Text) :
    (afterLayout swallowsDot s).rest <:+ s := by
  unfold afterLayout
  split
  · next t _ h =>
    split
    · exact (List.suffix_cons _ _).trans (suffix_of_first? h)
    · exact List.suffix_refl _
  · exact List.suffix_refl _

theorem rest_suffix_symbolCommand (s : Text) : (symbolCommand s).rest <:+ s := by
  cases s with
  | nil => exact List.suffix_refl _
  | cons c s => exact List.suffix_cons _ _

theorem commandName_spec (s : Text) :
    (commandName s).rest <:+ s ∧ ∀ c ∈ (commandName s).value, isLetter c := by
  have hdrop : s.dropWhile isLetter <:+ s := List.dropWhile_suffix _
  unfold commandName
  split
  · next t h =>
    exact ⟨(List.suffix_cons '*' t).trans (h ▸ hdrop), fun c => List.mem_takeWhile_imp⟩
  · exact ⟨hdrop, fun c => List.mem_takeWhile_imp⟩

theorem number_spec (s : Text) :
    (number s).rest <:+ s ∧ ∀ c ∈ (number s).value, Text.isDecimal c ∨ c = '.' := by
  have hdrop : s.dropWhile Text.isDecimal <:+ s := List.dropWhile_suffix _
  unfold number
  split
  · next t h =>
    split
    · exact ⟨hdrop, fun c hc => .inl (List.mem_takeWhile_imp hc)⟩
    · refine ⟨(List.dropWhile_suffix _).trans ((List.suffix_cons '.' t).trans (h ▸ hdrop)), ?_⟩
      intro c hc
      rcases List.mem_append.1 hc with hc | hc
      · exact .inl (List.mem_takeWhile_imp hc)
      · rcases List.mem_cons.1 hc with rfl | hc
        · exact .inr rfl
        · exact .inl (List.mem_takeWhile_imp hc)
  · exact ⟨hdrop, fun c hc => .inl (List.mem_takeWhile_imp hc)⟩

theorem ends_leaf (hc : c ≠ '\\') : Ends [c] (fun node => Legible [node]) (leaf c) := by
  unfold leaf
  split
  · next h => exact legible_singleton.2 ⟨h, by simp [Node.arguments, legible_nil]⟩
  · split
    · exact legible_singleton.2 ⟨trivial, by simp [Node.arguments]⟩
    · split
      · next h =>
        exact legible_singleton.2 ⟨by simp [Node.IsLegible, h], by simp [Node.arguments]⟩
      · split
        · next h => exact ⟨by simp, h⟩
        · exact legible_singleton.2 ⟨hc, by simp [Node.arguments]⟩

/-! ### The reader -/

/-- A front that leaves a part of `s` behind it, with a legible node. -/
def IsNode (s : Text) {n : Nat} (front : Front Node n) : Prop :=
  front.rest <:+ s ∧ Legible [front.value]

/-- A front that leaves a part of `s` behind it, with a legible formula. -/
def IsArgument (s : Text) {n : Nat} (front : Front Formula n) : Prop :=
  front.rest <:+ s ∧ Legible front.value

theorem IsNode.of {n : Nat} {front : Front Node n} (hrest : front.rest <:+ s)
    (hnode : front.value.IsLegible) (hargs : ∀ a ∈ front.value.arguments, Legible a) :
    IsNode s front :=
  ⟨hrest, legible_singleton.2 ⟨hnode, hargs⟩⟩

theorem isNode_symbolCommand (s : Text) : IsNode s (symbolCommand s) := by
  refine .of (rest_suffix_symbolCommand s) ?_ ?_ <;> cases s <;> simp [symbolCommand, Front.of,
    Front.inside, Front.within, Node.IsLegible, Node.arguments]

/-- An argument that a node is built from. -/
theorem ends_build (hargument : Ends t (IsArgument t) (argument t)) (ht : t <:+ s)
    (build : Formula → Node) (hbuild : ∀ f, (build f).IsLegible)
    (hargs : ∀ f, (build f).arguments = [f]) {n : Nat}
    (within : ∀ u : Text, u.length ≤ t.length → u.length ≤ n) :
    Ends s (IsNode s) (do
      let ⟨f, u, h⟩ ← argument t
      return (⟨build f, u, within u h⟩ : Front Node n)) := by
  refine hargument.bind ht.subset ?_
  rintro ⟨f, u, h⟩ hf
  exact .of (hf.1.trans ht) (hbuild f) (by simpa [hargs] using hf.2)

theorem ends_command_of (hread : ∀ t, t.length ≤ s.length → Ends t Legible (read t))
    (hargument : ∀ t, t.length ≤ s.length → Ends t (IsArgument t) (argument t)) :
    Ends s (IsNode s) (command s) := by
  rw [command]
  have hspec := commandName_spec s
  generalize commandName s = front at hspec ⊢
  obtain ⟨name, rest, hle⟩ := front
  obtain ⟨hrest, hname⟩ := hspec
  simp only at hrest hname ⊢
  split
  · exact isNode_symbolCommand s
  cases hclass : CommandClass.of name with
  | layout swallowsDot =>
    exact .of ((rest_suffix_afterLayout _ _).trans hrest) trivial
      (by simp [Node.arguments, Front.within])
  | fraction =>
    refine (hargument rest hle).bind hrest.subset ?_
    rintro ⟨top, rest₁, h₁⟩ htop
    refine (hargument rest₁ (h₁.trans hle)).bind (htop.1.trans hrest).subset ?_
    rintro ⟨bottom, rest₂, h₂⟩ hbottom
    exact .of (hbottom.1.trans (htop.1.trans hrest)) trivial
      (by simpa [Node.arguments, Front.within] using ⟨htop.2, hbottom.2⟩)
  | binomial =>
    refine (hargument rest hle).bind hrest.subset ?_
    rintro ⟨top, rest₁, h₁⟩ htop
    refine (hargument rest₁ (h₁.trans hle)).bind (htop.1.trans hrest).subset ?_
    rintro ⟨bottom, rest₂, h₂⟩ hbottom
    exact .of (hbottom.1.trans (htop.1.trans hrest)) trivial
      (by simpa [Node.arguments, Front.within] using ⟨htop.2, hbottom.2⟩)
  | root =>
    simp only
    split
    · next degree rest₁ hlt h₁ h =>
      obtain ⟨hinside, hrest₁⟩ := subset_of_enclosed? h
      refine (hargument rest₁ (h₁.trans hle)).bind (hrest₁.trans hrest).subset ?_
      rintro ⟨radicand, rest₂, h₂⟩ hradicand
      refine (hread degree (Nat.le_of_lt (Nat.lt_of_lt_of_le hlt hle))).bind
        (List.Subset.trans hinside hrest.subset) fun f hf => ?_
      exact .of (hradicand.1.trans (hrest₁.trans hrest)) trivial
        (by simpa [Node.arguments, Front.within] using ⟨hf, hradicand.2⟩)
    · exact ends_build (hargument rest hle) hrest .sqrt (fun _ => trivial) (fun _ => rfl)
        fun u h => h.trans hle
  | text =>
    exact .of ((rest_suffix_rawGroup rest).trans hrest) trivial
      (by simp [Node.arguments, Front.within])
  | operator =>
    exact .of ((rest_suffix_rawGroup rest).trans hrest) trivial
      (by simp [Node.arguments, Front.within])
  | textColor =>
    have hraw := rest_suffix_rawGroup rest
    generalize rawGroup rest = front at hraw ⊢
    obtain ⟨color, rest₁, h₁⟩ := front
    exact ends_build (hargument rest₁ (h₁.trans hle)) (hraw.trans hrest) (.colored color)
      (fun _ => trivial) (fun _ => rfl) fun u h => h.trans (h₁.trans hle)
  | restColor =>
    have hraw := rest_suffix_rawGroup rest
    generalize rawGroup rest = front at hraw ⊢
    obtain ⟨color, rest₁, h₁⟩ := front
    refine (hread rest₁ (h₁.trans hle)).bind (hraw.trans hrest).subset fun f hf => ?_
    exact .of (List.nil_suffix) trivial (by simpa [Node.arguments, Front.last] using hf)
  | htmlClass =>
    have hraw := rest_suffix_rawGroup rest
    generalize rawGroup rest = front at hraw ⊢
    obtain ⟨color, rest₁, h₁⟩ := front
    exact ends_build (hargument rest₁ (h₁.trans hle)) (hraw.trans hrest) .classed
      (fun _ => trivial) (fun _ => rfl) fun u h => h.trans (h₁.trans hle)
  | function =>
    exact ends_build (hargument rest hle) hrest (.apply name) (fun _ => hname) (fun _ => rfl)
      fun u h => h.trans hle
  | symbol => exact .of hrest hname (by simp [Node.arguments])

theorem ends_step_of (hread : ∀ t, t.length ≤ s.length → Ends t Legible (read t))
    (hargument : ∀ t, t.length ≤ s.length → Ends t (IsArgument t) (argument t)) (c : Char) :
    Ends (c :: s) (IsNode s) (step c s) := by
  have hs : s ⊆ c :: s := List.subset_cons_self c s
  rw [step]
  by_cases hbackslash : c = '\\'
  · rw [if_pos hbackslash]
    exact (ends_command_of hread hargument).mono hs fun _ h => h
  rw [if_neg hbackslash]
  split
  · split
    · next inside rest hlt hle h =>
      have hinside : inside ⊆ s := by rw [eq_of_content? h]; simp
      have hrest : rest <:+ s :=
        ⟨inside ++ [Delimiters.braces.closing], by simpa using (eq_of_content? h).symm⟩
      refine (hread inside (Nat.le_of_lt hlt)).bind (List.Subset.trans hinside hs) fun f hf => ?_
      exact .of hrest trivial (by simpa [Node.arguments] using hf)
    · exact .of (List.suffix_refl s) hbackslash (by simp [Front.of, Node.arguments])
  split
  · next hmark =>
    refine (hargument s le_rfl).bind hs ?_
    rintro ⟨f, rest, h⟩ hf
    exact .of hf.1 hmark (by simpa [Node.arguments] using hf.2)
  split
  · next hdecimal =>
    have hspec := number_spec s
    generalize number s = front at hspec ⊢
    obtain ⟨digits, rest, h⟩ := front
    obtain ⟨hrest, hdigits⟩ := hspec
    refine .of hrest ?_ (by simp [Node.arguments])
    simpa [Node.IsLegible, hdecimal] using hdigits
  · refine (ends_leaf hbackslash).bind (by simp) fun node hnode => ?_
    exact ⟨List.suffix_refl s, hnode⟩

theorem ends_argument_of (hread : ∀ t, t.length < s.length → Ends t Legible (read t))
    (hcommand : ∀ t, t.length < s.length → Ends t (IsNode t) (command t)) :
    Ends s (IsArgument s) (argument s) := by
  rw [argument]
  split
  · next inside rest hlt hle h =>
    obtain ⟨hinside, hrest⟩ := subset_of_enclosed? h
    exact (hread inside hlt).bind hinside fun f hf => ⟨hrest, hf⟩
  · split
    · exact ⟨List.nil_suffix, legible_nil⟩
    · next c t hlt h =>
      have hfirst : c :: t <:+ s := suffix_of_first? h
      have ht : t <:+ s := (List.suffix_cons c t).trans hfirst
      split
      · refine (hcommand t hlt).bind ht.subset ?_
        rintro ⟨node, rest, h₁⟩ hnode
        exact ⟨hnode.1.trans ht, hnode.2⟩
      · next hc =>
        have hc' : [c] ⊆ s := by simpa using hfirst.subset (List.mem_cons_self)
        exact (ends_leaf hc).bind hc' fun node hnode => ⟨ht, hnode⟩

theorem ends_reader (s : Text) :
    Ends s Legible (read s) ∧ Ends s (IsArgument s) (argument s) := by
  have hread : ∀ t, t.length < s.length → Ends t Legible (read t) :=
    fun t _ => (ends_reader t).1
  have hargument : ∀ t, t.length < s.length → Ends t (IsArgument t) (argument t) :=
    fun t _ => (ends_reader t).2
  have hcommand : ∀ t, t.length < s.length → Ends t (IsNode t) (command t) := fun t ht =>
    ends_command_of (fun u hu => hread u (Nat.lt_of_le_of_lt hu ht))
      fun u hu => hargument u (Nat.lt_of_le_of_lt hu ht)
  refine ⟨?_, ends_argument_of hread hcommand⟩
  rw [read.eq_def]
  split
  · exact legible_nil
  · next c s =>
    have hs : s ⊆ c :: s := List.subset_cons_self c s
    split
    · exact (hread s (by simp)).mono hs fun _ h => h
    · have hstep : Ends (c :: s) (IsNode s) (step c s) := ends_step_of
        (fun t ht => hread t (by simpa using Nat.lt_succ_of_le ht))
        (fun t ht => hargument t (by simpa using Nat.lt_succ_of_le ht)) c
      refine hstep.bind (List.Subset.refl _) ?_
      rintro ⟨node, rest, hle⟩ hnode
      refine (hread rest (by simpa using Nat.lt_succ_of_le hle)).bind
        (List.Subset.trans hnode.1.subset hs) fun f hf => ?_
      obtain ⟨hlegible, hargs⟩ := legible_singleton.1 hnode.2
      exact legible_cons.2 ⟨hlegible, hargs, hf⟩
termination_by s.length

/-- **A source gives a legible formula, or an odd digit of it is refused.** -/
theorem ends_read (s : Text) : Ends s Legible (read s) := (ends_reader s).1

theorem legible_of_read {f : Formula} (h : read s = .ok f) : Legible f := by
  have := ends_read s
  rwa [h] at this

/-- A property of the formula that a source gives, found by evaluation. -/
theorem exists_read_of {P : Formula → Prop} [DecidablePred P]
    (h : (read s).toOption.any (fun f => P f)) : ∃ f, read s = .ok f ∧ P f := by
  rcases hread : read s with c | f
  · simp [hread, Except.toOption] at h
  · exact ⟨f, rfl, by simpa [hread, Except.toOption] using h⟩

theorem convert_of_read {f : Formula} (h : read s = .ok f) : convert s = .ok (toTypst f) := by
  rw [convert, h]
  rfl

theorem exists_read_of_convert {out : Text} (h : convert s = .ok out) :
    ∃ f, read s = .ok f ∧ out = toTypst f := by
  rcases hread : read s with c | f
  · rw [convert, hread] at h
    cases h
  · rw [convert_of_read hread] at h
    exact ⟨f, rfl, (Except.ok.inj h).symm⟩

/-- A result of the conversion, found by evaluation. -/
theorem convert_eq_of {out : Text} (h : (convert s).toOption = some out) :
    convert s = .ok out := by
  rcases hconvert : convert s with c | t
  · simp [hconvert, Except.toOption] at h
  · rw [hconvert] at h
    exact congrArg Except.ok (Option.some.inj h)

end AnnotatedEquation.Formula
