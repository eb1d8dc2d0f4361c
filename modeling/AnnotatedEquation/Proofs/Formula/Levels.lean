/-
AnnotatedEquation/Proofs/Formula/Levels.lean

The parentheses and blocks that are open while math in Typst notation is read,
and what stands outside of all of them.

* `Lexical.levelAfter?` are the levels that are open behind some tokens, and
  `Lexical.exposed` counts how often a character stands outside of all levels;
* `Formula.punctuation` are the parentheses and commas that a formula has
  itself, where those commas are left out that stand between delimiters which
  are written around an argument;
* a formula is `Orderly` if its parentheses are balanced and nothing in it takes
  away a delimiter that is written around it.

Main statement: the marks of an orderly formula go through the levels that its
punctuation goes through (`follows_skeleton`), so that it reads as balanced,
with the same commas outside (`Orderly.reads`).
-/
import AnnotatedEquation.Proofs.Formula.Skeleton

namespace AnnotatedEquation

namespace Lexical

/-! ### Levels -/

/-- What is open. -/
inductive Opened where
  | paren
  | block
  deriving DecidableEq, Repr

/-- What is open, from the inside outwards. -/
abbrev Level := List Opened

/-- Closes the innermost level, which has to be an `o`. -/
def Level.close? (o : Opened) : Level → Option Level
  | [] => none
  | p :: l => if p = o then some l else none

/-- What is open behind a token.  There is no answer for a delimiter that closes
nothing. -/
def Level.read? (l : Level) : MathToken → Option Level
  | .char c =>
    if c = '(' then some (.paren :: l) else if c = ')' then l.close? .paren else some l
  | .opening => some (.block :: l)
  | .closing => l.close? .block
  | .stray => none
  | .literal | .quoted => some l

/-- What is open behind some tokens. -/
def levelAfter? (l : Level) : List MathToken → Option Level
  | [] => some l
  | t :: ts => (l.read? t).bind fun l => levelAfter? l ts

/-- How often a character stands where nothing is open. -/
def exposed (c : Char) (l : Level) : List MathToken → Nat
  | [] => 0
  | t :: ts =>
    (if l = [] ∧ t = .char c then 1 else 0) + ((l.read? t).map fun l => exposed c l ts).getD 0

/-- All that the tokens open is closed, and nothing else. -/
def IsBalanced (ts : List MathToken) : Prop := levelAfter? [] ts = some []

instance : DecidablePred IsBalanced := fun _ => inferInstanceAs (Decidable (_ = _))

variable {l l' base : Level} {t : MathToken} {ts us vs ws : List MathToken} {c : Char}

theorem levelAfter?_append (l : Level) (ts us : List MathToken) :
    levelAfter? l (ts ++ us) = (levelAfter? l ts).bind fun l => levelAfter? l us := by
  induction ts generalizing l with
  | nil => rfl
  | cons t ts ih =>
    rw [List.cons_append, levelAfter?, levelAfter?, Option.bind_assoc]
    exact congrArg _ (funext ih)

theorem exposed_append (h : levelAfter? l ts = some l') (us : List MathToken) :
    exposed c l (ts ++ us) = exposed c l ts + exposed c l' us := by
  induction ts generalizing l with
  | nil =>
    obtain rfl : l = l' := Option.some.inj h
    simp [exposed]
  | cons t ts ih =>
    obtain ⟨m, hm, h⟩ := Option.bind_eq_some_iff.1 h
    simp only [List.cons_append, exposed, hm, Option.map_some, Option.getD_some, ih h]
    omega

/-- One more token behind others. -/
theorem exposed_cons (h : l.read? t = some l') (ht : t ≠ .char c) (ts : List MathToken) :
    exposed c l (t :: ts) = exposed c l' ts := by
  simp [exposed, h, ht]

theorem levelAfter?_cons (h : l.read? t = some l') (ts : List MathToken) :
    levelAfter? l (t :: ts) = levelAfter? l' ts := by
  rw [levelAfter?, h, Option.bind_some]

theorem close?_append {o : Opened} (h : l.close? o = some l') :
    Level.close? o (l ++ base) = some (l' ++ base) := by
  rcases l with - | ⟨p, l⟩
  · cases h
  · simp only [Level.close?] at h ⊢
    split at h
    · next hp =>
      obtain rfl := Option.some.inj h
      simp [hp]
    · cases h

theorem read?_append (h : l.read? t = some l') :
    Level.read? (l ++ base) t = some (l' ++ base) := by
  cases t with
  | char c =>
    simp only [Level.read?] at h ⊢
    split at h
    · next hc =>
      obtain rfl := Option.some.inj h
      simp [hc]
    · next hc =>
      rw [if_neg hc]
      split at h
      · next hd =>
        rw [if_pos hd]
        exact close?_append h
      · next hd =>
        obtain rfl := Option.some.inj h
        rw [if_neg hd]
  | opening =>
    obtain rfl := Option.some.inj h
    rfl
  | closing => exact close?_append h
  | stray => cases h
  | literal =>
    obtain rfl := Option.some.inj h
    rfl
  | quoted =>
    obtain rfl := Option.some.inj h
    rfl

/-- Tokens are read the same way inside of further levels. -/
theorem levelAfter?_inside (h : levelAfter? l ts = some l') (base : Level) :
    levelAfter? (l ++ base) ts = some (l' ++ base) := by
  induction ts generalizing l with
  | nil =>
    obtain rfl := Option.some.inj h
    rfl
  | cons t ts ih =>
    obtain ⟨m, hm, h⟩ := Option.bind_eq_some_iff.1 h
    rw [levelAfter?_cons (read?_append hm)]
    exact ih h

/-- Inside of further levels, nothing is exposed. -/
theorem exposed_inside (h : levelAfter? l ts = some l') (hbase : base ≠ []) :
    exposed c (l ++ base) ts = 0 := by
  induction ts generalizing l with
  | nil => rfl
  | cons t ts ih =>
    obtain ⟨m, hm, h⟩ := Option.bind_eq_some_iff.1 h
    simp [exposed, read?_append hm, ih h, hbase]

theorem IsBalanced.levelAfter? (h : IsBalanced ts) (l : Level) : levelAfter? l ts = some l :=
  levelAfter?_inside h l

theorem IsBalanced.exposed_eq_zero (h : IsBalanced ts) (hl : l ≠ []) : exposed c l ts = 0 :=
  exposed_inside h hl

theorem IsBalanced.append (hts : IsBalanced ts) (hus : IsBalanced us) : IsBalanced (ts ++ us) := by
  rw [IsBalanced, levelAfter?_append, hts.levelAfter?]
  exact hus

/-- Tokens that are no marks leave all levels as they are. -/
theorem read?_of_not_isMark (ht : ¬ t.isMark) (l : Level) : l.read? t = some l := by
  cases t <;> simp_all [MathToken.isMark, Level.read?]

theorem levelAfter?_filter (l : Level) (ts : List MathToken) :
    levelAfter? l (ts.filter MathToken.isMark) = levelAfter? l ts := by
  induction ts generalizing l with
  | nil => rfl
  | cons t ts ih =>
    rw [List.filter_cons]
    split
    · simp only [levelAfter?, ih]
    · next ht => rw [ih, levelAfter?_cons (read?_of_not_isMark ht l)]

theorem exposed_filter (hc : (MathToken.char c).isMark) (l : Level) (ts : List MathToken) :
    exposed c l (ts.filter MathToken.isMark) = exposed c l ts := by
  induction ts generalizing l with
  | nil => rfl
  | cons t ts ih =>
    rw [List.filter_cons]
    split
    · simp only [exposed, ih]
    · next ht =>
      have hne : t ≠ .char c := by rintro rfl; exact ht hc
      rw [ih, exposed_cons (read?_of_not_isMark ht l) hne]

/-! ### Words of parentheses and commas -/

/-- The word without its commas. -/
def withoutCommas (vs : List MathToken) : List MathToken := vs.filter (· ≠ .char ',')

theorem levelAfter?_withoutCommas (l : Level) (vs : List MathToken) :
    levelAfter? l (withoutCommas vs) = levelAfter? l vs := by
  induction vs generalizing l with
  | nil => rfl
  | cons t vs ih =>
    rw [withoutCommas, List.filter_cons]
    split
    · rw [levelAfter?, levelAfter?]
      exact congrArg _ (funext ih)
    · next ht =>
      obtain rfl : t = .char ',' := by simpa using ht
      exact ih l

theorem exposed_withoutCommas (l : Level) (vs : List MathToken) :
    exposed ',' l (withoutCommas vs) = 0 := by
  induction vs generalizing l with
  | nil => rfl
  | cons t vs ih =>
    rw [withoutCommas, List.filter_cons]
    split
    · next ht =>
      have ht : t ≠ .char ',' := by simpa using ht
      rcases h : l.read? t with - | m
      · simp [exposed, h, ht]
      · rw [exposed_cons h ht]
        exact ih m
    · exact ih l

theorem read?_cons_paren (ht : ¬ t.IsDollar) (h : l.read? t = some l') :
    Level.read? (.paren :: l) t = some (.paren :: l') := by
  cases t with
  | char c =>
    simp only [Level.read?] at h ⊢
    split at h
    · next hc => rw [if_pos hc, ← Option.some.inj h]
    · next hc =>
      rw [if_neg hc]
      split at h
      · next hd =>
        -- the parenthesis that is closed stands below the one that is put on top
        rcases l with - | ⟨p, l⟩
        · cases h
        · simp only [Level.close?] at h
          split at h
          · next hp => simp [hd, Level.close?, hp, ← Option.some.inj h]
          · cases h
      · next hd => rw [if_neg hd, ← Option.some.inj h]
  | literal =>
    rw [← Option.some.inj h]
    rfl
  | quoted =>
    rw [← Option.some.inj h]
    rfl
  | opening => exact absurd (by decide) ht
  | closing => exact absurd (by decide) ht
  | stray => exact absurd (by decide) ht

/-- Without blocks, one more open parenthesis stays open. -/
theorem levelAfter?_cons_paren (hvs : ∀ v ∈ vs, ¬ v.IsDollar) (h : levelAfter? l vs = some l') :
    levelAfter? (.paren :: l) vs = some (.paren :: l') ∧ exposed c (.paren :: l) vs = 0 := by
  induction vs generalizing l with
  | nil =>
    obtain rfl := Option.some.inj h
    exact ⟨rfl, rfl⟩
  | cons v vs ih =>
    obtain ⟨m, hm, h⟩ := Option.bind_eq_some_iff.1 h
    obtain ⟨hlevel, hexposed⟩ := ih (fun w hw => hvs w (by simp [hw])) h
    have hread := read?_cons_paren (hvs v (by simp)) hm
    exact ⟨by rw [levelAfter?_cons hread, hlevel], by simp [exposed, hread, hexposed]⟩

/-- The tokens go through the levels that the word `vs` goes through, which has
no blocks, with the same commas outside. -/
structure Follows (ts vs : List MathToken) : Prop where
  no_dollar : ∀ v ∈ vs, ¬ v.IsDollar
  sublist : vs.Sublist ts
  level : ∀ {l l'}, levelAfter? l vs = some l' →
    levelAfter? l ts = some l' ∧ exposed ',' l ts = exposed ',' l vs

theorem follows_nil : Follows [] [] :=
  ⟨by simp, List.Sublist.refl _, fun h => ⟨h, rfl⟩⟩

theorem follows_self (h : ∀ t ∈ ts, ¬ t.IsDollar) : Follows ts ts :=
  ⟨h, List.Sublist.refl _, fun h => ⟨h, rfl⟩⟩

theorem Follows.append (hts : Follows ts vs) (hus : Follows us ws) :
    Follows (ts ++ us) (vs ++ ws) := by
  refine ⟨fun v hv => ?_, hts.sublist.append hus.sublist, fun {l l'} h => ?_⟩
  · exact (List.mem_append.1 hv).elim (hts.no_dollar v) (hus.no_dollar v)
  · rw [levelAfter?_append] at h
    obtain ⟨m, hm, h⟩ := Option.bind_eq_some_iff.1 h
    obtain ⟨htsLevel, htsExposed⟩ := hts.level hm
    obtain ⟨husLevel, husExposed⟩ := hus.level h
    rw [levelAfter?_append, htsLevel, Option.bind_some, exposed_append htsLevel, exposed_append hm,
      htsExposed, husExposed]
    exact ⟨husLevel, rfl⟩

/-- Behind an opened parenthesis, the tokens lead to where the word leads to
outside of it. -/
theorem Follows.inside (hts : Follows ts vs) (h : levelAfter? l vs = some l') :
    levelAfter? (.paren :: l) ts = some (.paren :: l') ∧ exposed ',' (.paren :: l) ts = 0 := by
  obtain ⟨hlevel, hexposed⟩ := levelAfter?_cons_paren hts.no_dollar h
  rw [(hts.level hlevel).2]
  exact ⟨(hts.level hlevel).1, hexposed⟩

theorem Follows.enclose (hts : Follows ts vs) :
    Follows (.char '(' :: (ts ++ [.char ')'])) (withoutCommas vs) := by
  refine ⟨fun v hv => hts.no_dollar v (List.mem_filter.1 hv).1, ?_, fun {l l'} h => ?_⟩
  · exact (List.filter_sublist.trans (hts.sublist.trans (List.sublist_append_left _ _))).cons _
  · rw [levelAfter?_withoutCommas] at h
    obtain ⟨hlevel, hexposed⟩ := hts.inside h
    have hopen : l.read? (.char '(') = some (.paren :: l) := rfl
    rw [levelAfter?_cons hopen, levelAfter?_append, hlevel, exposed_cons hopen (by decide),
      exposed_append hlevel, hexposed, exposed_withoutCommas]
    exact ⟨rfl, rfl⟩

/-- Two words between parentheses, with a comma between them. -/
theorem Follows.enclose_pair (hts : Follows ts vs) (hus : Follows us ws) :
    Follows (.char '(' :: (ts ++ [.char ','] ++ (us ++ [.char ')'])))
      (withoutCommas vs ++ withoutCommas ws) := by
  have hcomma : Follows [.char ','] [.char ','] := follows_self (by decide)
  have hpair := ((hts.append hcomma).append hus).enclose
  have hword : withoutCommas (vs ++ [.char ','] ++ ws) = withoutCommas vs ++ withoutCommas ws := by
    simp [withoutCommas]
  rwa [hword, List.append_assoc _ us] at hpair

/-- A block keeps to itself. -/
theorem Follows.block (hcolor : IsBalanced us) (hts : Follows ts vs) (hvs : IsBalanced vs) :
    Follows (.char '(' :: (us ++ .char ')' :: .opening :: (ts ++ [.closing]))) [] := by
  refine ⟨by simp, List.nil_sublist _, fun {l l'} h => ?_⟩
  obtain rfl := Option.some.inj h
  have hopen : l.read? (.char '(') = some (.paren :: l) := rfl
  have hclose : Level.read? (.paren :: l) (.char ')') = some l := rfl
  have hblock : l.read? .opening = some (.block :: l) := rfl
  obtain ⟨hlevel, hexposed⟩ := hts.level (hvs.levelAfter? (.block :: l))
  rw [levelAfter?_cons hopen, levelAfter?_append, hcolor.levelAfter?, Option.bind_some,
    levelAfter?_cons hclose, levelAfter?_cons hblock, levelAfter?_append, hlevel,
    exposed_cons hopen (by decide), exposed_append (hcolor.levelAfter? _),
    hcolor.exposed_eq_zero (by simp), exposed_cons hclose (by decide),
    exposed_cons hblock (by decide), exposed_append hlevel, hexposed,
    hvs.exposed_eq_zero (by simp)]
  exact ⟨rfl, rfl⟩

end Lexical

open Lexical

namespace Formula

variable {t : Text} {ms vs : List MathToken} {f : Formula} {node : Node} {scripted : Bool}

/-! ### Punctuation -/

mutual

/-- The parentheses and commas of a node; `scripted` tells that a script or a
prime follows. -/
def Node.punctuation (scripted : Bool) : Node → List MathToken
  | .char c => marks (plainChar c)
  | .symbol c => marks (charSymbol c)
  | .group body => if scripted then withoutCommas (punctuation body) else punctuation body
  | .classed body => punctuation body
  | .script _ body | .sqrt body | .apply _ body => withoutCommas (punctuation body)
  | .fraction first second | .binomial first second | .root first second =>
    withoutCommas (punctuation first) ++ withoutCommas (punctuation second)
  | .colored _ _ | .operator _ | .number _ | .prime | .text _ | .named _ | .layout => []

/-- The parentheses and commas of a formula itself. -/
def punctuation : Formula → List MathToken
  | [] => []
  | node :: s => node.punctuation (scriptFollows s) ++ punctuation s

end

/-- The color and the body of a block are balanced, each on its own. -/
def Node.IsBalancedBlock : Node → Prop
  | .colored color body =>
    IsBalanced (marks (colorExpression color)) ∧ IsBalanced (Formula.punctuation body)
  | _ => True

instance : DecidablePred Node.IsBalancedBlock
  | .colored color body =>
    inferInstanceAs
      (Decidable (IsBalanced (marks (colorExpression color)) ∧ IsBalanced (punctuation body)))
  | .char _ | .number _ | .group _ | .script _ _ | .prime | .symbol _ | .fraction _ _
  | .binomial _ _ | .sqrt _ | .root _ _ | .text _ | .operator _ | .classed _ | .apply _ _
  | .named _ | .layout => inferInstanceAs (Decidable True)

/-- Nothing in the arguments of the node takes away a delimiter that is written
around them, and blocks keep to themselves. -/
structure Place.IsOrderly (place : Place) : Prop where
  ends : ∀ a ∈ place.enclosed, ¬ Dangles (toTypst a)
  block : place.node.IsBalancedBlock

instance : DecidablePred Place.IsOrderly := fun place =>
  decidable_of_iff ((∀ a ∈ place.enclosed, ¬ Dangles (toTypst a)) ∧ place.node.IsBalancedBlock)
    ⟨fun h => ⟨h.1, h.2⟩, fun h => ⟨h.ends, h.block⟩⟩

/-- The parentheses of the formula are balanced, and it can stand between
delimiters. -/
structure Orderly (f : Formula) : Prop where
  safe : Safe f
  balanced : IsBalanced (punctuation f)
  ends : ¬ Dangles (toTypst f)
  inside : ∀ p ∈ places f, p.IsOrderly

instance : DecidablePred Orderly := fun f =>
  decidable_of_iff (Safe f ∧ IsBalanced (punctuation f) ∧ ¬ Dangles (toTypst f) ∧
      ∀ p ∈ places f, p.IsOrderly)
    ⟨fun h => ⟨h.1, h.2.1, h.2.2.1, h.2.2.2⟩, fun h => ⟨h.safe, h.balanced, h.ends, h.inside⟩⟩

/-! ### The marks of a node -/

theorem closeBehind_of_not_dangles {c : Char} (ht : ¬ Dangles t) :
    closeBehind t c = [.char c] := if_neg ht

theorem follows_enclosedMarks (ht : ¬ Dangles t) (h : Follows ms vs) :
    Follows (enclosedMarks t ms) (withoutCommas vs) := by
  rw [enclosedMarks, closeBehind_of_not_dangles ht]
  exact h.enclose

theorem follows_operandMarks (ht : ¬ Dangles t) (hwrites : Writes t ms) (h : Follows ms vs) :
    Follows (operandMarks t ms) (withoutCommas vs) := by
  rw [operandMarks]
  split
  · next hoperand =>
    -- a word or a string has no marks
    obtain rfl := marks_of_isOperand hwrites hoperand
    obtain rfl := List.sublist_nil.1 h.sublist
    exact follows_nil
  · exact follows_enclosedMarks ht h

theorem follows_pairMarks {u : Text} {ns ws : List MathToken} (ht : ¬ Dangles t) (hu : ¬ Dangles u)
    (hms : Follows ms vs) (hns : Follows ns ws) :
    Follows (pairMarks t ms u ns) (withoutCommas vs ++ withoutCommas ws) := by
  rw [pairMarks, closeBehind_of_not_dangles ht, closeBehind_of_not_dangles hu]
  exact hms.enclose_pair hns

theorem follows_blockMarks {color : Text} (hcolor : IsBalanced (marks (colorExpression color)))
    (ht : ¬ Dangles t) (h : Follows ms vs) (hvs : IsBalanced vs) :
    Follows (blockMarks color t ms) [] := by
  rw [blockMarks, if_neg ht]
  exact h.block hcolor hvs

/-- The marks of a node follow its punctuation. -/
theorem Node.follows_skeleton (hplace : Place.IsOrderly ⟨node, scripted⟩)
    (hargs : ∀ a ∈ node.arguments, Writes (toTypst a) (Formula.skeleton a) ∧
      Follows (Formula.skeleton a) (Formula.punctuation a)) :
    Follows (node.skeleton scripted) (node.punctuation scripted) := by
  have hends := hplace.ends
  cases node with
  | char c => exact follows_self (no_dollar_plainChar c)
  | symbol c => exact follows_self (no_dollar_charSymbol c)
  | group body =>
    obtain ⟨hwrites, hfollows⟩ := hargs body (by simp [Node.arguments])
    rw [Node.skeleton, Node.punctuation]
    cases scripted with
    | false => simpa using hfollows
    | true =>
      have hbody : ¬ Dangles (toTypst body) := hends body (by simp [Place.enclosed])
      by_cases hempty : toTypst body = []
      · -- nothing is written, and so nothing is enclosed
        have hms : Formula.skeleton body = [] := by rw [← hwrites.marks_eq, hempty]; rfl
        have hvs : Formula.punctuation body = [] := List.sublist_nil.1 (hms ▸ hfollows.sublist)
        simpa [hempty, hms, hvs, withoutCommas] using follows_nil
      · simpa [hempty] using follows_operandMarks hbody hwrites hfollows
  | classed body => exact (hargs body (by simp [Node.arguments])).2
  | script mark argument =>
    obtain ⟨hwrites, hfollows⟩ := hargs argument (by simp [Node.arguments])
    exact follows_operandMarks (hends argument (by simp [Place.enclosed, Node.arguments])) hwrites
      hfollows
  | fraction numerator denominator =>
    obtain ⟨hnumerator, hfollows⟩ := hargs numerator (by simp [Node.arguments])
    obtain ⟨hdenominator, hfollows'⟩ := hargs denominator (by simp [Node.arguments])
    refine (follows_operandMarks ?_ hnumerator hfollows).append
      (follows_operandMarks ?_ hdenominator hfollows')
    · exact hends numerator (by simp [Place.enclosed, Node.arguments])
    · exact hends denominator (by simp [Place.enclosed, Node.arguments])
  | binomial top bottom =>
    refine follows_pairMarks ?_ ?_ (hargs top (by simp [Node.arguments])).2
      (hargs bottom (by simp [Node.arguments])).2
    · exact hends top (by simp [Place.enclosed, Node.arguments])
    · exact hends bottom (by simp [Place.enclosed, Node.arguments])
  | root degree radicand =>
    refine follows_pairMarks ?_ ?_ (hargs degree (by simp [Node.arguments])).2
      (hargs radicand (by simp [Node.arguments])).2
    · exact hends degree (by simp [Place.enclosed, Node.arguments])
    · exact hends radicand (by simp [Place.enclosed, Node.arguments])
  | sqrt radicand =>
    exact follows_enclosedMarks (hends radicand (by simp [Place.enclosed, Node.arguments]))
      (hargs radicand (by simp [Node.arguments])).2
  | apply command argument =>
    exact follows_enclosedMarks (hends argument (by simp [Place.enclosed, Node.arguments]))
      (hargs argument (by simp [Node.arguments])).2
  | colored color body =>
    obtain ⟨hcolor, hbody⟩ := hplace.block
    exact follows_blockMarks hcolor (hends body (by simp [Place.enclosed, Node.arguments]))
      (hargs body (by simp [Node.arguments])).2 hbody
  | operator raw =>
    exact follows_nil.enclose
  | number digits => exact follows_nil
  | prime => exact follows_nil
  | text raw => exact follows_nil
  | named command => exact follows_nil
  | layout => exact follows_nil

theorem follows_skeleton (hsafe : Safe f) (hlegible : Legible f)
    (horderly : ∀ p ∈ places f, p.IsOrderly) : Follows (skeleton f) (punctuation f) := by
  revert horderly
  apply safe_induction hsafe hlegible
  case nil => exact fun _ => follows_nil
  case cons =>
    intro node s _ hargs ih horderly
    obtain ⟨hnode, horderlyArgs, horderly⟩ := forall_mem_places_cons.1 horderly
    refine (Node.follows_skeleton hnode fun a ha => ?_).append (ih horderly)
    obtain ⟨hwrites, hfollows⟩ := hargs a ha
    exact ⟨hwrites, hfollows (horderlyArgs a ha)⟩

/-- The commas of a formula that stand outside of its parentheses, and outside
of all delimiters that are written around them. -/
def outerCommas (f : Formula) : Nat := exposed ',' [] (punctuation f)

/-- **An orderly formula leaves all levels as they are, and shows its outer
commas.** -/
theorem Orderly.reads (h : Orderly f) (hlegible : Legible f) :
    IsBalanced (tokens .plain (toTypst f)) ∧
      exposed ',' [] (tokens .plain (toTypst f)) = outerCommas f := by
  have hwrites := writes_toTypst h.safe hlegible
  have hfollows := follows_skeleton h.safe hlegible h.inside
  obtain ⟨hlevel, hexposed⟩ := hfollows.level h.balanced
  rw [IsBalanced, ← levelAfter?_filter, ← exposed_filter (by decide)]
  rw [show (tokens .plain (toTypst f)).filter MathToken.isMark = skeleton f from hwrites.marks_eq]
  exact ⟨hlevel, hexposed⟩

end Formula

end AnnotatedEquation
