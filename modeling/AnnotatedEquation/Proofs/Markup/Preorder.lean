/-
AnnotatedEquation/Proofs/Markup/Preorder.lean

The tagged pieces of a text in the order in which they open, and the text
laid out along this order.

* `TagStyle.spans` lists the spans of a text with their contents, a span
  before those inside it.
* A `Token` is plain text, or the place where a numbered piece opens or
  closes; `Fragment.tokensAll` lays out a forest in tokens.

Main statements: the terms of the spans are the terms of the forest
(`TagStyle.map_fst_spans`); the pieces of a layout open in the order of their
numbers, each closes once, and what closes is always what opened last
(`opened_tokensAll`, `perm_closed_tokensAll`, `unclosed_tokensAll`); and a
writing that puts something before and behind each piece writes the tokens
one after the other (`writeAllFrom_eq_flatMap`).
-/
import AnnotatedEquation.Markup.TagStyle
import AnnotatedEquation.Proofs.Markup.Forest

namespace AnnotatedEquation

open Fragment (termsAll)

/-! ### Spans -/

namespace TagStyle

variable (style : TagStyle)

/-- The spans of a text with their contents, from left to right, a span
before those inside its content. -/
def spans (s : Text) : List (Text × Text) :=
  (style.runs s).attach.flatMap fun
    | ⟨.plain _, _⟩ => []
    | ⟨.tagged term content, _⟩ => (term, content) :: spans content
termination_by s.length
decreasing_by
  next h => exact style.length_lt_of_mem_runs h

/-- The spans of a run: a tagged run, and those inside it. -/
def runSpans : Run → List (Text × Text)
  | .plain _ => []
  | .tagged term content => (term, content) :: style.spans content

theorem spans_eq (s : Text) : style.spans s = (style.runs s).flatMap style.runSpans := by
  rw [spans]
  conv => rhs; rw [← List.attach_map_subtype_val (style.runs s), List.flatMap_map]
  refine List.flatMap_congr fun r _ => ?_
  rcases r with ⟨- | -, _⟩ <;> rfl

/-- The spans carry the terms of the forest. -/
theorem map_fst_spans (s : Text) : (style.spans s).map Prod.fst = termsAll (style.forest s) := by
  induction hn : s.length using Nat.strongRecOn generalizing s with
  | _ n ih =>
    have step : ∀ rs : List Run, (∀ r ∈ rs, r ∈ style.runs s) →
        (rs.flatMap style.runSpans).map Prod.fst = termsAll (rs.map style.grow) := by
      intro rs
      induction rs with
      | nil => simp
      | cons r rs ihr =>
        intro hrs
        have hr := hrs r (by simp)
        have hrest := ihr fun x hx => hrs x (by simp [hx])
        cases r with
        | plain text => simpa [runSpans, grow] using hrest
        | tagged term content =>
          have hcontent := ih content.length (hn ▸ style.length_lt_of_mem_runs hr) content rfl
          simpa [runSpans, grow, hcontent] using hrest
    rw [spans_eq, forest_eq, step _ fun _ h => h]

end TagStyle

/-! ### Tokens -/

/-- A stretch of plain text, or the place where a piece with a number and a
term opens or closes. -/
inductive Token where
  | plain (text : Text)
  | opens (number : Nat) (term : Text)
  | closes (number : Nat) (term : Text)
  deriving DecidableEq, Repr

namespace Token

/-- The piece that opens. -/
def opened? : Token → Option (Text × Nat)
  | opens number term => some (term, number)
  | _ => none

/-- The piece that closes. -/
def closed? : Token → Option (Text × Nat)
  | closes number term => some (term, number)
  | _ => none

/-- The token as text, for what stands before a piece and behind it. -/
def write (front back : Nat → Text → Text) : Token → Text
  | plain text => text
  | opens number term => front number term
  | closes number term => back number term

/-- The pieces that are still open behind some tokens, the last one opened
first.  There is no answer if another piece than that one closes. -/
def unclosed? : List (Text × Nat) → List Token → Option (List (Text × Nat))
  | pieces, [] => some pieces
  | pieces, plain _ :: tokens => unclosed? pieces tokens
  | pieces, opens number term :: tokens => unclosed? ((term, number) :: pieces) tokens
  | [], closes _ _ :: _ => none
  | piece :: pieces, closes number term :: tokens =>
    if piece = (term, number) then unclosed? pieces tokens else none

end Token

/-! ### Forests laid out in tokens -/

namespace Fragment

mutual

/-- The tokens of a fragment, whose pieces are numbered from `n` in the order
in which they open. -/
def tokens (n : Nat) : Fragment → List Token
  | plain text => [.plain text]
  | tagged term body => .opens n term :: tokensAll (n + 1) body ++ [.closes n term]

/-- The tokens of a forest, whose pieces are numbered from `n` in the order
in which they open. -/
def tokensAll (n : Nat) : List Fragment → List Token
  | [] => []
  | f :: fs => tokens n f ++ tokensAll (n + (terms f).length) fs

end

variable {text term : Text} {fs body : List Fragment} {n : Nat}

@[simp] theorem tokensAll_nil : tokensAll n [] = [] := by simp [tokensAll]

@[simp] theorem tokensAll_plain :
    tokensAll n (plain text :: fs) = .plain text :: tokensAll n fs := by
  simp [tokensAll, tokens, terms]

@[simp] theorem tokensAll_tagged :
    tokensAll n (tagged term body :: fs) =
      .opens n term :: (tokensAll (n + 1) body ++
        .closes n term :: tokensAll (n + 1 + (termsAll body).length) fs) := by
  simp [tokensAll, tokens, terms, Nat.add_comm, Nat.add_assoc]

/-- The pieces open in the order of their numbers. -/
theorem opened_tokensAll (n : Nat) (fs : List Fragment) :
    (tokensAll n fs).filterMap Token.opened? = (termsAll fs).zipIdx n := by
  induction fs using forest_induction generalizing n with
  | nil => simp
  | plain text fs ih => simpa [Token.opened?, List.filterMap_cons] using ih n
  | tagged term body fs ihBody ihRest =>
    simp [Token.opened?, List.filterMap_cons, ihBody, ihRest, List.zipIdx_append]

/-- Every piece that opens closes once. -/
theorem perm_closed_tokensAll (n : Nat) (fs : List Fragment) :
    ((tokensAll n fs).filterMap Token.closed?).Perm ((termsAll fs).zipIdx n) := by
  induction fs using forest_induction generalizing n with
  | nil => simp
  | plain text fs ih => simpa [Token.closed?, List.filterMap_cons] using ih n
  | tagged term body fs ihBody ihRest =>
    have hrest := ihRest (n + 1 + (termsAll body).length)
    have hbody := ihBody (n + 1)
    simp only [tokensAll_tagged, List.filterMap_cons, List.filterMap_append, Token.closed?,
      termsAll_tagged, List.cons_append, List.zipIdx_cons, List.zipIdx_append]
    exact List.perm_middle.trans ((hbody.append hrest).cons _)

/-- What closes is always the piece that opened last. -/
theorem unclosed_tokensAll_append (pieces : List (Text × Nat)) (n : Nat) (fs : List Fragment)
    (tokens : List Token) :
    Token.unclosed? pieces (tokensAll n fs ++ tokens) = Token.unclosed? pieces tokens := by
  induction fs using forest_induction generalizing pieces n tokens with
  | nil => simp
  | plain text fs ih => simpa [Token.unclosed?] using ih pieces n tokens
  | tagged term body fs ihBody ihRest =>
    simp only [tokensAll_tagged, List.cons_append, List.append_assoc, Token.unclosed?, ihBody,
      ihRest, if_true]

theorem unclosed_tokensAll (n : Nat) (fs : List Fragment) :
    Token.unclosed? [] (tokensAll n fs) = some [] := by
  have h := unclosed_tokensAll_append [] n fs []
  rwa [List.append_nil] at h

/-- **A writing of a forest writes its tokens one after the other**, if it
puts something before and something behind each piece. -/
theorem writeAllFrom_eq_flatMap {w : Nat → Text → Text → Text} {front back : Nat → Text → Text}
    (hw : ∀ n term inner, w n term inner = front n term ++ (inner ++ back n term)) (n : Nat)
    (fs : List Fragment) :
    writeAllFrom w n fs = (tokensAll n fs).flatMap (Token.write front back) := by
  induction fs using forest_induction generalizing n with
  | nil => simp
  | plain text fs ih => simp [ih, Token.write]
  | tagged term body fs ihBody ihRest => simp [hw, ihBody, ihRest, Token.write]

end Fragment

end AnnotatedEquation
