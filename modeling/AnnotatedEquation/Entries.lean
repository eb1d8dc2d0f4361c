/-
AnnotatedEquation/Entries.lean

Entries under keys, in the order in which the keys first came.  An entry put
under a known key replaces the value and keeps its place.

Main statement: an entry that is put makes no key repeat
(`Entries.nodup_keys_put`).
-/
import AnnotatedEquation.Text.Basic

namespace AnnotatedEquation

/-- Keys with their values, in the order of the keys' first coming.  Keys are
texts unless another type is given. -/
abbrev Entries (β : Type) (κ : Type := Text) := List (κ × β)

namespace Entries

variable {β κ : Type}

/-- The keys, in order. -/
def keys (es : Entries β κ) : List κ := es.map Prod.fst

/-- Puts a value under a key: at the key's place if it has one, else at the
end. -/
def put [DecidableEq κ] (key : κ) (value : β) : Entries β κ → Entries β κ
  | [] => [(key, value)]
  | e :: es => if e.1 = key then (key, value) :: es else e :: put key value es

/-- The entries put one after the other. -/
def ofList [DecidableEq κ] (es : List (κ × β)) : Entries β κ :=
  es.foldl (fun es e => es.put e.1 e.2) []

/-- The value under a key. -/
def get? (es : Entries β) (key : Text) : Option β := es.lookup key

theorem keys_put [DecidableEq κ] (es : Entries β κ) (key : κ) (value : β) :
    (es.put key value).keys = if key ∈ es.keys then es.keys else es.keys ++ [key] := by
  induction es with
  | nil => simp [put, keys]
  | cons e es ih =>
    by_cases h : e.1 = key
    · simp [put, keys, h]
    · simp only [keys, put, h, if_false, List.map_cons, List.mem_cons] at ih ⊢
      rw [ih]
      by_cases hk : key ∈ List.map Prod.fst es <;> simp [hk, Ne.symm h]

theorem nodup_keys_put [DecidableEq κ] {es : Entries β κ} (h : es.keys.Nodup) (key : κ)
    (value : β) : (es.put key value).keys.Nodup := by
  rw [keys_put]
  split
  · exact h
  · next hk =>
    refine List.nodup_append.2 ⟨h, by simp, fun a ha b hb e => hk ?_⟩
    rwa [← List.mem_singleton.1 hb, ← e]

end Entries

end AnnotatedEquation
