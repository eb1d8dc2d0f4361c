/-
AnnotatedEquation/Proofs/Entries.lean

Tables of entries: what a value put under a key does to a table that is told
by its keys and by the value under each.

Main statement: a table over keys that come again and again keeps each key at
its first place, and the last value put under it
(`Entries.put_map_eraseDups`).
-/
import AnnotatedEquation.Entries
import Mathlib.Data.List.Induction
import Mathlib.Data.List.Nodup

namespace AnnotatedEquation

/-! ### Elements, each once -/

section

variable {α : Type}

theorem nodup_eraseDups [BEq α] [LawfulBEq α] (l : List α) : l.eraseDups.Nodup := by
  induction hn : l.length using Nat.strongRecOn generalizing l with
  | _ n ih =>
    subst hn
    cases l with
    | nil => simp
    | cons a l =>
      rw [List.eraseDups_cons, List.nodup_cons, List.mem_eraseDups]
      exact ⟨by simp, ih _ (Nat.lt_succ_of_le (List.length_filter_le _ l)) _ rfl⟩

theorem eraseDups_concat [BEq α] [LawfulBEq α] (l : List α) (a : α) :
    (l ++ [a]).eraseDups = if a ∈ l then l.eraseDups else l.eraseDups ++ [a] := by
  rw [List.eraseDups_append]
  by_cases h : a ∈ l <;> simp [h, List.removeAll, List.eraseDups_cons]

theorem eraseDups_of_nodup [BEq α] [LawfulBEq α] {l : List α} (h : l.Nodup) : l.eraseDups = l := by
  induction l using List.reverseRecOn with
  | nil => rfl
  | append_singleton l a ih =>
    obtain ⟨hl, -, ha⟩ := List.nodup_append.1 h
    have hmem : a ∉ l := fun hmem => ha a hmem a List.mem_cons_self rfl
    rw [eraseDups_concat, if_neg hmem, ih hl]

end

/-! ### Entries under given keys -/

namespace Entries

variable {β κ : Type}

/-- A value under a new key comes last. -/
theorem put_of_not_mem [DecidableEq κ] {es : Entries β κ} {key : κ} (h : key ∉ es.keys)
    (value : β) : put key value es = es ++ [(key, value)] := by
  induction es with
  | nil => rfl
  | cons e es ih =>
    simp only [keys, List.map_cons, List.mem_cons, not_or] at h
    rw [put, if_neg (Ne.symm h.1), ih h.2, List.cons_append]

/-- A value under a known key replaces the value there, and no other. -/
theorem put_map_of_mem [DecidableEq κ] {ks : List κ} (hks : ks.Nodup) {key : κ} (h : key ∈ ks)
    (f : κ → β) (value : β) :
    put key value (ks.map fun k => (k, f k)) =
      ks.map fun k => (k, if k = key then value else f k) := by
  induction ks with
  | nil => cases h
  | cons k ks ih =>
    obtain ⟨hk, hks⟩ := List.nodup_cons.1 hks
    rw [List.map_cons, List.map_cons, put]
    by_cases hkey : k = key
    · subst hkey
      rw [if_pos rfl, if_pos rfl]
      congr 1
      apply List.map_congr_left
      intro x hx
      rw [if_neg (ne_of_mem_of_not_mem hx hk)]
    · rw [if_neg hkey, if_neg hkey, ih hks ((List.mem_cons.1 h).resolve_left (Ne.symm hkey))]

theorem get?_map_of_mem {ks : List Text} {key : Text} (h : key ∈ ks) (f : Text → β) :
    get? (ks.map fun k => (k, f k)) key = some (f key) := by
  induction ks with
  | nil => cases h
  | cons k ks ih =>
    rw [get?, List.map_cons, List.lookup_cons]
    by_cases hkey : key = k
    · rw [hkey, beq_self_eq_true]
    · rw [beq_false_of_ne hkey]
      exact ih ((List.mem_cons.1 h).resolve_left hkey)

theorem get?_map_of_not_mem {ks : List Text} {key : Text} (h : key ∉ ks) (f : Text → β) :
    get? (ks.map fun k => (k, f k)) key = none := by
  rw [get?, List.lookup_eq_none_iff]
  intro e he
  obtain ⟨k, hk, rfl⟩ := List.mem_map.1 he
  simpa using (ne_of_mem_of_not_mem hk h).symm

theorem isSome_get?_of_mem_keys {es : Entries β} {key : Text} (h : key ∈ es.keys) :
    (get? es key).isSome := by
  obtain ⟨e, he, rfl⟩ := List.mem_map.1 h
  rw [get?, List.lookup_isSome_iff]
  exact ⟨e, he, BEq.rfl⟩

theorem mem_put {es : Entries β} {key : Text} {value : β} {e : Text × β}
    (h : e ∈ es.put key value) : e ∈ es ∨ e = (key, value) := by
  induction es with
  | nil => exact Or.inr (List.mem_singleton.1 h)
  | cons e' es ih =>
    rw [put] at h
    split at h
    · rcases List.mem_cons.1 h with rfl | h
      · exact Or.inr rfl
      · exact Or.inl (List.mem_cons_of_mem _ h)
    · rcases List.mem_cons.1 h with rfl | h
      · exact Or.inl List.mem_cons_self
      · exact (ih h).imp_left (List.mem_cons_of_mem _)

theorem put_put [DecidableEq κ] (es : Entries β κ) (key : κ) (v w : β) :
    put key w (put key v es) = put key w es := by
  induction es with
  | nil => simp [put]
  | cons e es ih =>
    by_cases h : e.1 = key
    · simp [put, h]
    · simp [put, h, ih]

/-- A value put into a table over the keys that came so far, each at its
first place. -/
theorem put_map_eraseDups [BEq κ] [LawfulBEq κ] [DecidableEq κ] (ks : List κ) (key : κ) (f : κ → β)
    (value : β) :
    put key value (ks.eraseDups.map fun k => (k, f k)) =
      (ks ++ [key]).eraseDups.map fun k => (k, if k = key then value else f k) := by
  rw [eraseDups_concat]
  split
  · next h => exact put_map_of_mem (nodup_eraseDups ks) (List.mem_eraseDups.2 h) f value
  · next h =>
    have hkeys : key ∉ keys (ks.eraseDups.map fun k => (k, f k)) := by
      simpa [keys, Function.comp_def] using h
    have hold : (ks.eraseDups.map fun k => (k, f k)) =
        ks.eraseDups.map fun k => (k, if k = key then value else f k) := by
      apply List.map_congr_left
      intro k hk
      rw [if_neg (ne_of_mem_of_not_mem (List.mem_eraseDups.1 hk) h)]
    rw [put_of_not_mem hkeys, List.map_append, List.map_singleton, if_pos rfl, hold]

end Entries

end AnnotatedEquation
