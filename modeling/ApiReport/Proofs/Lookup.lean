import ApiReport.Value
import Mathlib.Data.List.Nodup

/-!
# Looking up keys

In a list of entries with distinct keys, a key leads to the one entry that it has. If each of some
distinct keys leads to a list, and all but one of them to the empty list, that one gives the whole.

Key theorems: `lookup_eq_none_iff_keys`, `mem_of_lookup`, `lookup_of_mem`, `lookup_append_cons`,
`Entries.lookup_put`, `flatMap_eq_of_unique`.
-/
namespace ApiReport

variable {κ α : Type} [BEq κ] [LawfulBEq κ] {entries before after : List (κ × α)} {key k : κ} {a : α}

theorem lookup_eq_none_iff_keys : entries.lookup key = none ↔ key ∉ entries.map Prod.fst := by
  rw [List.lookup_eq_none_iff, List.mem_map]
  constructor
  · rintro h ⟨e, he, rfl⟩
    exact bne_iff_ne.1 (h e he) rfl
  · intro h e he
    rw [bne_iff_ne]
    rintro rfl
    exact h ⟨e, he, rfl⟩

theorem mem_of_lookup (h : entries.lookup key = some a) : (key, a) ∈ entries := by
  obtain ⟨before, after, rfl, -⟩ := List.lookup_eq_some_iff.1 h
  exact List.mem_append_cons_self

theorem lookup_of_mem (h : (entries.map Prod.fst).Nodup) (hm : (key, a) ∈ entries) :
    entries.lookup key = some a := by
  obtain ⟨before, after, rfl⟩ := List.append_of_mem hm
  rw [List.map_append, List.map_cons, List.nodup_append] at h
  obtain ⟨-, -, hdisjoint⟩ := h
  refine List.lookup_eq_some_iff.2 ⟨before, after, rfl, fun e he => ?_⟩
  rw [bne_iff_ne]
  exact (hdisjoint e.1 (List.mem_map_of_mem he) key List.mem_cons_self).symm

/-- One entry among others of distinct keys: its key leads to it, every other key leads past it. -/
theorem lookup_append_cons (h : key ∉ before.map Prod.fst) :
    (before ++ (key, a) :: after).lookup k =
      if k == key then some a else (before ++ after).lookup k := by
  by_cases hk : k = key
  · subst hk
    rw [List.lookup_append, lookup_eq_none_iff_keys.2 h, List.lookup_cons_self, if_pos (beq_self_eq_true k)]
    rfl
  · have hne : (k == key) = false := beq_eq_false_iff_ne.2 hk
    rw [List.lookup_append, List.lookup_append, List.lookup_cons, hne]
    rfl

/-- A key that has been set leads to its new value, any other key where it led before. -/
theorem Entries.lookup_put {α : Type} (key : String) (value : α) (k : String) :
    ∀ entries : List (String × α),
      (put key value entries).lookup k = if k = key then some value else entries.lookup k
  | [] => by
    by_cases hk : k = key
    · simp [put, hk]
    · simp [put, hk, List.lookup_cons, beq_eq_false_iff_ne.2 hk]
  | (a, v) :: rest => by
    by_cases ha : a = key
    · rw [put, if_pos ha, List.lookup_cons, List.lookup_cons, ha]
      by_cases hk : k = key
      · simp [hk]
      · simp [hk, beq_eq_false_iff_ne.2 hk]
    · rw [put, if_neg ha, List.lookup_cons, List.lookup_cons, lookup_put key value k rest]
      by_cases hk : k = a
      · simp [hk, ha]
      · simp [beq_eq_false_iff_ne.2 hk]

/-! ### Lists that keys lead to -/

section Lists

variable {κ α : Type} [DecidableEq κ] {keys : List κ}

/-- Of all keys only one leads to something. -/
theorem flatMap_ite_eq {xs : List α} (k : κ) (h : keys.Nodup) :
    (keys.flatMap fun k' => if k' = k then xs else []) = if k ∈ keys then xs else [] := by
  induction keys with
  | nil => rfl
  | cons k' keys ih =>
    obtain ⟨hk, hkeys⟩ := List.nodup_cons.1 h
    rw [List.flatMap_cons, ih hkeys]
    by_cases heq : k' = k
    · subst heq
      simp [hk]
    · simp [heq, Ne.symm heq]

theorem flatMap_eq_of_unique {f : κ → List α} {k : κ} (h : keys.Nodup) (hk : k ∈ keys)
    (hf : ∀ k', k' ≠ k → f k' = []) : keys.flatMap f = f k := by
  have hite : f = fun k' => if k' = k then f k else [] := by
    funext k'
    split
    · next heq => rw [heq]
    · next hne => exact hf k' hne
  calc keys.flatMap f = keys.flatMap fun k' => if k' = k then f k else [] := by rw [← hite]
    _ = f k := by rw [flatMap_ite_eq k h, if_pos hk]

end Lists

end ApiReport
