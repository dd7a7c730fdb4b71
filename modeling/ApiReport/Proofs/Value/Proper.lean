import ApiReport.Value.Json
import ApiReport.Proofs.Lookup
import ApiReport.Proofs.Outcome
import Mathlib.Data.List.Perm.Basic

/-!
# Mappings without repeated keys

A mapping is built by writing one pair after another, and a key written again takes its old place.
So the mappings of a value that has been read have distinct keys in enumeration order, at every
depth. What JSON texts denote is no special value.

Key definitions: `Entries.IsProper`, `Value.IsProper`.
Key theorems: `Value.isProper_ofEntries`, `Json.isProper_of_read`, `Json.not_special_of_read`.
-/
namespace ApiReport

variable {α : Type}

namespace Entries

/-- In enumeration order the first key may stand before the second one: before a key that is a whole
number only smaller ones may stand. -/
def MayPrecede (a b : String) : Prop := ∀ n, indexOf? b = some n → ∃ m, indexOf? a = some m ∧ m ≤ n

/-- Entries of distinct keys in enumeration order. -/
structure IsProper (entries : List (String × α)) : Prop where
  distinct : (entries.map Prod.fst).Nodup
  ordered : (entries.map Prod.fst).Pairwise MayPrecede

theorem IsProper.filter {entries : List (String × α)} (h : IsProper entries)
    (p : String × α → Bool) : IsProper (entries.filter p) where
  distinct := h.distinct.sublist (List.filter_sublist.map _)
  ordered := h.ordered.sublist (List.filter_sublist.map _)

/-- Keys that are no whole numbers may stand in any order. -/
theorem isProper_of_named {entries : List (String × α)} (hkeys : (entries.map Prod.fst).Nodup)
    (h : ∀ key ∈ entries.map Prod.fst, indexOf? key = none) : IsProper entries where
  distinct := hkeys
  ordered := List.pairwise_of_forall_mem_list fun _ _ b hb n hn => by
    rw [h b hb] at hn
    cases hn

/-! ### Writing -/

theorem keys_put (key : String) (value : α) : ∀ entries : List (String × α),
    (put key value entries).map Prod.fst =
      if key ∈ entries.map Prod.fst then entries.map Prod.fst else entries.map Prod.fst ++ [key]
  | [] => rfl
  | (k, v) :: rest => by
    rw [put]
    by_cases hk : k = key
    · subst hk
      simp
    · rw [if_neg hk, List.map_cons, List.map_cons, keys_put key value rest]
      have hmem : key ∈ k :: rest.map Prod.fst ↔ key ∈ rest.map Prod.fst := by
        rw [List.mem_cons, or_iff_right (Ne.symm hk)]
      by_cases hkey : key ∈ rest.map Prod.fst
      · rw [if_pos hkey, if_pos (hmem.2 hkey)]
      · rw [if_neg hkey, if_neg (mt hmem.1 hkey), List.cons_append]

theorem nodup_put {entries : List (String × α)} (h : (entries.map Prod.fst).Nodup) (key : String)
    (value : α) : ((put key value entries).map Prod.fst).Nodup := by
  rw [keys_put]
  split
  · exact h
  · next hkey =>
    rw [← List.concat_eq_append]
    exact List.Nodup.concat hkey h

theorem forall_put {P : α → Prop} {key : String} {value : α} (hvalue : P value) :
    ∀ {entries : List (String × α)}, (∀ e ∈ entries, P e.2) → ∀ e ∈ put key value entries, P e.2
  | [], _, e, he => by
    rw [List.mem_singleton.1 he]
    exact hvalue
  | (k, v) :: rest, h, e, he => by
    obtain ⟨hv, hrest⟩ := List.forall_mem_cons.1 h
    rw [put] at he
    split at he
    · rcases List.mem_cons.1 he with rfl | he
      · exact hvalue
      · exact hrest e he
    · rcases List.mem_cons.1 he with rfl | he
      · exact hv
      · exact forall_put hvalue hrest e he

theorem nodup_written (pairs : List (String × α)) : ((written pairs).map Prod.fst).Nodup := by
  unfold written
  refine List.foldlRecOn (motive := fun entries : List (String × α) => (entries.map Prod.fst).Nodup) pairs _
    List.nodup_nil fun entries h p _ => ?_
  exact nodup_put h p.1 p.2

theorem forall_written {P : α → Prop} {pairs : List (String × α)} (h : ∀ p ∈ pairs, P p.2) :
    ∀ e ∈ written pairs, P e.2 := by
  unfold written
  refine List.foldlRecOn (motive := fun entries : List (String × α) => ∀ e ∈ entries, P e.2) pairs _
    (fun e he => (List.not_mem_nil he).elim) fun entries hentries p hp => ?_
  exact forall_put (h p hp) hentries

/-! ### Enumeration -/

theorem enumerate_perm (entries : List (String × α)) : (enumerate entries).Perm entries := by
  unfold enumerate
  refine ((List.mergeSort_perm _ _).append_right _).trans ?_
  have hnone : (fun p : String × α => (indexOf? p.1).isNone) = fun p => !(indexOf? p.1).isSome := by
    funext p
    rw [Option.not_isSome]
  rw [hnone]
  exact List.filter_append_perm _ entries

theorem ordered_enumerate (entries : List (String × α)) :
    (enumerate entries).Pairwise fun a b => MayPrecede a.1 b.1 := by
  have hle : ∀ a b c : String × α, decide ((indexOf? a.1).getD 0 ≤ (indexOf? b.1).getD 0) = true →
      decide ((indexOf? b.1).getD 0 ≤ (indexOf? c.1).getD 0) = true →
      decide ((indexOf? a.1).getD 0 ≤ (indexOf? c.1).getD 0) = true := by
    simp only [decide_eq_true_eq]
    omega
  have htotal : ∀ a b : String × α, (decide ((indexOf? a.1).getD 0 ≤ (indexOf? b.1).getD 0) ||
      decide ((indexOf? b.1).getD 0 ≤ (indexOf? a.1).getD 0)) = true := by
    simp only [Bool.or_eq_true, decide_eq_true_eq]
    omega
  have hindexed : ∀ e ∈ (entries.filter fun p => (indexOf? p.1).isSome).mergeSort
      (fun a b => (indexOf? a.1).getD 0 ≤ (indexOf? b.1).getD 0), ∃ m, indexOf? e.1 = some m := by
    intro e he
    exact Option.isSome_iff_exists.1 (List.mem_filter.1 (List.mem_mergeSort.1 he)).2
  unfold enumerate
  refine List.pairwise_append.2 ⟨?_, ?_, ?_⟩
  · refine (List.pairwise_mergeSort hle htotal _).imp_of_mem fun {a b} ha _ hab n hn => ?_
    obtain ⟨m, hm⟩ := hindexed a ha
    simp only [hm, hn, Option.getD_some, decide_eq_true_eq] at hab
    exact ⟨m, hm, hab⟩
  -- nothing has to stand before a key that is no number
  · refine List.pairwise_of_forall_mem_list fun a _ b hb n hn => ?_
    have hnone := (List.mem_filter.1 hb).2
    rw [hn] at hnone
    cases hnone
  · intro a _ b hb n hn
    have hnone := (List.mem_filter.1 hb).2
    rw [hn] at hnone
    cases hnone

theorem isProper_enumerate {entries : List (String × α)} (h : (entries.map Prod.fst).Nodup) :
    IsProper (enumerate entries) where
  distinct := ((enumerate_perm entries).map Prod.fst).nodup_iff.2 h
  ordered := List.pairwise_map.2 (ordered_enumerate entries)

end Entries

namespace Value

/-- A value each mapping of which, at every depth, has distinct keys in enumeration order. -/
inductive IsProper : Value → Prop
  | null : IsProper .null
  | bool (b : Bool) : IsProper (.bool b)
  | number (n : Number) : IsProper (.number n)
  | text (s : String) : IsProper (.text s)
  | list {items : List Value} (h : ∀ v ∈ items, IsProper v) : IsProper (.list items)
  | mapping {entries : List (String × Value)} (hentries : Entries.IsProper entries)
      (h : ∀ e ∈ entries, IsProper e.2) : IsProper (.mapping entries)
  | special (s : Special) : IsProper (.special s)

theorem isProper_empty : (mapping []).IsProper :=
  .mapping ⟨List.nodup_nil, .nil⟩ fun _ he => (List.not_mem_nil he).elim

theorem isProper_pair {key key' : String} {v w : Value} (hne : key ≠ key')
    (hkey : indexOf? key = none) (hkey' : indexOf? key' = none) (hv : v.IsProper)
    (hw : w.IsProper) : (mapping [(key, v), (key', w)]).IsProper := by
  have hkeys : [key, key'].Nodup := List.nodup_cons.2 ⟨by simpa using hne, List.nodup_singleton _⟩
  have hnamed : ∀ k ∈ [key, key'], indexOf? k = none :=
    List.forall_mem_cons.2 ⟨hkey, List.forall_mem_singleton.2 hkey'⟩
  refine .mapping (Entries.isProper_of_named hkeys hnamed) ?_
  exact List.forall_mem_cons.2 ⟨hv, List.forall_mem_singleton.2 hw⟩

theorem isProper_ofEntries {pairs : List (String × Value)} (h : ∀ p ∈ pairs, p.2.IsProper) :
    (ofEntries pairs).IsProper := by
  refine .mapping (Entries.isProper_enumerate (Entries.nodup_written pairs)) fun e he => ?_
  exact Entries.forall_written h e ((Entries.enumerate_perm _).mem_iff.1 he)

theorem mem_of_get? {key : String} {v w : Value} (h : v.get? key = some w) :
    ∃ entries, v = .mapping entries ∧ (key, w) ∈ entries := by
  cases v with
  | mapping entries =>
    exact ⟨entries, rfl, mem_of_lookup h⟩
  | _ => cases h

theorem IsProper.get? {key : String} {v w : Value} (hv : v.IsProper) (h : v.get? key = some w) :
    w.IsProper := by
  obtain ⟨entries, rfl, hmem⟩ := mem_of_get? h
  cases hv with
  | mapping _ hentries => exact hentries _ hmem

end Value

namespace Json

/-- What the three readers of nested constructs return, within a number of constructs. -/
structure ReadsProper (fuel : Nat) : Prop where
  value : ∀ {cs v rest}, Json.value fuel cs = .ok (v, rest) → v.IsProper
  items : ∀ {cs vs rest}, Json.items fuel cs = .ok (vs, rest) → ∀ v ∈ vs, v.IsProper
  fields : ∀ {cs es rest}, Json.fields fuel cs = .ok (es, rest) → ∀ e ∈ es, e.2.IsProper

theorem fst_of_word {w : List Char} {v : Value} {cs : List Char} {r : Value × List Char}
    (h : word w v cs = .ok r) : r.1 = v := by
  unfold word at h
  split at h
  · rw [← Except.ok.inj h]
  · cases h

theorem ReadsProper.value_succ {fuel : Nat} (ih : ReadsProper fuel) {cs : List Char}
    {r : Value × List Char} (h : Json.value (fuel + 1) cs = .ok r) : r.1.IsProper := by
  rw [Json.value] at h
  split at h
  · cases h
  · obtain ⟨s, -, rfl⟩ := map_eq_ok.1 h
    exact .text _
  · split at h
    · rw [← Except.ok.inj h]
      exact .list fun v hv => (List.not_mem_nil hv).elim
    · obtain ⟨vs, hvs, rfl⟩ := map_eq_ok.1 h
      exact .list (ih.items hvs)
  · split at h
    · rw [← Except.ok.inj h]
      exact Value.isProper_empty
    · obtain ⟨es, hes, rfl⟩ := map_eq_ok.1 h
      exact Value.isProper_ofEntries (ih.fields hes)
  · rw [fst_of_word h]
    exact .bool true
  · rw [fst_of_word h]
    exact .bool false
  · rw [fst_of_word h]
    exact .null
  · obtain ⟨n, -, rfl⟩ := map_eq_ok.1 h
    exact .number _

theorem ReadsProper.items_succ {fuel : Nat} (ih : ReadsProper fuel) {cs : List Char}
    {r : List Value × List Char} (h : Json.items (fuel + 1) cs = .ok r) :
    ∀ v ∈ r.1, v.IsProper := by
  rw [Json.items] at h
  obtain ⟨⟨v, cs'⟩, hv, h⟩ := bind_eq_ok.1 h
  have hv := ih.value hv
  dsimp only at h
  split at h
  · obtain ⟨⟨more, rest⟩, hmore, h⟩ := bind_eq_ok.1 h
    rw [← Except.ok.inj h]
    exact List.forall_mem_cons.2 ⟨hv, ih.items hmore⟩
  · rw [← Except.ok.inj h]
    simpa using hv
  · cases h

theorem ReadsProper.fields_succ {fuel : Nat} (ih : ReadsProper fuel) {cs : List Char}
    {r : List (String × Value) × List Char} (h : Json.fields (fuel + 1) cs = .ok r) :
    ∀ e ∈ r.1, e.2.IsProper := by
  rw [Json.fields] at h
  split at h
  · obtain ⟨⟨key, cs₁⟩, -, h⟩ := bind_eq_ok.1 h
    dsimp only at h
    split at h
    · obtain ⟨cs₂, -, h⟩ := bind_eq_ok.1 h
      obtain ⟨⟨v, cs₃⟩, hv, h⟩ := bind_eq_ok.1 h
      have hv := ih.value hv
      dsimp only at h
      split at h
      · obtain ⟨⟨more, rest⟩, hmore, h⟩ := bind_eq_ok.1 h
        rw [← Except.ok.inj h]
        exact List.forall_mem_cons.2 ⟨hv, ih.fields hmore⟩
      · rw [← Except.ok.inj h]
        simpa using hv
      · cases h
    -- a key without a colon
    · cases h
  -- no key
  · cases h

theorem readsProper : ∀ fuel : Nat, ReadsProper fuel
  | 0 =>
    { value := fun h => by rw [Json.value] at h; cases h
      items := fun h => by rw [Json.items] at h; cases h
      fields := fun h => by rw [Json.fields] at h; cases h }
  | fuel + 1 =>
    have ih := readsProper fuel
    { value := ih.value_succ, items := ih.items_succ, fields := ih.fields_succ }

/-- What a JSON text denotes has no repeated keys. -/
theorem isProper_of_read {cs : List Char} {v : Value} (h : read cs = .ok v) : v.IsProper := by
  obtain ⟨⟨w, rest⟩, hw, h⟩ := bind_eq_ok.1 h
  dsimp only at h
  split at h
  · rw [← Except.ok.inj h]
    exact (readsProper _).value hw
  · cases h

theorem not_special_of_value {fuel : Nat} {cs : List Char} {r : Value × List Char} (x : Special)
    (h : value fuel cs = .ok r) : r.1 ≠ .special x := by
  cases fuel with
  | zero =>
    rw [value] at h
    cases h
  | succ fuel =>
    rw [value] at h
    split at h
    · cases h
    · obtain ⟨s, -, rfl⟩ := map_eq_ok.1 h
      exact nofun
    -- a list
    · split at h
      · rw [← Except.ok.inj h]
        exact nofun
      · obtain ⟨vs, -, rfl⟩ := map_eq_ok.1 h
        exact nofun
    -- a mapping
    · split at h
      · rw [← Except.ok.inj h]
        exact nofun
      · obtain ⟨es, -, rfl⟩ := map_eq_ok.1 h
        exact nofun
    · rw [fst_of_word h]
      exact nofun
    · rw [fst_of_word h]
      exact nofun
    · rw [fst_of_word h]
      exact nofun
    · obtain ⟨n, -, rfl⟩ := map_eq_ok.1 h
      exact nofun

/-- JSON has no form for special values. -/
theorem not_special_of_read {cs : List Char} {x : Special} : read cs ≠ .ok (.special x) := by
  intro h
  obtain ⟨⟨w, rest⟩, hw, h⟩ := bind_eq_ok.1 h
  dsimp only at h
  split at h
  · exact not_special_of_value x hw (Except.ok.inj h)
  · cases h

end Json

end ApiReport
