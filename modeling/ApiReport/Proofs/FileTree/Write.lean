import ApiReport.FileTree.Change
import ApiReport.Proofs.FileTree.Walk

/-!
# Writing is all or nothing

Writing a file at a normal path takes several steps: the directories above it that are missing are
made one after another, then the file is put into the last of them. If a directory had to be made,
then everything in it is vacant, so that no later step can fail; if none had to be made, then
nothing has changed before the file is put. So a write that fails leaves the tree as it was, and one
that succeeds changes nothing but the file and the directories above it that were missing.

Key definitions: `FileTree.AllOrNothing`, `FileTree.Dug`, `FileTree.Wrote`.
Key theorems: `FileTree.makeDirectories_spec`, `FileTree.write_spec`.
-/
namespace ApiReport

namespace FileTree

variable {t t₁ t' : FileTree}

/-! ### Changes that fail without a trace -/

/-- A change that either succeeds and leaves a tree of a certain kind, or leaves the tree as it was.
-/
def AllOrNothing (t : FileTree) (after : FileTree → Prop) :
    EStateM.Result Fault FileTree Unit → Prop
  | .ok _ t' => after t'
  | .error _ t' => t' = t

theorem AllOrNothing.single {after : FileTree → Prop} {step : FileTree → Except Fault FileTree}
    (h : ∀ t', step t = .ok t' → after t') : t.AllOrNothing after (single step t) := by
  unfold FileTree.single
  cases hs : step t with
  | ok t' => exact h t' hs
  | error f => rfl

/-- A last step may fail only if nothing has changed before it. -/
theorem AllOrNothing.bind_single {before after : FileTree → Prop} {c : Change}
    {step : FileTree → Except Fault FileTree} (hc : t.AllOrNothing before (c t))
    (h : ∀ t₁, before t₁ →
      (∃ t', step t₁ = .ok t' ∧ after t') ∨ ((∃ f, step t₁ = .error f) ∧ t₁ = t)) :
    t.AllOrNothing after (EStateM.bind c (fun _ => FileTree.single step) t) := by
  unfold EStateM.bind
  cases hct : c t with
  | error f t₁ => rw [hct] at hc; exact hc
  | ok u t₁ =>
    rw [hct] at hc
    unfold FileTree.single
    rcases h t₁ hc with ⟨t', hs, ha⟩ | ⟨⟨f, hs⟩, rfl⟩
    · simp only [hs]
      exact ha
    · simp only [hs]
      rfl

/-! ### Setting one entry -/

theorem entryAt?_of_set {l : Location} {e : Entry} (h : t.set l e = .ok t') (k : Location) :
    t'.entryAt? k = if k = l then some e else t.entryAt? k := by
  unfold set at h
  split at h
  · obtain rfl := Except.ok.inj h
    exact t.entryAt?_put l e _ k
  · cases h

theorem takes_concat {d : Location} {n : String} (hd : t.entryAt? d = some .directory)
    (hn : Path.IsName n) (hv : t.entryAt? (d ++ [n]) = none) : t.Takes (d ++ [n]) := by
  refine ⟨by simp, ?_, by rwa [List.dropLast_concat], by simp [hv]⟩
  exact (isLocation_of_entryAt? hd).append (by simpa [Path.IsLocation] using hn)

theorem set_concat {d : Location} {n : String} (hd : t.entryAt? d = some .directory)
    (hn : Path.IsName n) (hv : t.entryAt? (d ++ [n]) = none) (e : Entry) :
    ∃ t', t.set (d ++ [n]) e = .ok t' :=
  ⟨_, dif_pos (takes_concat hd hn hv)⟩

/-- Setting an entry that is no link lets the tree grow, unless it takes the place of another kind
of entry. -/
theorem grown_of_entryAt? {l : Location} {e : Entry}
    (h : ∀ k, t'.entryAt? k = if k = l then some e else t.entryAt? k)
    (hl : ∀ f, t.entryAt? l = some f → f.Like e) (he : ∀ target, e ≠ .link target) :
    t.Grown t' where
  keeps := by
    intro k f hk
    by_cases hkl : k = l
    · subst hkl; exact ⟨e, by rw [h, if_pos rfl], hl f hk⟩
    · exact ⟨f, by rw [h, if_neg hkl, hk], .refl f⟩
  fresh := by
    intro k hk target
    rw [h]
    split
    · simpa using he target
    · simp [hk]

/-! ### Making directories -/

/-- A tree with a directory made at a location and wherever nothing stood above it. -/
structure Dug (t t' : FileTree) (d : Location) : Prop where
  entryAt? : ∀ k, t'.entryAt? k =
    if k <+: d ∧ t.entryAt? k = none then some .directory else t.entryAt? k
  /-- If it was there already, nothing has changed. -/
  eq_of_isSome : (t.entryAt? d).isSome → t' = t

namespace Dug

theorem refl {d : Location} (hd : t.entryAt? d = some .directory) : t.Dug t d where
  entryAt? := by
    intro k
    rw [if_neg]
    rintro ⟨hk, hn⟩
    rw [entryAt?_eq_none_of_above hk hn] at hd
    cases hd
  eq_of_isSome := fun _ => rfl

theorem grown {d : Location} (g : t.Dug t' d) : t.Grown t' where
  keeps := by
    intro k e hk
    exact ⟨e, by rw [g.entryAt?, if_neg (by simp [hk]), hk], .refl e⟩
  fresh := by
    intro k hk target
    rw [g.entryAt?, hk]
    split <;> simp

/-- Below a directory that has just been made everything is vacant. -/
theorem vacant_below {d : Location} (g : t.Dug t' d) (hd : t.entryAt? d = none) (n : String) :
    t'.entryAt? (d ++ [n]) = none := by
  rw [g.entryAt?, if_neg, entryAt?_eq_none_of_above (List.prefix_append d [n]) hd]
  rintro ⟨h, -⟩
  have := h.length_le
  rw [List.length_append, List.length_singleton] at this
  omega

theorem concat {d : Location} {n : String} (g : t.Dug t₁ d) (hv : t₁.entryAt? (d ++ [n]) = none)
    (h : ∀ k, t'.entryAt? k = if k = d ++ [n] then some .directory else t₁.entryAt? k) :
    t.Dug t' (d ++ [n]) := by
  have hn : t.entryAt? (d ++ [n]) = none := by
    by_contra hne
    obtain ⟨e, he⟩ := Option.ne_none_iff_exists'.1 hne
    obtain ⟨f, hf, -⟩ := g.grown.keeps he
    rw [hv] at hf
    cases hf
  refine ⟨fun k => ?_, fun hs => by simp [hn] at hs⟩
  rw [h, g.entryAt?]
  by_cases hk : k = d ++ [n]
  · simp [hk, hn]
  · simp only [hk, if_false, List.prefix_concat_iff, false_or]

end Dug

theorem parent_concat {ns : List String} {n : String} {d : Location}
    (h : t.walk maxLinks [] ns = .ok (.entry d .directory)) : t.parent (ns ++ [n]) = .ok d := by
  rw [parent, List.dropLast_concat, h]

theorem walk_of_parent {ns : List String} {n : String} {d : Location}
    (h : t.parent (ns ++ [n]) = .ok d) : t.walk maxLinks [] ns = .ok (.entry d .directory) := by
  unfold parent at h
  rw [List.dropLast_concat] at h
  split at h
  · next hw => obtain rfl := Except.ok.inj h; exact hw
  all_goals cases h

/-- A new directory stands at the last name, in the directory to which the others lead. -/
theorem newDirectory_concat {ns : List String} {n : String} (hn : Path.IsName n) :
    t.newDirectory (ns ++ [n]) = (t.parent (ns ++ [n])).bind fun d =>
      if (t.entryAt? (d ++ [n])).isSome then .error .occupied else t.set (d ++ [n]) .directory := by
  have hc : ∀ d, Path.collapse d [n] = d ++ [n] := fun d =>
    Path.collapse_eq_append d (by simpa [Path.IsLocation] using hn)
  simp only [newDirectory, List.getLast?_concat, Option.toList_some, hc]
  rfl

theorem walk_of_oldDirectory {names : List String} (h : t.oldDirectory names = .ok t') :
    t' = t ∧ ∃ d, t.walk maxLinks [] names = .ok (.entry d .directory) := by
  unfold oldDirectory at h
  split at h
  · next d hw => exact ⟨(Except.ok.inj h).symm, d, hw⟩
  all_goals cases h

/-- A directory is either made where it can be made, or was there before. -/
theorem makeDirectory_cases {names : List String} (h : t.makeDirectory names = .ok t') :
    t.newDirectory names = .ok t' ∨ t.oldDirectory names = .ok t' := by
  unfold makeDirectory at h
  split at h
  · exact .inr h
  · exact .inr h
  · exact .inl h

/-- In a directory that is there, a directory can be made at a vacant name. -/
theorem makeDirectory_of_vacant {ns : List String} {n : String} {d : Location} (hn : Path.IsName n)
    (h : t.walk maxLinks [] ns = .ok (.entry d .directory)) (hv : t.entryAt? (d ++ [n]) = none) :
    ∃ t', t.makeDirectory (ns ++ [n]) = .ok t' := by
  obtain ⟨t', ht⟩ := set_concat (entryAt?_of_walk t.entryAt?_nil h) hn hv .directory
  refine ⟨t', ?_⟩
  have hnew : t.newDirectory (ns ++ [n]) = .ok t' := by
    rw [newDirectory_concat hn, parent_concat h]
    simpa [Except.bind, hv] using ht
  rw [makeDirectory, hnew]

/-- A directory that has been made is found, and a tree into which directories have been dug is dug
one deeper. -/
theorem dug_of_makeDirectory {ns : List String} {n : String} {d : Location} (hn : Path.IsName n)
    (hw : t₁.walk maxLinks [] ns = .ok (.entry d .directory)) (g : t.Dug t₁ d)
    (h : t₁.newDirectory (ns ++ [n]) = .ok t') :
    t'.walk maxLinks [] (ns ++ [n]) = .ok (.entry (d ++ [n]) .directory) ∧ t.Dug t' (d ++ [n]) := by
  rw [newDirectory_concat hn, parent_concat hw] at h
  cases hv : t₁.entryAt? (d ++ [n]) with
  | some e => simp [Except.bind, hv] at h
  | none =>
    have hset : t₁.set (d ++ [n]) .directory = .ok t' := by simpa [Except.bind, hv] using h
    have hat := entryAt?_of_set hset
    have hgrown : t₁.Grown t' := grown_of_entryAt? hat (by simp [hv]) (by simp)
    refine ⟨?_, g.concat hv hat⟩
    exact hgrown.walk_of_vacant (walk_concat_of_vacant hn hw hv) hv (by rw [hat, if_pos rfl])

theorem parent_of_newDirectory {names : List String} (h : t.newDirectory names = .ok t') :
    ∃ d, t.parent names = .ok d := by
  cases hp : t.parent names with
  | ok d => exact ⟨d, rfl⟩
  | error f =>
    rw [newDirectory, hp] at h
    cases h

/-- **Making directories is all or nothing.** Either there is a directory in the end, made together
with all that was missing above it, or the tree is as it was. -/
theorem makeDirectories_spec (t : FileTree) {names : List String} (hn : Path.IsLocation names) :
    t.AllOrNothing
      (fun t' => ∃ d, t'.walk maxLinks [] names = .ok (.entry d .directory) ∧ t.Dug t' d)
      (makeDirectories names t) := by
  induction names using List.reverseRecOn with
  | nil =>
    have hw := t.walk_nil maxLinks []
    rw [makeDirectories, dif_neg (by simp)]
    refine .single fun t' h => ?_
    rcases makeDirectory_cases h with h | h
    · have hp : t.parent [] = .ok [] := by rw [parent, List.dropLast_nil, hw]
      rw [newDirectory, hp] at h
      cases h
    · obtain ⟨rfl, -⟩ := walk_of_oldDirectory h
      exact ⟨[], hw, .refl t'.entryAt?_nil⟩
  | append_singleton ns n ih =>
    obtain ⟨hns, hn⟩ : Path.IsLocation ns ∧ Path.IsName n :=
      ⟨fun m hm => hn m (List.mem_append_left _ hm), hn n (by simp)⟩
    rw [makeDirectories]
    by_cases hlack : ns ++ [n] ≠ [] ∧ t.lacksParent (ns ++ [n])
    · rw [dif_pos hlack, List.dropLast_concat]
      refine (ih hns).bind_single fun t₁ ⟨d, hw, g⟩ => ?_
      -- the directory above was missing, so that it is new and nothing in it can be in the way
      have hd : t.entryAt? d = none := by
        by_contra hne
        obtain rfl := g.eq_of_isSome (Option.isSome_iff_ne_none.2 hne)
        have := hlack.2
        rw [lacksParent, parent_concat hw] at this
        cases this
      have hv := g.vacant_below hd n
      obtain ⟨t', ht⟩ := makeDirectory_of_vacant hn hw hv
      refine .inl ⟨t', ht, ?_⟩
      rcases makeDirectory_cases ht with h | h
      · exact ⟨_, dug_of_makeDirectory hn hw g h⟩
      · obtain ⟨-, d', hw'⟩ := walk_of_oldDirectory h
        rw [walk_concat_of_vacant hn hw hv] at hw'
        cases hw'
    · rw [dif_neg hlack]
      refine .single fun t' h => ?_
      rcases makeDirectory_cases h with h | h
      · obtain ⟨d, hp⟩ := parent_of_newDirectory h
        have hw := walk_of_parent hp
        exact ⟨_, dug_of_makeDirectory hn hw (.refl (entryAt?_of_walk t.entryAt?_nil hw)) h⟩
      · obtain ⟨rfl, d, hw⟩ := walk_of_oldDirectory h
        exact ⟨d, hw, .refl (entryAt?_of_walk t'.entryAt?_nil hw)⟩

/-! ### Writing files -/

/-- A tree with a file written at a path: it is found there, and nothing else has changed but that
directories were made where they were missing above it. -/
structure Wrote (t t' : FileTree) (path : String) (bytes : List UInt8) (l d : Location) : Prop where
  above : t'.walk maxLinks [] (Path.names path).dropLast = .ok (.entry d .directory)
  found : t'.stat path = .ok (l, .file bytes)
  entryAt? : ∀ k, t'.entryAt? k =
    if k = l then some (.file bytes)
    else if k <+: d ∧ t.entryAt? k = none then some .directory else t.entryAt? k
  /-- Nothing but a file has been written over. -/
  like : ∀ e, t.entryAt? l = some e → e.Like (.file bytes)

theorem Wrote.grown {path : String} {bytes : List UInt8} {l d : Location}
    (w : t.Wrote t' path bytes l d) : t.Grown t' where
  keeps := by
    intro k e hk
    rw [w.entryAt?]
    by_cases hkl : k = l
    · subst hkl
      exact ⟨_, if_pos rfl, w.like e hk⟩
    · exact ⟨e, by rw [if_neg hkl, if_neg (by simp [hk]), hk], .refl e⟩
  fresh := by
    intro k hk target
    rw [w.entryAt?]
    split
    · simp
    · split <;> simp [hk]

/-- A file can be put where it replaces nothing but a file. -/
theorem putFile_cases {path : String} {bytes : List UInt8} (h : t.putFile path bytes = .ok t') :
    ∃ l, t.set l (.file bytes) = .ok t' ∧
      ((∃ old, t.find path = .ok (.entry l (.file old))) ∨ t.find path = .ok (.vacant l)) := by
  unfold putFile at h
  cases hf : t.find path with
  | error f => rw [hf] at h; cases h
  | ok found =>
    rw [hf] at h
    match found, h with
    | .entry l (.file old), h => exact ⟨l, h, .inl ⟨old, rfl⟩⟩
    | .vacant l, h => exact ⟨l, h, .inr rfl⟩

theorem stat_of_putFile {l : Location} (hl : Path.IsLocation l) {bytes : List UInt8}
    (h : t.putFile (Path.ofLocation l) bytes = .ok t') :
    ∃ k, t.Grown t' ∧ t'.stat (Path.ofLocation l) = .ok (k, .file bytes) ∧
      (∀ e, t.entryAt? k = some e → e.Like (.file bytes)) ∧
      ∀ m, t'.entryAt? m = if m = k then some (.file bytes) else t.entryAt? m := by
  obtain ⟨k, hset, hfind⟩ := putFile_cases h
  have hat := entryAt?_of_set hset
  have hk : t'.entryAt? k = some (.file bytes) := by rw [hat, if_pos rfl]
  rw [find_ofLocation t hl] at hfind
  have hlike : ∀ e, t.entryAt? k = some e → e.Like (.file bytes) := by
    intro e he
    rcases hfind with ⟨old, hw⟩ | hw
    · have := entryAt?_of_walk t.entryAt?_nil hw
      obtain rfl := Option.some.inj (he.symm.trans this)
      trivial
    · rw [(vacant_of_walk t.entryAt?_nil hw).1] at he
      cases he
  have hgrown : t.Grown t' := grown_of_entryAt? hat hlike (by simp)
  refine ⟨k, hgrown, ?_, hlike, hat⟩
  have hw' : t'.walk maxLinks [] l = .ok (.entry k (.file bytes)) := by
    rcases hfind with ⟨old, hw⟩ | hw
    · obtain ⟨f, hw', -⟩ := hgrown.walk hw
      have := entryAt?_of_walk t'.entryAt?_nil hw'
      obtain rfl := Option.some.inj (hk.symm.trans this)
      exact hw'
    · exact hgrown.walk_of_vacant hw (vacant_of_walk t.entryAt?_nil hw).1 hk
  rw [stat, find_ofLocation t' hl, hw']

/-- Where a file has been put into a tree into which directories have been dug, it is written. -/
theorem Dug.wrote {l d : Location} (hl : Path.IsLocation l) {bytes : List UInt8}
    (hw : t₁.walk maxLinks [] l.dropLast = .ok (.entry d .directory)) (g : t.Dug t₁ d)
    (h : t₁.putFile (Path.ofLocation l) bytes = .ok t') :
    ∃ k, t.Wrote t' (Path.ofLocation l) bytes k d := by
  obtain ⟨k, hgrown, hstat, hlike, hat⟩ := stat_of_putFile hl h
  refine ⟨k, ?_, hstat, fun m => by rw [hat, g.entryAt?], fun e he => ?_⟩
  · rw [Path.names_ofLocation hl]
    obtain ⟨f, hw', hf⟩ := hgrown.walk hw
    rwa [Entry.Like.directory_iff.1 hf] at hw'
  · obtain ⟨f, hf, hef⟩ := g.grown.keeps he
    obtain ⟨old, rfl⟩ := Entry.Like.iff_file.1 (hlike f hf)
    obtain ⟨old', rfl⟩ := Entry.Like.iff_file.1 hef
    trivial

/-- In a directory that has just been made, a file can be put at every name. -/
theorem putFile_of_vacant {ns : List String} {n : String} {d : Location} (bytes : List UInt8)
    (hl : Path.IsLocation (ns ++ [n])) (hw : t.walk maxLinks [] ns = .ok (.entry d .directory))
    (hv : t.entryAt? (d ++ [n]) = none) :
    ∃ t', t.putFile (Path.ofLocation (ns ++ [n])) bytes = .ok t' := by
  have hn : Path.IsName n := hl n (by simp)
  obtain ⟨t', ht⟩ := set_concat (entryAt?_of_walk t.entryAt?_nil hw) hn hv (.file bytes)
  refine ⟨t', ?_⟩
  have hfind : t.find (Path.ofLocation (ns ++ [n])) = .ok (.vacant (d ++ [n])) := by
    rw [find_ofLocation t hl, walk_concat_of_vacant hn hw hv]
  rw [putFile, hfind]
  exact ht

/-- **Writing is all or nothing.** Either the file is there in the end, and nothing else has changed
but that the directories above it that were missing have been made, or the tree is as it was. -/
theorem write_spec (t : FileTree) {l : Location} (hl : Path.IsLocation l) (bytes : List UInt8) :
    t.AllOrNothing (fun t' => ∃ k d, t.Wrote t' (Path.ofLocation l) bytes k d)
      (write (Path.ofLocation l) bytes t) := by
  rw [write, Path.names_ofLocation hl]
  refine (makeDirectories_spec t hl.dropLast).bind_single fun t₁ ⟨d, hw, g⟩ => ?_
  cases hp : t₁.putFile (Path.ofLocation l) bytes with
  | ok t' =>
    obtain ⟨k, hk⟩ := g.wrote hl hw hp
    exact .inl ⟨t', rfl, k, d, hk⟩
  | error f =>
    refine .inr ⟨⟨f, rfl⟩, g.eq_of_isSome ?_⟩
    -- were the directory new, the file could have been put into it
    by_contra hd
    have hd : t.entryAt? d = none := by simpa using hd
    induction l using List.reverseRecOn with
    | nil =>
      rw [List.dropLast_nil, walk_nil] at hw
      cases hw
      cases hd
    | append_singleton ns n =>
      rw [List.dropLast_concat] at hw
      obtain ⟨t', ht⟩ := putFile_of_vacant bytes hl hw (g.vacant_below hd n)
      rw [hp] at ht
      cases ht

end FileTree

end ApiReport
