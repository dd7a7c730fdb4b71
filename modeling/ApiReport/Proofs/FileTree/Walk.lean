import ApiReport.Proofs.Path.Normal
import Mathlib.Data.List.Induction
import Mathlib.Tactic.ByContra

/-!
# What walks find

A walk ends at an entry of its tree, or at a vacant place of a directory. A walk over names that
lead to a directory goes on from there. A tree that keeps all entries of another one keeps its walks
as well; if what it has in addition holds no links, and neither the steps nor the targets of links
lead up, then a walk finds nothing else in it than before or something new.

Key definitions: `Entry.Like`, `FileTree.Walks`, `FileTree.Grown`, `FileTree.LinksAreNormal`.
Key theorems: `FileTree.walks_iff`, `FileTree.entryAt?_of_walk`, `FileTree.walk_append`,
`FileTree.Grown.walk`, `FileTree.Grown.walk_of_vacant`, `FileTree.Grown.walk_cases`.
-/
namespace ApiReport

/-- Entries that differ at most in the bytes of a file. -/
def Entry.Like : Entry → Entry → Prop
  | .file _, .file _ => True
  | e, f => e = f

namespace Entry.Like

theorem refl : ∀ e : Entry, e.Like e
  | .file _ => trivial
  | .directory | .link _ => rfl

theorem directory_iff {e : Entry} : Entry.directory.Like e ↔ e = .directory := by
  cases e <;> simp [Entry.Like]

theorem iff_directory {e : Entry} : e.Like .directory ↔ e = .directory := by
  cases e <;> simp [Entry.Like]

theorem link_iff {target : Location} {e : Entry} :
    (Entry.link target).Like e ↔ e = .link target := by
  cases e <;> simp [Entry.Like, eq_comm]

theorem iff_link {target : Location} {e : Entry} : e.Like (.link target) ↔ e = .link target := by
  cases e <;> simp [Entry.Like]

theorem file_iff {bytes : List UInt8} {e : Entry} :
    (Entry.file bytes).Like e ↔ ∃ bytes', e = .file bytes' := by
  cases e <;> simp [Entry.Like]

theorem iff_file {bytes : List UInt8} {e : Entry} :
    e.Like (.file bytes) ↔ ∃ bytes', e = .file bytes' := by
  cases e <;> simp [Entry.Like]

end Entry.Like

namespace FileTree

/-- The course of a walk, step by step, to its end. -/
inductive Walks (t : FileTree) : Nat → Location → List String → Except Fault Found → Prop
  | arrive {links here} : Walks t links here [] (.ok (.entry here .directory))
  | stay {links here rest r} : Walks t links here rest r → Walks t links here ("." :: rest) r
  | up {links here rest r} :
      Walks t links here.dropLast rest r → Walks t links here (".." :: rest) r
  | vacant {links here n} : n ≠ "." → n ≠ ".." → t.entryAt? (here ++ [n]) = none →
      Walks t links here [n] (.ok (.vacant (here ++ [n])))
  | lost {links here n rest} : n ≠ "." → n ≠ ".." → t.entryAt? (here ++ [n]) = none → rest ≠ [] →
      Walks t links here (n :: rest) (.error .missing)
  | down {links here n rest r} : n ≠ "." → n ≠ ".." → t.entryAt? (here ++ [n]) = some .directory →
      Walks t links (here ++ [n]) rest r → Walks t links here (n :: rest) r
  | file {links here n bytes} : n ≠ "." → n ≠ ".." →
      t.entryAt? (here ++ [n]) = some (.file bytes) →
      Walks t links here [n] (.ok (.entry (here ++ [n]) (.file bytes)))
  | blocked {links here n rest bytes} : n ≠ "." → n ≠ ".." →
      t.entryAt? (here ++ [n]) = some (.file bytes) → rest ≠ [] →
      Walks t links here (n :: rest) (.error .notDirectory)
  | spent {here n rest target} : n ≠ "." → n ≠ ".." →
      t.entryAt? (here ++ [n]) = some (.link target) →
      Walks t 0 here (n :: rest) (.error .tooManyLinks)
  | follow {links here n rest target r} : n ≠ "." → n ≠ ".." →
      t.entryAt? (here ++ [n]) = some (.link target) → Walks t links [] (target ++ rest) r →
      Walks t (links + 1) here (n :: rest) r

variable {t t' : FileTree} {links : Nat} {here k l : Location} {steps : List String} {e : Entry}

/-! ### Entries and the directories above them -/

theorem isLocation_of_entryAt? (h : t.entryAt? l = some e) : Path.IsLocation l := by
  by_cases hl : l = []
  · subst hl; exact fun n hn => by simp at hn
  · unfold entryAt? Entry.find? at h
    rw [if_neg hl] at h
    exact (t.named _ (Entry.mem_of_lookup h)).2

/-- Everything above an entry is a directory. -/
theorem entryAt?_of_below (hlk : l <+: k) (hne : l ≠ k) (h : (t.entryAt? k).isSome) :
    t.entryAt? l = some .directory := by
  obtain ⟨r, rfl⟩ := hlk
  induction r using List.reverseRecOn with
  | nil => simp at hne
  | append_singleton r n ih =>
    have hd : t.entryAt? (l ++ r) = some .directory := by
      have := t.entryAt?_dropLast h
      rwa [← List.append_assoc, List.dropLast_concat] at this
    by_cases hr : r = []
    · rwa [hr, List.append_nil] at hd
    · exact ih (by simpa using hr) (by rw [hd]; rfl)

/-- Where nothing stands, nothing stands below. -/
theorem entryAt?_eq_none_of_above (hlk : l <+: k) (h : t.entryAt? l = none) :
    t.entryAt? k = none := by
  by_cases hne : l = k
  · rwa [← hne]
  · by_contra hk
    have := entryAt?_of_below hlk hne (Option.isSome_iff_ne_none.2 hk)
    rw [h] at this
    cases this

theorem entryAt?_dropLast_of_directory (h : t.entryAt? l = some .directory) :
    t.entryAt? l.dropLast = some .directory :=
  t.entryAt?_dropLast (by rw [h]; rfl)

/-! ### The course of a walk -/

/-- Up to its first link a walk takes its course, if what comes behind the link does. -/
theorem walks_walkToLink {goOn : List String → Except Fault Found}
    (hgo : ∀ {here n target rest}, n ≠ "." → n ≠ ".." →
      t.entryAt? (here ++ [n]) = some (.link target) →
      Walks t links here (n :: rest) (goOn (target ++ rest)))
    (here : Location) (steps : List String) :
    Walks t links here steps (t.walkToLink goOn here steps) := by
  fun_induction walkToLink t goOn here steps with
  | case1 => exact .arrive
  | case2 _ _ ih => exact .stay ih
  | case3 _ _ _ ih => exact .up ih
  | case4 _ _ h1 h2 hn => exact .vacant h1 h2 hn
  | case5 _ _ _ h1 h2 hn hr => exact .lost h1 h2 hn hr
  | case6 _ _ _ h1 h2 hd ih => exact .down h1 h2 hd ih
  | case7 _ _ h1 h2 _ hf => exact .file h1 h2 hf
  | case8 _ _ _ h1 h2 _ hf hr => exact .blocked h1 h2 hf hr
  | case9 _ _ _ h1 h2 _ hl => exact hgo h1 h2 hl

theorem walks_walk (t : FileTree) (links : Nat) (here : Location) (steps : List String) :
    Walks t links here steps (t.walk links here steps) := by
  induction links generalizing here steps with
  | zero => exact walks_walkToLink (fun h1 h2 hl => .spent h1 h2 hl) here steps
  | succ links ih => exact walks_walkToLink (fun h1 h2 hl => .follow h1 h2 hl (ih _ _)) here steps

/-- What the first step of a walk does. -/
theorem walk_cons (t : FileTree) (links : Nat) (here : Location) (n : String) (rest : List String) :
    t.walk links here (n :: rest) =
      if n = "." then t.walk links here rest
      else if n = ".." then t.walk links here.dropLast rest
      else
        match t.entryAt? (here ++ [n]) with
        | none => if rest = [] then .ok (.vacant (here ++ [n])) else .error .missing
        | some .directory => t.walk links (here ++ [n]) rest
        | some (.file bytes) =>
          if rest = [] then .ok (.entry (here ++ [n]) (.file bytes)) else .error .notDirectory
        | some (.link target) =>
          match links with
          | 0 => .error .tooManyLinks
          | links + 1 => t.walk links [] (target ++ rest) := by
  cases links <;> rfl

theorem Walks.eq {r : Except Fault Found} (h : Walks t links here steps r) :
    t.walk links here steps = r := by
  induction h with
  | @arrive links => cases links <;> rfl
  | stay _ ih => rw [walk_cons, if_pos rfl, ih]
  | up _ ih => rw [walk_cons, if_neg (by decide), if_pos rfl, ih]
  | vacant h1 h2 hn => rw [walk_cons, if_neg h1, if_neg h2, hn]; rfl
  | lost h1 h2 hn hr => rw [walk_cons, if_neg h1, if_neg h2, hn]; exact if_neg hr
  | down h1 h2 hd _ ih => rw [walk_cons, if_neg h1, if_neg h2, hd]; exact ih
  | file h1 h2 hf => rw [walk_cons, if_neg h1, if_neg h2, hf]; rfl
  | blocked h1 h2 hf hr => rw [walk_cons, if_neg h1, if_neg h2, hf]; exact if_neg hr
  | spent h1 h2 hl => rw [walk_cons, if_neg h1, if_neg h2, hl]
  | follow h1 h2 hl _ ih => rw [walk_cons, if_neg h1, if_neg h2, hl]; exact ih

/-- A walk ends as its course does. -/
theorem walks_iff {r : Except Fault Found} :
    Walks t links here steps r ↔ t.walk links here steps = r :=
  ⟨Walks.eq, fun h => h ▸ walks_walk t links here steps⟩

/-! ### Where a walk ends -/

/-- A walk that finds an entry finds the one at that place. -/
theorem entryAt?_of_walk (hh : t.entryAt? here = some .directory)
    (h : t.walk links here steps = .ok (.entry k e)) : t.entryAt? k = some e := by
  have hw := walks_iff.2 h
  clear h
  generalize hr : Except.ok (Found.entry k e) = r at hw
  induction hw with
  | arrive => cases hr; exact hh
  | stay _ ih => exact ih hh hr
  | up _ ih => exact ih (entryAt?_dropLast_of_directory hh) hr
  | vacant | lost | blocked | spent => cases hr
  | down _ _ hd _ ih => exact ih hd hr
  | file _ _ hf => cases hr; exact hf
  | follow _ _ _ _ ih => exact ih t.entryAt?_nil hr

/-- No walk ends at a link. -/
theorem ne_link_of_walk (h : t.walk links here steps = .ok (.entry k e)) :
    ∀ target, e ≠ .link target := by
  have hw := walks_iff.2 h
  clear h
  generalize hr : Except.ok (Found.entry k e) = r at hw
  induction hw with
  | arrive | file => cases hr; exact nofun
  | stay _ ih | up _ ih => exact ih hr
  | vacant | lost | blocked | spent => cases hr
  | down _ _ _ _ ih => exact ih hr
  | follow _ _ _ _ ih => exact ih hr

/-- A walk that finds a vacant place stands in the directory that the place belongs to. -/
theorem vacant_of_walk (hh : t.entryAt? here = some .directory)
    (h : t.walk links here steps = .ok (.vacant k)) :
    t.entryAt? k = none ∧ t.entryAt? k.dropLast = some .directory := by
  have hw := walks_iff.2 h
  clear h
  generalize hr : Except.ok (Found.vacant k) = r at hw
  induction hw with
  | arrive | lost | file | blocked | spent => cases hr
  | stay _ ih => exact ih hh hr
  | up _ ih => exact ih (entryAt?_dropLast_of_directory hh) hr
  | vacant _ _ hn => cases hr; exact ⟨hn, by rwa [List.dropLast_concat]⟩
  | down _ _ hd _ ih => exact ih hd hr
  | follow _ _ _ _ ih => exact ih t.entryAt?_nil hr

/-- A walk over names that lead to a directory goes on from there, with as many links left as the
way to it has spared. -/
theorem walk_append (h : t.walk links here steps = .ok (.entry l .directory)) :
    ∃ left ≤ links, ∀ more, t.walk links here (steps ++ more) = t.walk left l more := by
  have hw := walks_iff.2 h
  clear h
  generalize hr : Except.ok (Found.entry l .directory) = r at hw
  induction hw with
  | @arrive links => cases hr; exact ⟨links, Nat.le_refl _, fun _ => rfl⟩
  | stay _ ih =>
    obtain ⟨left, hl, hm⟩ := ih hr
    exact ⟨left, hl, fun more => walks_iff.1 (.stay (walks_iff.2 (hm more)))⟩
  | up _ ih =>
    obtain ⟨left, hl, hm⟩ := ih hr
    exact ⟨left, hl, fun more => walks_iff.1 (.up (walks_iff.2 (hm more)))⟩
  | vacant | lost | file | blocked | spent => cases hr
  | down h1 h2 hd _ ih =>
    obtain ⟨left, hl, hm⟩ := ih hr
    exact ⟨left, hl, fun more => walks_iff.1 (.down h1 h2 hd (walks_iff.2 (hm more)))⟩
  | follow h1 h2 ht _ ih =>
    obtain ⟨left, hl, hm⟩ := ih hr
    refine ⟨left, Nat.le_succ_of_le hl, fun more => walks_iff.1 (.follow h1 h2 ht ?_)⟩
    have := walks_iff.2 (hm more)
    rwa [List.append_assoc] at this

/-- A walk down through directories, which passes no link. -/
theorem walk_down : ∀ {ns : List String} {here : Location}, t.entryAt? here = some .directory →
    Path.IsLocation ns → t.entryAt? (here ++ ns) = some e → (∀ target, e ≠ .link target) →
    t.walk links here ns = .ok (.entry (here ++ ns) e)
  | [], here, hh, _, he, _ => by
    rw [List.append_nil] at he ⊢
    obtain rfl := Option.some.inj (hh.symm.trans he)
    exact walks_iff.1 .arrive
  | n :: ns, here, hh, hnames, he, hlink => by
    obtain ⟨hn, hns⟩ := List.forall_mem_cons.1 hnames
    have happ : here ++ n :: ns = (here ++ [n]) ++ ns := by
      rw [List.append_assoc, List.singleton_append]
    by_cases hnil : ns = []
    · subst hnil
      cases e with
      | file bytes => exact walks_iff.1 (.file hn.2.1 hn.2.2.1 he)
      | directory => exact walks_iff.1 (.down hn.2.1 hn.2.2.1 he .arrive)
      | link target => exact absurd rfl (hlink target)
    · have hd : t.entryAt? (here ++ [n]) = some .directory := by
        refine entryAt?_of_below ⟨ns, happ.symm⟩ ?_ (by rw [he]; rfl)
        rw [happ]
        simpa using hnil
      rw [happ] at he ⊢
      exact walks_iff.1 (.down hn.2.1 hn.2.2.1 hd (walks_iff.2 (walk_down hd hns he hlink)))

/-- A vacant place at the end of a walk is a name in the directory to which the others lead. -/
theorem walk_concat_of_vacant {ns : List String} {n : String} (hn : Path.IsName n)
    (h : t.walk links here ns = .ok (.entry l .directory)) (hv : t.entryAt? (l ++ [n]) = none) :
    t.walk links here (ns ++ [n]) = .ok (.vacant (l ++ [n])) := by
  obtain ⟨left, -, hw⟩ := walk_append h
  rw [hw]
  exact walks_iff.1 (.vacant hn.2.1 hn.2.2.1 hv)

@[simp] theorem walk_nil (t : FileTree) (links : Nat) (here : Location) :
    t.walk links here [] = .ok (.entry here .directory) := walks_iff.1 .arrive

/-- A normal path leads where its names lead. -/
theorem find_ofLocation (t : FileTree) (hl : Path.IsLocation l) :
    t.find (Path.ofLocation l) = t.walk maxLinks [] l := by
  by_cases hne : l = []
  · subst hne
    rw [walk_nil]
    exact walks_iff.1 (.stay .arrive)
  · rw [find, Path.steps_ofLocation hl hne]

/-! ### Trees that have grown -/

/-- A tree that keeps the entries of another one, files up to their bytes, and has no new links. -/
structure Grown (t t' : FileTree) : Prop where
  keeps : ∀ {k e}, t.entryAt? k = some e → ∃ f, t'.entryAt? k = some f ∧ e.Like f
  fresh : ∀ {k}, t.entryAt? k = none → ∀ target, t'.entryAt? k ≠ some (.link target)

/-- The targets of all links are lists of names, without `.` and `..`. -/
def LinksAreNormal (t : FileTree) : Prop :=
  ∀ k target, t.entryAt? k = some (.link target) → Path.IsLocation target

namespace Grown

theorem directory (g : Grown t t') (h : t.entryAt? k = some .directory) :
    t'.entryAt? k = some .directory := by
  obtain ⟨f, hf, hl⟩ := g.keeps h
  rwa [← Entry.Like.directory_iff.1 hl]

theorem link (g : Grown t t') {target : Location} (h : t.entryAt? k = some (.link target)) :
    t'.entryAt? k = some (.link target) := by
  obtain ⟨f, hf, hl⟩ := g.keeps h
  rwa [← Entry.Like.link_iff.1 hl]

theorem file (g : Grown t t') {bytes : List UInt8} (h : t.entryAt? k = some (.file bytes)) :
    ∃ bytes', t'.entryAt? k = some (.file bytes') := by
  obtain ⟨f, hf, hl⟩ := g.keeps h
  obtain ⟨bytes', rfl⟩ := Entry.Like.file_iff.1 hl
  exact ⟨bytes', hf⟩

/-- A walk that has found an entry finds it again. -/
theorem walk (g : Grown t t') (h : t.walk links here steps = .ok (.entry k e)) :
    ∃ f, t'.walk links here steps = .ok (.entry k f) ∧ e.Like f := by
  have hw := walks_iff.2 h
  clear h
  simp only [← walks_iff]
  generalize hr : Except.ok (Found.entry k e) = r at hw
  induction hw with
  | arrive => cases hr; exact ⟨.directory, .arrive, rfl⟩
  | stay _ ih =>
    obtain ⟨f, hw, hf⟩ := ih hr
    exact ⟨f, .stay hw, hf⟩
  | up _ ih =>
    obtain ⟨f, hw, hf⟩ := ih hr
    exact ⟨f, .up hw, hf⟩
  | vacant | lost | blocked | spent => cases hr
  | down h1 h2 hd _ ih =>
    obtain ⟨f, hw, hf⟩ := ih hr
    exact ⟨f, .down h1 h2 (g.directory hd) hw, hf⟩
  | file h1 h2 hf =>
    cases hr
    obtain ⟨bytes', hf'⟩ := g.file hf
    exact ⟨.file bytes', .file h1 h2 hf', trivial⟩
  | follow h1 h2 ht _ ih =>
    obtain ⟨f, hw, hf⟩ := ih hr
    exact ⟨f, .follow h1 h2 (g.link ht) hw, hf⟩

/-- A walk that has found a vacant place finds what has been put there. -/
theorem walk_of_vacant (g : Grown t t') (h : t.walk links here steps = .ok (.vacant k))
    (hk : t.entryAt? k = none) (he : t'.entryAt? k = some e) :
    t'.walk links here steps = .ok (.entry k e) := by
  have hw := walks_iff.2 h
  clear h
  rw [← walks_iff]
  generalize hr : Except.ok (Found.vacant k) = r at hw
  induction hw with
  | arrive | lost | file | blocked | spent => cases hr
  | stay _ ih => exact .stay (ih hr)
  | up _ ih => exact .up (ih hr)
  | vacant h1 h2 =>
    cases hr
    cases e with
    | file bytes => exact .file h1 h2 he
    | directory => exact .down h1 h2 he .arrive
    | link target => exact absurd he (g.fresh hk target)
  | down h1 h2 hd _ ih => exact .down h1 h2 (g.directory hd) (ih hr)
  | follow h1 h2 ht _ ih => exact .follow h1 h2 (g.link ht) (ih hr)

/-- What is new has nothing but new things below it. -/
theorem entryAt?_eq_none_of_walk (g : Grown t t') (hh : t.entryAt? here = none)
    (hs : Path.IsLocation steps) (h : t'.walk links here steps = .ok (.entry k e)) :
    t.entryAt? k = none := by
  have below : ∀ {l : Location} (n : String), t.entryAt? l = none → t.entryAt? (l ++ [n]) = none :=
    fun n hl => entryAt?_eq_none_of_above (List.prefix_append _ [n]) hl
  have hw := walks_iff.2 h
  clear h
  generalize hr : Except.ok (Found.entry k e) = r at hw
  induction hw with
  | arrive => cases hr; exact hh
  | stay => exact absurd rfl (hs _ List.mem_cons_self).2.1
  | up => exact absurd rfl (hs _ List.mem_cons_self).2.2.1
  | vacant | lost | blocked | spent => cases hr
  | @down _ _ n _ _ _ _ _ _ ih => exact ih (below n hh) (List.forall_mem_cons.1 hs).2 hr
  | @file _ _ n => cases hr; exact below n hh
  | @follow _ _ n _ target _ _ _ ht => exact absurd ht (g.fresh (below n hh) target)

/-- A walk that neither goes up nor meets links that lead up finds what it has found before, or
something new. -/
theorem walk_cases (g : Grown t t') (hl : t.LinksAreNormal) (hs : Path.IsLocation steps)
    (h : t'.walk links here steps = .ok (.entry k e)) :
    (∃ f, t.walk links here steps = .ok (.entry k f)) ∨ t.entryAt? k = none := by
  have hw := walks_iff.2 h
  clear h
  simp only [← walks_iff]
  generalize hr : Except.ok (Found.entry k e) = r at hw
  induction hw with
  | arrive => cases hr; exact .inl ⟨.directory, .arrive⟩
  | stay => exact absurd rfl (hs _ List.mem_cons_self).2.1
  | up => exact absurd rfl (hs _ List.mem_cons_self).2.2.1
  | vacant | lost | blocked | spent => cases hr
  | @down _ here n _ _ h1 h2 hd hw ih =>
    have hs' := (List.forall_mem_cons.1 hs).2
    cases ht : t.entryAt? (here ++ [n]) with
    | none => exact .inr (g.entryAt?_eq_none_of_walk ht hs' (walks_iff.1 (hr ▸ hw)))
    | some f =>
      obtain ⟨_, hf, hlike⟩ := g.keeps ht
      cases hd.symm.trans hf
      obtain rfl := Entry.Like.iff_directory.1 hlike
      rcases ih hs' hr with ⟨f, hw'⟩ | hk
      · exact .inl ⟨f, .down h1 h2 ht hw'⟩
      · exact .inr hk
  | @file _ here n _ h1 h2 hd =>
    cases hr
    cases ht : t.entryAt? (here ++ [n]) with
    | none => exact .inr rfl
    | some f =>
      obtain ⟨_, hf, hlike⟩ := g.keeps ht
      cases hd.symm.trans hf
      obtain ⟨bytes, rfl⟩ := Entry.Like.iff_file.1 hlike
      exact .inl ⟨_, .file h1 h2 ht⟩
  | @follow _ here n _ target _ h1 h2 hd _ ih =>
    cases ht : t.entryAt? (here ++ [n]) with
    | none => exact absurd hd (g.fresh ht target)
    | some f =>
      obtain ⟨_, hf, hlike⟩ := g.keeps ht
      cases hd.symm.trans hf
      obtain rfl := Entry.Like.iff_link.1 hlike
      rcases ih ((hl _ _ ht).append (List.forall_mem_cons.1 hs).2) hr with ⟨f, hw'⟩ | hk
      · exact .inl ⟨f, .follow h1 h2 ht hw'⟩
      · exact .inr hk

end Grown

end FileTree

end ApiReport
