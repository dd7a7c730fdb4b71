import ApiReport.Proofs.FileTree.Reach
import ApiReport.Proofs.Lookup
import ApiReport.Proofs.Path.Spelling
import ApiReport.Script

/-!
# Reading environment files

Every file read assigns over what the environment holds so far. So after all of them a variable has
the value that the last file with an assignment to it gives it, be it empty, and else its value from
before. A file is not read again under a second name. Of the three files of a directory only
neighbours can be one file, since their paths end differently otherwise, and a file read twice in a
row assigns what it has assigned before.

Key definitions: `Environment.assigned?`, `Environment.effective?`, `Environment.Loaded.IsOverlaid`.
Key theorems: `Environment.lookup_assign`, `Environment.isOverlaid_load`, `Environment.files_load`,
`Environment.files_load_pair`, `Environment.lookup_load`.
-/
namespace ApiReport

namespace Environment

variable {t : FileTree} {env : Environment} {before : Loaded} {name path : String}

/-! ### What files assign -/

/-- The text of a file; what cannot be read has none. -/
def fileText (t : FileTree) (path : String) : List Char :=
  match t.read path with
  | .ok bytes => Text.Utf8.decode bytes
  | .error _ => []

/-- The value that a file, if there is one, assigns to a variable, the last one if it assigns
several. -/
def assigned? (t : FileTree) (name path : String) : Option String :=
  if t.exists? path then (EnvFile.assignments (fileText t path)).reverse.lookup name else none

/-- The value of a variable as the last of the files of a directory that assigns one has it, or else
as the environment has it. -/
def effective? (t : FileTree) (directory : String) (env : Environment) (name : String) :
    Option String :=
  (((fileNames env.stage).map (Path.within directory)).reverse.findSome? (assigned? t name)).or
    (env.lookup name)

/-- Assignments hold over the environment, later ones over earlier ones. -/
theorem lookup_assign (name : String) :
    ∀ (assignments : List (String × String)) (env : Environment),
      (env.assign assignments).lookup name =
        (assignments.reverse.lookup name).or (env.lookup name)
  | [], _ => rfl
  | (key, value) :: rest, env => by
    have ih := lookup_assign name rest (Entries.put key value env)
    rw [assign, List.foldl_cons]
    rw [assign] at ih
    rw [ih, Entries.lookup_put, List.reverse_cons, List.lookup_append, Option.or_assoc,
      List.lookup_cons]
    by_cases hkey : name = key
    · simp [hkey]
    · simp [hkey, beq_eq_false_iff_ne.2 hkey]

/-! ### What the files read so far have assigned -/

/-- An environment with what the files read have assigned over what was there at first. -/
def Loaded.IsOverlaid (t : FileTree) (env : Environment) (l : Loaded) : Prop :=
  ∀ name, l.env.lookup name =
    (l.files.reverse.findSome? (assigned? t name)).or (env.lookup name)

theorem add_of_exists (hexists : t.exists? path = true) (hnew : path ∉ before.files) :
    before.add t path =
      { env := before.env.assign (EnvFile.assignments (fileText t path))
        files := before.files ++ [path] } := by
  unfold Loaded.add
  rw [if_pos (by simp [hexists, hnew])]
  rfl

theorem add_of_not_exists (hexists : t.exists? path = false) : before.add t path = before := by
  unfold Loaded.add
  rw [if_neg (by simp [hexists])]

theorem add_of_mem (hmem : path ∈ before.files) : before.add t path = before := by
  unfold Loaded.add
  rw [if_neg (by simp [hmem])]

theorem files_add (t : FileTree) (before : Loaded) (path : String) : (before.add t path).files =
    before.files ++ if t.exists? path ∧ path ∉ before.files then [path] else [] := by
  by_cases hexists : t.exists? path = true
  · by_cases hmem : path ∈ before.files
    · simp [add_of_mem hmem, hmem]
    · simp [add_of_exists hexists hmem, hexists, hmem]
  · simp [add_of_not_exists (Bool.eq_false_iff.2 hexists), hexists]

/-- Reading a file keeps what has been assigned, under what the file assigns. -/
theorem Loaded.IsOverlaid.add (h : before.IsOverlaid t env) (path : String) :
    (before.add t path).IsOverlaid t env := by
  by_cases hexists : t.exists? path = true
  · by_cases hmem : path ∈ before.files
    · rwa [add_of_mem hmem]
    · intro name
      rw [add_of_exists hexists hmem, lookup_assign, h name, List.reverse_append,
        List.reverse_singleton, List.singleton_append, List.findSome?_cons]
      have hassigned : assigned? t name path =
          (EnvFile.assignments (fileText t path)).reverse.lookup name := if_pos hexists
      rw [hassigned]
      cases (EnvFile.assignments (fileText t path)).reverse.lookup name <;> rfl
  · rwa [add_of_not_exists (Bool.eq_false_iff.2 hexists)]

theorem isOverlaid_load (t : FileTree) (directories : List String) (env : Environment) :
    (load t directories env).IsOverlaid t env := by
  unfold load
  generalize (fileNames env.stage).flatMap _ = paths
  have hrun : ∀ (paths : List String) (l : Loaded), l.IsOverlaid t env →
      (paths.foldl (Loaded.add t) l).IsOverlaid t env := by
    intro paths
    induction paths with
    | nil => exact fun _ h => h
    | cons path paths ih => exact fun l h => ih _ (h.add path)
  exact hrun paths { env } fun _ => rfl

/-- The files read are those that are there, each where it first comes up. -/
theorem files_load (t : FileTree) (directories : List String) (env : Environment) :
    (load t directories env).files =
      (((fileNames env.stage).flatMap fun name =>
        directories.map fun d => Path.within d name).filter t.exists?).eraseDups := by
  unfold load
  generalize (fileNames env.stage).flatMap _ = paths
  induction paths using List.reverseRecOn with
  | nil => rfl
  | append_singleton paths path ih =>
    rw [List.foldl_append, List.foldl_cons, List.foldl_nil, files_add, ih, List.filter_append,
      List.eraseDups_append]
    have hone : [path].eraseDups = [path] := rfl
    by_cases hexists : t.exists? path = true
    · by_cases hmem : path ∈ paths
      · simp [hexists, hmem, List.removeAll]
      · simp [hexists, hmem, hone, List.removeAll]
    · simp [hexists, List.removeAll]

/-! ### The files of one directory -/

/-- The last name of a path taken from a directory ends like the path. -/
theorem exists_baseName_within {v : String} (hv : '/' ∉ v.toList) (hlength : 2 < v.length)
    (directory u : String) : ∃ n, Path.baseName (Path.within directory (u ++ v)) = n ++ v := by
  have hne : v ≠ "" := by
    rintro rfl
    exact absurd hlength (by decide)
  obtain ⟨ns, n, hnames⟩ := Path.exists_names_append hv hne u
  have hslash : (u ++ v).toList.getLast? ≠ some '/' := by
    have hlast : v.toList ≠ [] := by simpa using hne
    rw [String.toList_append, List.getLast?_append_of_ne_nil _ hlast]
    exact fun h => hv (List.mem_of_getLast? h)
  have hlong : 2 < (n ++ v).length := by
    rw [String.length_append]
    omega
  have hdot : n ++ v ≠ "." := fun h => absurd (h ▸ hlong) (by decide)
  have hdots : n ++ v ≠ ".." := fun h => absurd (h ▸ hlong) (by decide)
  have hroot : Path.IsLocation [] := fun _ h => by cases h
  have hlocation := Path.locate_isLocation (Path.locate_isLocation hroot directory) (u ++ v)
  refine ⟨n, ?_⟩
  rw [Path.within, if_neg hslash, String.append_empty, Path.resolve,
    Path.baseName_ofLocation hlocation, Path.locate, hnames, Path.collapse_append, Path.collapse,
    if_neg hdot, if_neg hdots, Path.collapse, List.getLast?_concat, Option.getD_some]

/-- The first and the last of the files of a directory are two. -/
theorem within_local_ne (directory stage : String) :
    Path.within directory (".env." ++ stage ++ ".local") ≠ Path.within directory ".env" := by
  intro h
  obtain ⟨n, hlocal⟩ :=
    exists_baseName_within (v := ".local") (by decide) (by decide) directory (".env." ++ stage)
  obtain ⟨m, hplain⟩ := exists_baseName_within (v := ".env") (by decide) (by decide) directory ""
  have heq : n ++ ".local" = m ++ ".env" := by
    rw [← hlocal, h, ← hplain]
    rfl
  have hlast := congrArg (fun s : String => s.toList.getLast?) heq
  simp at hlast

/-- In a search from the end, elements without a result make no difference, nor do repeats that
follow each other. -/
theorem findSome?_eraseDups {α β : Type} [BEq α] [LawfulBEq α] {f : α → Option β} {p : α → Bool}
    {a b c : α} (hca : c ≠ a) (hp : ∀ x, p x = false → f x = none) :
    (([a, b, c].filter p).eraseDups).reverse.findSome? f = [c, b, a].findSome? f := by
  have hcons : ∀ x xs, List.findSome? f (x :: xs) = (f x).or (xs.findSome? f) := by
    intro x xs
    rw [List.findSome?_cons]
    cases f x <;> rfl
  have hrepeat : ∀ x (r : Option β), (f x).or ((f x).or r) = (f x).or r := by
    intro x r
    rw [← Option.or_assoc, Option.or_self]
  by_cases hba : b = a
  · subst hba
    cases hb : p b <;> cases hc : p c <;>
      simp [hb, hc, hca, hcons, hp, List.eraseDups_cons]
  · by_cases hcb : c = b
    · subst hcb
      cases ha : p a <;> cases hc : p c <;>
        simp [ha, hc, hba, hcons, hp, hrepeat, List.eraseDups_cons]
    · cases ha : p a <;> cases hb : p b <;> cases hc : p c <;>
        simp [ha, hb, hc, hba, hcb, hca, hcons, hp, List.eraseDups_cons]

section OneDirectory

variable {directory other : String}

/-- The files read are those of the one directory that are there, if there are none in the other. -/
theorem files_load_pair
    (hother : ∀ file ∈ fileNames env.stage, t.exists? (Path.within other file) = false) :
    (load t [directory, other] env).files =
      (((fileNames env.stage).map (Path.within directory)).filter t.exists?).eraseDups := by
  simp only [fileNames, List.forall_mem_cons] at hother
  obtain ⟨h₁, h₂, h₃, -⟩ := hother
  rw [files_load]
  simp [fileNames, List.filter_cons, h₁, h₂, h₃]

/-- **What a variable is after the files of a directory have been read**, if there are none in the
other directory that is searched. -/
theorem lookup_load
    (hother : ∀ file ∈ fileNames env.stage, t.exists? (Path.within other file) = false)
    (name : String) :
    (load t [directory, other] env).env.lookup name = effective? t directory env name := by
  have hnone : ∀ path, t.exists? path = false → assigned? t name path = none :=
    fun path hpath => if_neg (by simp [hpath])
  have hpaths : (fileNames env.stage).map (Path.within directory) =
      [Path.within directory ".env", Path.within directory (".env." ++ env.stage),
        Path.within directory (".env." ++ env.stage ++ ".local")] := rfl
  have hlookup := isOverlaid_load t [directory, other] env name
  rw [files_load_pair hother, hpaths,
    findSome?_eraseDups (within_local_ne directory env.stage) hnone] at hlookup
  rw [hlookup, effective?, hpaths]
  rfl

end OneDirectory

end Environment

end ApiReport
