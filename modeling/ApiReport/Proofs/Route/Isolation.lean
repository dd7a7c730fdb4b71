import ApiReport.Proofs.FileTree.Difference
import ApiReport.Proofs.Route.Survey

/-!
# Files are scanned in isolation

What a survey finds in a file depends on this file alone. If a file changes, appears or goes, then
the survey is the same as before but for this file: the other files are scanned in the same order,
and the routes that they declare keep their order, since a stable sort and a filter can be taken in
either order.

A file that several scan roots lead to, some of them through links, has several paths; its routes
have any of them as their source.

Key definitions: `Route.isPathOf`, `Route.Survey.AgreesApart`.
Key theorems: `Route.scanned_filter`, `Route.filter_routesOf`, `Route.Survey.ofTree_isolated`.
-/
namespace ApiReport.Route

variable {t t' : FileTree} {s : Settings} {l : Location}

/-- Whether a path stands for the file at a location: it leads there, or it is the path that a
search of a scan root gives to the file. -/
def isPathOf (t : FileTree) (s : Settings) (l : Location) (file : String) : Bool :=
  t.leadsTo file l || s.scanRoots.any fun root =>
    match t.stat root with
    | .ok (k, .directory) => (FileTree.below? k l).any fun names =>
        file = names.foldl Path.child root
    | _ => false

theorem leadsTo_eq_false {file : String} (h : isPathOf t s l file = false) :
    t.leadsTo file l = false :=
  (Bool.or_eq_false_iff.1 h).1

/-- A search of a scan root gives a path of the file to no other file. -/
theorem ne_of_isPathOf_eq_false {root : String} {k : Location} {names : List String}
    (hroot : root ∈ s.scanRoots) (hstat : t.stat root = .ok (k, .directory)) (hne : names ≠ [])
    (h : isPathOf t s l (names.foldl Path.child root) = false) : k ++ names ≠ l := by
  rintro rfl
  have hbelow : FileTree.below? k (k ++ names) = some names :=
    FileTree.below?_eq_some.2 ⟨rfl, hne⟩
  have hany := List.any_eq_false.1 (Bool.or_eq_false_iff.1 h).2 root hroot
  rw [hstat] at hany
  simp [hbelow] at hany

/-- If scan roots are normal, the paths of a file are those that lead to it. -/
theorem isPathOf_eq (h : t.DiffersAt t' l) (hn : ∀ root ∈ s.scanRoots, Path.IsNormal root)
    (file : String) : isPathOf t s l file = t.leadsTo file l := by
  unfold isPathOf
  cases hlead : t.leadsTo file l with
  | true => rfl
  | false =>
    rw [Bool.false_or, List.any_eq_false]
    intro root hroot hpath
    split at hpath
    · next k hstat =>
      obtain ⟨names, hbelow, hfile⟩ := Option.any_eq_true _ _ |>.1 hpath
      have hl := (FileTree.below?_eq_some.1 hbelow).1
      rw [of_decide_eq_true hfile, h.leadsTo_below (hn root hroot) hstat hl] at hlead
      cases hlead
    · cases hpath

/-! ### The files that are scanned -/

theorem existingRoots_eq (h : t.DiffersAt t' l) (s : Settings) :
    existingRoots t' s = existingRoots t s :=
  List.filter_congr fun root _ => h.isDirectory_eq root

/-- A search of a scan root finds the same other files. -/
theorem listed_filter (h : t.DiffersAt t' l) {root : String} (hroot : root ∈ existingRoots t s) :
    (t'.listed s.sourceExtension root).filter (fun file => !isPathOf t s l file) =
      (t.listed s.sourceExtension root).filter fun file => !isPathOf t s l file := by
  obtain ⟨hmem, hdir⟩ := mem_existingRoots.1 hroot
  obtain ⟨-, k, hstat⟩ := FileTree.isDirectory_iff.1 hdir
  rw [FileTree.listed_of_stat hstat, FileTree.listed_of_stat (h.stat_directory hstat),
    List.filter_map, List.filter_map, h.listing_filter]
  intro names hne hpath
  exact ne_of_isPathOf_eq_false hmem hstat hne (by simpa using hpath)

theorem scanned_filter (h : t.DiffersAt t' l) (s : Settings) :
    (scanned t' s).filter (fun file => !isPathOf t s l file) =
      (scanned t s).filter fun file => !isPathOf t s l file := by
  have hfound : ∀ u : FileTree, (scanned u s).filter (fun file => !isPathOf t s l file) =
      (((existingRoots u s).flatMap fun root =>
        (u.listed s.sourceExtension root).filter fun file => !isPathOf t s l file).eraseDups).filter
          fun file => !s.excludedFiles.contains file := by
    intro u
    rw [scanned, List.filter_filter, ← List.filter_flatMap, Text.eraseDups_filter,
      List.filter_filter]
    simp only [Bool.and_comm]
  rw [hfound, hfound, existingRoots_eq h]
  congr 2
  exact List.flatMap_congr fun root hroot => listed_filter h hroot

/-! ### What they declare -/

/-- A path that does not stand for the file is read alike. -/
theorem Source.read_eq_ok_iff (h : t.DiffersAt t' l) {file : String} {f : Source}
    (hfile : isPathOf t s l file = false) : Source.read t' file = .ok f ↔ Source.read t file = .ok f := by
  unfold Source.read
  simp only [map_eq_ok, h.read_eq_ok_iff (leadsTo_eq_false hfile)]

theorem filter_forall₂_read {u : FileTree} {files : List String} {sources : List Source}
    (p : String → Bool) (hs : files.Forall₂ (fun file f => Source.read u file = .ok f) sources) :
    (files.filter p).Forall₂ (fun file f => Source.read u file = .ok f)
      (sources.filter fun f => p f.path) := by
  refine List.rel_filter (fun file f hread => ?_) hs
  simp only [Source.path_of_read hread]

/-- The other files are read alike. -/
theorem filter_sources (h : t.DiffersAt t' l) {files files' : List String}
    {sources sources' : List Source}
    (hs : files.Forall₂ (fun file f => Source.read t file = .ok f) sources)
    (hs' : files'.Forall₂ (fun file f => Source.read t' file = .ok f) sources')
    (hfiles : files'.filter (fun file => !isPathOf t s l file) =
      files.filter fun file => !isPathOf t s l file) :
    sources'.filter (fun f => !isPathOf t s l f.path) =
      sources.filter fun f => !isPathOf t s l f.path := by
  have hunique : Relator.RightUnique fun file f => Source.read t file = .ok f := by
    intro file f g hf hg
    exact Except.ok.inj (hf.symm.trans hg)
  have hread := filter_forall₂_read (fun file => !isPathOf t s l file) hs
  have hread' := filter_forall₂_read (fun file => !isPathOf t s l file) hs'
  rw [hfiles] at hread'
  have hapart : ∀ file ∈ files.filter fun file => !isPathOf t s l file,
      isPathOf t s l file = false := by
    intro file hfile
    simpa using (List.mem_filter.1 hfile).2
  have halike := ((List.forall₂_and_left _ _).2 ⟨hapart, hread'⟩).imp
    fun file f hf => (Source.read_eq_ok_iff h hf.1).1 hf.2
  exact hunique.forall₂ halike hread

/-- A file's routes are kept or left out as a whole. -/
theorem filter_routesOf (routesFileName : String) (p : String → Bool) (sources : List Source) :
    (routesOf routesFileName sources).filter (fun r => p r.source) =
      routesOf routesFileName (sources.filter fun f => p f.path) := by
  -- the routes of one kind, of which a file declares all with its own path
  have hkind : ∀ kind : Source → List Route, (∀ f, ∀ r ∈ kind f, r.source = f.path) →
      (sources.flatMap kind).filter (fun r => p r.source) =
        (sources.filter fun f => p f.path).flatMap kind := by
    intro kind hkind
    rw [List.filter_flatMap, flatMap_filter]
    refine List.flatMap_congr fun f _ => ?_
    have hall : (kind f).filter (fun r => p r.source) = (kind f).filter fun _ => p f.path := by
      refine List.filter_congr fun r hr => ?_
      rw [hkind f r hr]
    rw [hall]
    cases p f.path with
    | true => exact List.filter_eq_self.2 fun _ _ => rfl
    | false => exact List.filter_eq_nil_iff.2 fun _ _ => by decide
  rw [routesOf_eq, routesOf_eq, List.filter_append, hkind, hkind]
  · intro f r hr
    have hroutes : r ∈ f.routes routesFileName := List.mem_append_right _ hr
    exact Source.source_of_mem_routes hroutes
  · intro f r hr
    have hroutes : r ∈ f.routes routesFileName := List.mem_append_left _ hr
    exact Source.source_of_mem_routes hroutes

namespace Survey

/-- Two surveys that agree on every file but some: these are scanned in the same order, declare the
same routes in the same order, and the same of them are no text or declare any route at all. -/
structure AgreesApart (v v' : Survey) (isOf : String → Bool) : Prop where
  files : v'.files.filter (fun file => !isOf file) = v.files.filter fun file => !isOf file
  lossy : v'.lossy.filter (fun file => !isOf file) = v.lossy.filter fun file => !isOf file
  routes : v'.routes.filter (fun r => !isOf r.source) = v.routes.filter fun r => !isOf r.source
  filesWithRoutes : v'.filesWithRoutes.filter (fun file => !isOf file) =
    v.filesWithRoutes.filter fun file => !isOf file

theorem filter_filesWithRoutes (p : String → Bool) (v : Survey) :
    v.filesWithRoutes.filter p =
      Text.sortByKey id ((v.routes.filter fun r => p r.source).map Route.source).eraseDups := by
  rw [filesWithRoutes, ← Text.sortByKey_filter, ← Text.eraseDups_filter, List.filter_map]
  rfl

theorem agreesApart_of_ofTree (h : t.DiffersAt t' l)
    (hroot : ∃ root ∈ s.scanRoots, t.isDirectory root = true) {v v' : Survey}
    (hv : ofTree t s = .ok v) (hv' : ofTree t' s = .ok v') :
    v.AgreesApart v' (isPathOf t s l) := by
  have hroot' : ∃ root ∈ s.scanRoots, t'.isDirectory root = true := by
    simpa only [h.isDirectory_eq] using hroot
  obtain ⟨sources, hs, rfl⟩ := (ofTree_eq_ok hroot).1 hv
  obtain ⟨sources', hs', rfl⟩ := (ofTree_eq_ok hroot').1 hv'
  have hsources := filter_sources h hs hs' (scanned_filter h s)
  have hroutes : (sorted (routesOf s.routesFileName sources')).filter
        (fun r => !isPathOf t s l r.source) =
      (sorted (routesOf s.routesFileName sources)).filter fun r => !isPathOf t s l r.source := by
    unfold sorted
    rw [← Text.mergeSort_filter le_total le_trans, ← Text.mergeSort_filter le_total le_trans,
      filter_routesOf _ fun file => !isPathOf t s l file,
      filter_routesOf _ fun file => !isPathOf t s l file, hsources]
  refine ⟨scanned_filter h s, ?_, hroutes, ?_⟩
  · dsimp only
    rw [List.filter_map, List.filter_map, List.filter_filter, List.filter_filter]
    simp only [Function.comp_apply, Bool.and_comm _ (Source.lossy _)]
    rw [← List.filter_filter, ← List.filter_filter, hsources]
  · rw [filter_filesWithRoutes fun file => !isPathOf t s l file,
      filter_filesWithRoutes fun file => !isPathOf t s l file, hroutes]

/-- **Files are scanned in isolation.** If two trees differ only in a file, then a survey finds the
same in both of them but for this file: the routes of the other files are the same in the same
order, and so are the other files that declare routes and those that are not text throughout. From
normal scan roots both trees can be surveyed, and the file's paths are those that lead to it. -/
theorem ofTree_isolated (h : t.DiffersAt t' l) (s : Settings)
    (hroot : ∃ root ∈ s.scanRoots, t.isDirectory root = true) :
    (∃ root ∈ s.scanRoots, t'.isDirectory root = true) ∧
      ((∀ root ∈ s.scanRoots, Path.IsNormal root) →
        (∃ v, ofTree t s = .ok v) ∧ (∃ v', ofTree t' s = .ok v') ∧
          ∀ file, isPathOf t s l file = t.leadsTo file l) ∧
      ∀ v v', ofTree t s = .ok v → ofTree t' s = .ok v' →
        v.AgreesApart v' (isPathOf t s l) := by
  have hroot' : ∃ root ∈ s.scanRoots, t'.isDirectory root = true := by
    simpa only [h.isDirectory_eq] using hroot
  refine ⟨hroot', fun hn => ?_, fun v v' => agreesApart_of_ofTree h hroot⟩
  exact ⟨exists_ofTree hroot hn, exists_ofTree hroot' hn, isPathOf_eq h hn⟩

end Survey

/-! ### A sample -/

/-- A project with a second way to its sources. -/
def linkedTree : FileTree := sampleTree.put ["q"] (.link ["p", "src"]) (by decide)

/-- The project with one more source file. -/
def extendedTree : FileTree :=
  linkedTree.put ["p", "src", "B.php"] (.file (Text.Utf8.encode "#[Route('/a')]".toList)) (by decide)

/-- Settings with scan roots on either way. -/
def linkedSettings : Settings := { sampleSettings with scanRoots := ["/p", "/q"] }

/-- The new file has a path below either root, and the other file is scanned as before. -/
theorem Survey.ofTree_isolated_sample :
    linkedTree.DiffersAt extendedTree ["p", "src", "B.php"] ∧
      (∃ root ∈ linkedSettings.scanRoots, linkedTree.isDirectory root = true) ∧
      (∀ root ∈ linkedSettings.scanRoots, Path.IsNormal root) ∧
      (linkedTree.leadsTo "/p/src/B.php" ["p", "src", "B.php"] = true ∧
        linkedTree.leadsTo "/q/B.php" ["p", "src", "B.php"] = true) ∧
      ∃ v v', ofTree linkedTree linkedSettings = .ok v ∧
        ofTree extendedTree linkedSettings = .ok v' ∧
        v'.files.filter (fun file => !linkedTree.leadsTo file ["p", "src", "B.php"]) =
          ["/p/src/A.php", "/q/A.php"] ∧
        v'.routes.filter (fun r => !linkedTree.leadsTo r.source ["p", "src", "B.php"]) =
          v.routes.filter fun r => !linkedTree.leadsTo r.source ["p", "src", "B.php"] := by
  have hdiffers : linkedTree.DiffersAt extendedTree ["p", "src", "B.php"] :=
    FileTree.differsAt_put (by decide) fun e he => by
      have hnone : linkedTree.entryAt? ["p", "src", "B.php"] = none := by decide +kernel
      rw [hnone] at he
      cases he
  have hroot : ∃ root ∈ linkedSettings.scanRoots, linkedTree.isDirectory root = true :=
    ⟨"/p", by decide, by decide +kernel⟩
  have hn : ∀ root ∈ linkedSettings.scanRoots, Path.IsNormal root := by decide +kernel
  obtain ⟨-, hok, hagree⟩ := Survey.ofTree_isolated hdiffers linkedSettings hroot
  obtain ⟨⟨v, hv⟩, ⟨v', hv'⟩, hpaths⟩ := hok hn
  have hfiles : (ofTree linkedTree linkedSettings).toOption.map (fun v =>
      v.files.filter fun file => !linkedTree.leadsTo file ["p", "src", "B.php"]) =
        some ["/p/src/A.php", "/q/A.php"] := by decide +kernel
  rw [hv] at hfiles
  have hothers := hagree v v' hv hv'
  rw [funext hpaths] at hothers
  exact ⟨hdiffers, hroot, hn, by decide +kernel, v, v', hv, hv',
    hothers.files.trans (Option.some.inj hfiles), hothers.routes⟩

end ApiReport.Route
