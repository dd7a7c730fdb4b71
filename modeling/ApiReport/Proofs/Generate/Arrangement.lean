import ApiReport.Proofs.Route.Coverage

/-!
# How directories are listed

The same project can be described by several settings: directories and excluded files may stand in
another order or more than once, directories that are missing may stand among them, and so may scan
roots that lie below another one. What is scanned does not depend on that, nor do the routes that
are found and the controllers without any. Only routes that agree on both path and method stand in
the order in which their files are scanned; where no two do, the run is the same but for its
warnings.

Key definitions: `Rearranged`, `FileTree.LiesBelow`, `Settings.IsRearranged`.
Key theorems: `Rearranged.exists_iff`, `FileTree.LiesBelow.isListed`,
`Settings.IsRearranged.isScanned_iff`, `Route.eq_of_perm_of_pairwise`,
`generateCode_of_rearranged`.
-/
namespace ApiReport

/-! ### Lists arranged in another way -/

/-- Lists that differ in how they are arranged: their entries are permuted or repeated, or there are
entries in one of them that may be added to the other. -/
inductive Rearranged (mayAdd : List String → String → Prop) : List String → List String → Prop
  | perm {xs ys} : xs.Perm ys → Rearranged mayAdd xs ys
  | repeated {xs x} : x ∈ xs → Rearranged mayAdd xs (x :: xs)
  | added {xs x} : mayAdd xs x → Rearranged mayAdd xs (x :: xs)
  | symm {xs ys} : Rearranged mayAdd xs ys → Rearranged mayAdd ys xs
  | trans {xs ys zs} : Rearranged mayAdd xs ys → Rearranged mayAdd ys zs → Rearranged mayAdd xs zs

/-- What holds of some entry also holds of one after rearranging, if an added entry never is the
only one of which it holds. -/
theorem Rearranged.exists_iff {mayAdd : List String → String → Prop} {xs ys : List String}
    {p : String → Prop} (h : Rearranged mayAdd xs ys)
    (hadd : ∀ xs x, mayAdd xs x → p x → ∃ y ∈ xs, p y) :
    (∃ x ∈ xs, p x) ↔ ∃ y ∈ ys, p y := by
  induction h with
  | perm h => simp only [h.mem_iff]
  | @repeated xs x hx =>
    rw [List.exists_mem_cons_iff]
    exact ⟨.inr, fun h => h.elim (fun hp => ⟨x, hx, hp⟩) id⟩
  | @added xs x hx =>
    rw [List.exists_mem_cons_iff]
    exact ⟨.inr, fun h => h.elim (hadd xs x hx) id⟩
  | symm _ ih => exact ih.symm
  | trans _ _ ih₁ ih₂ => exact ih₁.trans ih₂

/-- A list to which nothing may be added keeps its entries. -/
theorem Rearranged.mem_iff {xs ys : List String} (h : Rearranged (fun _ _ => False) xs ys)
    (x : String) : x ∈ xs ↔ x ∈ ys := by
  have := h.exists_iff (p := fun y => y = x) fun _ _ hadd => hadd.elim
  simpa using this

/-! ### Directories below directories -/

namespace FileTree

variable {t : FileTree} {root directory file ending : String}

/-- A directory that lies below the directory at a normal path. In a tree everything stands in a
directory, so that all the names in between lead to directories, and none to a link. -/
def LiesBelow (t : FileTree) (root directory : String) : Prop :=
  Path.IsNormal root ∧ ∃ l names, t.stat root = .ok (l, .directory) ∧
    t.entryAt? (l ++ names) = some .directory ∧ directory = names.foldl Path.child root

theorem LiesBelow.isDirectory (h : t.LiesBelow root directory) : t.isDirectory root = true := by
  obtain ⟨hr, l, -, hroot, -⟩ := h
  exact Route.isDirectory_of_stat hr hroot

/-- A search of the lower directory gives files the paths that a search of the upper one gives. -/
theorem LiesBelow.isListed (h : t.LiesBelow root directory)
    (hf : t.IsListed ending directory file) : t.IsListed ending root file := by
  obtain ⟨⟨r, hr, rfl⟩, l, names, hroot, hentry, rfl⟩ := h
  obtain ⟨k, more, bytes, hstat, hne, hend, hbytes, rfl⟩ := hf
  have hnames : Path.IsLocation names := isLocation_of_append hentry
  have hk : k = l ++ names := by
    rw [Path.foldl_child_ofLocation hr hnames, stat_below hr hroot hentry (by simp)] at hstat
    simpa using hstat.symm
  subst hk
  refine ⟨l, names ++ more, bytes, hroot, by simp [hne], ?_, ?_, by rw [List.foldl_append]⟩
  · rw [endsIn_append names hne, hend]
  · rw [← List.append_assoc, hbytes]

end FileTree

/-! ### Settings arranged in another way -/

namespace Settings

variable {t : FileTree} {s s' : Settings} {roots : List String} {directory file : String}

/-- What may be added to the scan roots: a directory that is missing, or one that lies below a scan
root. -/
def MayAddRoot (t : FileTree) (roots : List String) (directory : String) : Prop :=
  t.isDirectory directory = false ∨ ∃ root ∈ roots, t.LiesBelow root directory

/-- Settings that differ only in how scan roots, controller directories and excluded files are
listed. -/
structure IsRearranged (t : FileTree) (s s' : Settings) : Prop where
  scanRoots : Rearranged (MayAddRoot t) s.scanRoots s'.scanRoots
  controllerDirs : Rearranged (fun _ directory => t.isDirectory directory = false) s.controllerDirs
    s'.controllerDirs
  excludedFiles : Rearranged (fun _ _ => False) s.excludedFiles s'.excludedFiles
  others : s' = { s with
    scanRoots := s'.scanRoots
    controllerDirs := s'.controllerDirs
    excludedFiles := s'.excludedFiles }

/-- A directory that is there may be added only if a directory above it is a scan root. -/
theorem MayAddRoot.exists_above (h : MayAddRoot t roots directory)
    (hd : t.isDirectory directory = true) :
    ∃ root ∈ roots, t.isDirectory root = true ∧ t.LiesBelow root directory := by
  rcases h with hmissing | ⟨root, hr, hbelow⟩
  · rw [hmissing] at hd
    cases hd
  · exact ⟨root, hr, hbelow.isDirectory, hbelow⟩

namespace IsRearranged

theorem sourceExtension (h : s.IsRearranged t s') : s'.sourceExtension = s.sourceExtension := by
  rw [h.others]

theorem routesFileName (h : s.IsRearranged t s') : s'.routesFileName = s.routesFileName := by
  rw [h.others]

theorem exists_root (h : s.IsRearranged t s')
    (hroot : ∃ root ∈ s.scanRoots, t.isDirectory root = true) :
    ∃ root ∈ s'.scanRoots, t.isDirectory root = true := by
  refine (h.scanRoots.exists_iff fun roots directory hadd hd => ?_).1 hroot
  obtain ⟨root, hr, hroot, -⟩ := hadd.exists_above hd
  exact ⟨root, hr, hroot⟩

/-- The same files are scanned. -/
theorem isScanned_iff (h : s.IsRearranged t s') :
    Route.IsScanned t s file ↔ Route.IsScanned t s' file := by
  unfold Route.IsScanned
  rw [h.excludedFiles.mem_iff file, h.sourceExtension]
  refine and_congr_right fun _ => h.scanRoots.exists_iff fun roots directory hadd hd => ?_
  obtain ⟨root, hr, hroot, hbelow⟩ := hadd.exists_above hd.1
  exact ⟨root, hr, hroot, hbelow.isListed hd.2⟩

theorem scanned_perm (h : s.IsRearranged t s') :
    (Route.scanned t s).Perm (Route.scanned t s') := by
  refine (List.perm_ext_iff_of_nodup (Route.nodup_scanned t s) (Route.nodup_scanned t s')).2 ?_
  intro file
  rw [Route.mem_scanned, Route.mem_scanned, h.isScanned_iff]

/-- The same controllers are found. -/
theorem controllerFiles_eq (h : s.IsRearranged t s') :
    Route.controllerFiles t s' = Route.controllerFiles t s := by
  refine Text.sortByKey_eq_of_perm ?_
  refine (List.perm_ext_iff_of_nodup (Text.nodup_eraseDups _) (Text.nodup_eraseDups _)).2 ?_
  intro file
  simp only [List.mem_eraseDups, List.mem_flatMap, List.mem_filter, h.sourceExtension]
  have hexists := h.controllerDirs.exists_iff
    (p := fun d => t.isDirectory d = true ∧ file ∈ t.listed s.sourceExtension d)
    fun dirs directory hmissing hd => by
      rw [hmissing] at hd
      cases hd.1
  simpa only [and_assoc] using hexists.symm

end IsRearranged

end Settings

/-! ### What is found -/

namespace Route

variable {t : FileTree} {s s' : Settings}

/-- Routes that agree on path and method are the only ones that may stand in either order. -/
theorem agree_of_le {a b : Route} (h₁ : le a b = true) (h₂ : le b a = true) :
    a.path = b.path ∧ a.method = b.method := by
  rw [le_eq_namesLE] at h₁ h₂
  simpa using FileTree.isOrder_namesLE.antisymm h₁ h₂

/-- Where no two routes agree on path and method, there is one way to arrange them in order. -/
theorem eq_of_perm_of_pairwise {routes routes' : List Route} (h : routes.Perm routes')
    (hs : routes.Pairwise (le · ·)) (hs' : routes'.Pairwise (le · ·))
    (hn : (routes.map fun r => (r.path, r.method)).Nodup) : routes = routes' := by
  refine List.Perm.eq_of_pairwise (fun a b ha hb h₁ h₂ => ?_) hs hs' h
  obtain ⟨hpath, hmethod⟩ := agree_of_le h₁ h₂
  exact List.inj_on_of_nodup_map hn ha (h.mem_iff.2 hb) (by rw [hpath, hmethod])

theorem Survey.pairwise_routes {v : Survey} (hv : ofTree t s = .ok v) :
    v.routes.Pairwise (le · ·) := by
  obtain ⟨sources, -, rfl⟩ := (ofTree_eq_ok (exists_root_of_ofTree hv)).1 hv
  exact pairwise_le_sorted _

/-- The same files with the same routes are found, in some order. -/
theorem Survey.ofTree_of_rearranged (h : s.IsRearranged t s') {v : Survey}
    (hv : ofTree t s = .ok v) :
    ∃ v', ofTree t s' = .ok v' ∧ v.files.Perm v'.files ∧ v.routes.Perm v'.routes := by
  have hroot := exists_root_of_ofTree hv
  obtain ⟨sources, hsources, rfl⟩ := (ofTree_eq_ok hroot).1 hv
  -- the sources are permuted as their files are
  obtain ⟨sources', hsources', hperm⟩ := List.perm_comp_forall₂ h.scanned_perm.symm hsources
  have hdeclared := hperm.symm.flatMap_right (Source.routes s.routesFileName)
  have hroutes : (routesOf s.routesFileName sources).Perm (routesOf s.routesFileName sources') :=
    (routesOf_perm _ _).trans (hdeclared.trans (routesOf_perm _ _).symm)
  refine ⟨_, (ofTree_eq_ok (h.exists_root hroot)).2 ⟨sources', hsources', rfl⟩, h.scanned_perm, ?_⟩
  rw [h.routesFileName]
  exact (sorted_perm _).trans (hroutes.trans (sorted_perm _).symm)

theorem Survey.filesWithRoutes_congr {v v' : Survey} (h : v.routes.Perm v'.routes) (file : String) :
    file ∈ v.filesWithRoutes ↔ file ∈ v'.filesWithRoutes := by
  rw [mem_filesWithRoutes_iff, mem_filesWithRoutes_iff]
  simp only [h.mem_iff]

/-- The coverage is the same, if the same files have routes. -/
theorem Coverage.ofTree_of_rearranged (h : s.IsRearranged t s') {files files' : List String}
    (hfiles : ∀ file, file ∈ files ↔ file ∈ files') :
    Coverage.ofTree t s'.controllerDirs s'.sourceExtension files' =
      Coverage.ofTree t s.controllerDirs s.sourceExtension files := by
  have hcontains : ∀ file, files'.contains file = files.contains file := by
    intro file
    rw [Bool.eq_iff_iff, List.contains_iff_mem, List.contains_iff_mem, hfiles]
  rw [ofTree_eq, ofTree_eq, h.controllerFiles_eq]
  simp only [hcontains]

end Route

/-! ### What is reported -/

/-- What a run does is what its task does; its log is its own. -/
theorem Task.runOn_congr {α : Type} {t : FileTree} {task task' : Task α} (h : task' t = task t)
    (warnings warnings' : List Log.Entry) (message message' : α → String) :
    (task'.runOn t warnings' message').result = (task.runOn t warnings message).result ∧
      (task'.runOn t warnings' message').tree = (task.runOn t warnings message).tree := by
  unfold Task.runOn
  rw [h]
  cases task t with
  | ok r tree => exact ⟨rfl, rfl⟩
  | error f tree => exact ⟨rfl, rfl⟩

/-- A task does the same on the same routes and the same coverage. -/
theorem codeTask_of_rearranged {t : FileTree} {s s' : Settings} (h : s.IsRearranged t s')
    {v v' : Route.Survey} (hv : Route.Survey.ofTree t s = .ok v)
    (hv' : Route.Survey.ofTree t s' = .ok v') (hfiles : v.files.Perm v'.files)
    (hroutes : v.routes = v'.routes) (instant : Option Int) (check : Bool) :
    codeTask s' instant check t = codeTask s instant check t := by
  have hcoverage := Route.Coverage.ofTree_of_rearranged h
    (Route.Survey.filesWithRoutes_congr (.of_eq hroutes))
  unfold codeTask
  rw [Task.look_bind, Task.look_bind, hv, hv']
  dsimp only
  rw [Task.look_bind, Task.look_bind, hcoverage, ← hroutes, ← hfiles.length_eq, h.others]

/-- **The report does not depend on how directories are listed.** With settings that list them in
another way, the same files are scanned, the same routes are found in some order, and the coverage
is the same. If no two routes agree on both path and method, a run has the same result, and with it
the same content, and leaves the same tree. -/
theorem generateCode_of_rearranged (t : FileTree) {s s' : Settings} (hs : s.IsNormal)
    (hroot : ∃ root ∈ s.scanRoots, t.isDirectory root = true) (h : s.IsRearranged t s') :
    ∃ v v' coverage, Route.Survey.ofTree t s = .ok v ∧ Route.Survey.ofTree t s' = .ok v' ∧
      v.routes.Perm v'.routes ∧
      (∀ file, file ∈ v.files ↔ file ∈ v'.files) ∧
      (∀ file, file ∈ v.filesWithRoutes ↔ file ∈ v'.filesWithRoutes) ∧
      Route.Coverage.ofTree t s.controllerDirs s.sourceExtension v.filesWithRoutes =
        .ok coverage ∧
      Route.Coverage.ofTree t s'.controllerDirs s'.sourceExtension v'.filesWithRoutes =
        .ok coverage ∧
      ((v.routes.map fun r => (r.path, r.method)).Nodup → ∀ instant check,
        (generateCode t s' instant check).result = (generateCode t s instant check).result ∧
        (generateCode t s' instant check).tree = (generateCode t s instant check).tree) := by
  obtain ⟨v, hv⟩ := Route.Survey.exists_ofTree hroot hs.scanRoots
  obtain ⟨v', hv', hfiles, hroutes⟩ := Route.Survey.ofTree_of_rearranged h hv
  have hwith := Route.Survey.filesWithRoutes_congr hroutes
  have hcoverage := Route.Coverage.ofTree_eq t s v.filesWithRoutes
  refine ⟨v, v', _, hv, hv', hroutes, fun file => hfiles.mem_iff, hwith, hcoverage, ?_, ?_⟩
  · rw [Route.Coverage.ofTree_of_rearranged h hwith, hcoverage]
  · intro hn instant check
    have hsame := Route.eq_of_perm_of_pairwise hroutes (Route.Survey.pairwise_routes hv)
      (Route.Survey.pairwise_routes hv') hn
    exact Task.runOn_congr (codeTask_of_rearranged h hv hv' hfiles hsame instant check) ..

/-! ### A sample -/

/-- The sample with a second source file, which declares two more routes, and an empty directory
next to it. -/
def twoFileTree : FileTree :=
  ((sampleTree.put ["p", "lib"] .directory (by decide)).put ["p", "lib", "new"] .directory
    (by decide)).put ["p", "lib", "B.php"]
    (.file (Text.Utf8.encode "#[Route('/b')]\n#[Route('/a', method: 'post')]".toList)) (by decide)

/-- Settings with one scan root below another one. -/
def nestedSettings : Settings :=
  { sampleSettings with
    scanRoots := ["/p/src", "/p/lib/new", "/p/lib"]
    controllerDirs := ["/p"]
    excludedFiles := ["/x", "/y", "/x"] }

/-- The same settings with the other scan roots in another order, and with directories that are
missing. -/
def flatSettings : Settings :=
  { sampleSettings with
    scanRoots := ["/none", "/p/lib", "/p/src"]
    controllerDirs := ["/none", "/p", "/p"]
    excludedFiles := ["/y", "/x"] }

theorem nestedSettings_isNormal : nestedSettings.IsNormal :=
  { sampleSettings_isNormal with
    scanRoots := by decide +kernel
    controllerDirs := by decide +kernel
    excludedFiles := by decide +kernel }

theorem nestedSettings_isRearranged : nestedSettings.IsRearranged twoFileTree flatSettings := by
  have hmissing : twoFileTree.isDirectory "/none" = false := by decide +kernel
  have hbelow : twoFileTree.LiesBelow "/p/lib" "/p/lib/new" :=
    ⟨by decide +kernel, ["p", "lib"], ["new"], by rfl, by rfl, by decide +kernel⟩
  refine ⟨?_, ?_, .symm (.repeated (by decide)), rfl⟩
  · have hfront : ["/p/src", "/p/lib/new", "/p/lib"].Perm ["/p/lib/new", "/p/lib", "/p/src"] := by
      decide
    exact (Rearranged.perm hfront).trans <|
      (Rearranged.symm (.added (.inr ⟨"/p/lib", by decide, hbelow⟩))).trans (.added (.inl hmissing))
  · exact (Rearranged.repeated (by decide)).trans (.added hmissing)

/-- The files are scanned in another order, and the result is the same. -/
theorem generateCode_of_rearranged_sample :
    nestedSettings.IsNormal ∧
      (∃ root ∈ nestedSettings.scanRoots, twoFileTree.isDirectory root = true) ∧
      nestedSettings.IsRearranged twoFileTree flatSettings ∧
      ∃ v v' r, Route.Survey.ofTree twoFileTree nestedSettings = .ok v ∧
        Route.Survey.ofTree twoFileTree flatSettings = .ok v' ∧
        v.files = ["/p/src/A.php", "/p/lib/B.php"] ∧ v'.files = ["/p/lib/B.php", "/p/src/A.php"] ∧
        (v.routes.map fun r => (r.path, r.method)).Nodup ∧ v.routes.length = 3 ∧
        (generateCode twoFileTree nestedSettings (some 0) true).result = .ok r ∧
        (generateCode twoFileTree flatSettings (some 0) true).result = .ok r := by
  have hroot : ∃ root ∈ nestedSettings.scanRoots, twoFileTree.isDirectory root = true :=
    ⟨"/p/src", by decide, by decide +kernel⟩
  obtain ⟨v, v', -, hv, hv', -, -, -, -, -, hrun⟩ := generateCode_of_rearranged twoFileTree
    nestedSettings_isNormal hroot nestedSettings_isRearranged
  have hfiles : (Route.Survey.ofTree twoFileTree nestedSettings).toOption.map Route.Survey.files =
      some ["/p/src/A.php", "/p/lib/B.php"] := by decide +kernel
  have hfiles' : (Route.Survey.ofTree twoFileTree flatSettings).toOption.map Route.Survey.files =
      some ["/p/lib/B.php", "/p/src/A.php"] := by decide +kernel
  have hkeys : ((Route.scanned twoFileTree nestedSettings).mapM
        (Route.Source.read twoFileTree)).toOption.map
      (fun sources => (Route.routesOf "routes.php" sources).map fun r => (r.path, r.method)) =
      some [("/a", "GET"), ("/b", "GET"), ("/a", "POST")] := by decide +kernel
  rw [hv] at hfiles
  rw [hv'] at hfiles'
  -- sorting keeps the keys apart, in whatever order they come out
  obtain ⟨sources, hsources, hsurvey⟩ := (Route.Survey.ofTree_eq_ok hroot).1 hv
  rw [mapM_eq_ok.2 hsources] at hkeys
  have hperm : (v.routes.map fun r => (r.path, r.method)).Perm
      [("/a", "GET"), ("/b", "GET"), ("/a", "POST")] := by
    rw [hsurvey, ← Option.some.inj hkeys]
    exact (Route.sorted_perm _).map _
  have hn : (v.routes.map fun r => (r.path, r.method)).Nodup := hperm.nodup_iff.2 (by decide)
  have hlength : v.routes.length = 3 := by simpa using hperm.length_eq
  obtain ⟨r, hr⟩ : ∃ r, (generateCode twoFileTree nestedSettings (some 0) true).result = .ok r :=
    exists_of_isSome (by decide +kernel)
  obtain ⟨hsame, -⟩ := hrun hn (some 0) true
  exact ⟨nestedSettings_isNormal, hroot, nestedSettings_isRearranged, v, v', r, hv, hv',
    Option.some.inj hfiles, Option.some.inj hfiles', hn, hlength, hr, hsame.trans hr⟩

end ApiReport
