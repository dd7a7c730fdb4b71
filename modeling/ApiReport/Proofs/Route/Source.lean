import ApiReport.Proofs.Path.Display
import ApiReport.Proofs.Text.Find
import ApiReport.Route.Report

/-!
# Files in a report on routes

A report names files in two places: the entry of a route says where the route is declared, and the
controllers without routes are listed one by one. Both show a file as seen from the root directory,
and what is shown leads back to the file, so that no two files are named alike.

Key definitions: `Route.sourceLine`, `Route.IsSourceLine`, `Route.missingEntry`,
`Route.missingEntries`.
Key theorems: `Route.filter_lines`, `Route.missingEntries_coverageLines`, `Route.named_apart`.
-/
namespace ApiReport.Route

/-! ### Where a route is declared -/

/-- How the line starts that says where a route is declared. -/
def sourceStart : String := "  - Source: "

/-- The line that says in which file a route is declared. -/
def sourceLine (rootDir file : String) : String := sourceStart ++ Path.display rootDir file

/-- A line that says where a route is declared. -/
def IsSourceLine (line : String) : Prop := sourceStart.toList <+: line.toList

instance : DecidablePred IsSourceLine := fun _ => inferInstanceAs (Decidable (_ <+: _))

theorem isSourceLine_sourceLine (rootDir file : String) : IsSourceLine (sourceLine rootDir file) := by
  rw [IsSourceLine, sourceLine, String.toList_append]
  exact List.prefix_append _ _

/-- A line that starts with other words says something else. -/
theorem not_isSourceLine {words : String} (hlonger : ¬ sourceStart.toList <+: words.toList)
    (hshorter : ¬ words.toList <+: sourceStart.toList) (rest : String) :
    ¬ IsSourceLine (words ++ rest) :=
  Text.not_prefix_toList_append hlonger hshorter rest

/-- The entry of a route says once where it is declared. -/
theorem filter_lines (rootDir : String) (r : Route) :
    (r.lines rootDir).filter (IsSourceLine ·) = [sourceLine rootDir r.source] := by
  have hmethod : ∀ rest, ¬ IsSourceLine ("- **" ++ rest) :=
    not_isSourceLine (by decide) (by decide)
  have hhandler : ∀ rest, ¬ IsSourceLine ("  - Handler: " ++ rest) :=
    not_isSourceLine (by decide) (by decide)
  have hmiddleware : ∀ rest, ¬ IsSourceLine ("  - Middleware: " ++ rest) :=
    not_isSourceLine (by decide) (by decide)
  have hempty : ¬ IsSourceLine "" := by decide
  have hsource : IsSourceLine ("  - Source: " ++ Path.display rootDir r.source) :=
    isSourceLine_sourceLine rootDir r.source
  unfold lines
  rw [String.append_assoc, String.append_assoc]
  cases handlerLabel? r <;> cases r.middleware.isEmpty <;>
    simp [hmethod, hhandler, hmiddleware, hempty, hsource, sourceLine, sourceStart]

/-! ### Controllers without routes -/

def missingHeading : String := "## Potentially Missing Routes (Controllers without Route attributes)"

def missingEntry (rootDir file : String) : String := Report.bullet (Path.display rootDir file)

/-- The entries below the heading, up to the empty line at the end. -/
def missingEntries (lines : List String) : List String :=
  ((lines.dropWhile (· ≠ missingHeading)).drop 1).dropLast

/-- Every controller without routes has an entry, and nothing else has. -/
theorem missingEntries_coverageLines (routes : List Route) (files : List String) (o : Options) :
    missingEntries (coverageLines routes files o) = files.map (missingEntry o.rootDir) := by
  obtain ⟨counts, hcounts, hlines⟩ : ∃ counts : List String,
      (∀ line ∈ counts, line ≠ missingHeading) ∧
        coverageLines routes files o = counts ++ if files.isEmpty then [] else
          missingHeading :: (files.map (missingEntry o.rootDir) ++ [""]) := by
    refine ⟨_, ?_, rfl⟩
    simp only [List.forall_mem_cons, String.append_assoc]
    have hwords : ∀ {words : String}, ¬ words.toList <+: missingHeading.toList →
        ∀ rest, words ++ rest ≠ missingHeading := Text.append_ne_of_not_prefix
    exact ⟨by decide, hwords (by decide) _, hwords (by decide) _, hwords (by decide) _,
      hwords (by decide) _, by decide, List.forall_mem_nil _⟩
  rw [hlines, missingEntries, List.dropWhile_append_of_pos (by simpa using hcounts)]
  cases files with
  | nil => rfl
  | cons file files =>
    rw [List.isEmpty_cons, if_neg (by simp), List.dropWhile_cons_of_neg (by simp), List.drop_one,
      List.tail_cons, List.dropLast_concat]

/-! ### No two files alike -/

/-- **Files are named apart.** What a report shows of a file leads back to it from the root
directory. So two files never have the same line on where a route is declared, of which every entry
has one, and never the same entry among the controllers without routes. -/
theorem named_apart {rootDir : String} (hroot : Path.IsNormal rootDir) :
    (∀ file, Path.IsNormal file → Path.resolve rootDir (Path.display rootDir file) = file) ∧
      (∀ file file', Path.IsNormal file → Path.IsNormal file' → file ≠ file' →
        sourceLine rootDir file ≠ sourceLine rootDir file' ∧
          missingEntry rootDir file ≠ missingEntry rootDir file') ∧
      (∀ r : Route, (r.lines rootDir).filter (IsSourceLine ·) = [sourceLine rootDir r.source]) ∧
      ∀ routes files o, o.rootDir = rootDir →
        missingEntries (coverageLines routes files o) = files.map (missingEntry rootDir) := by
  refine ⟨fun file hfile => Path.resolve_display hroot hfile, ?_, filter_lines rootDir, ?_⟩
  · intro file file' hfile hfile' hne
    have hshown : Path.display rootDir file ≠ Path.display rootDir file' :=
      fun h => hne ((Path.display_inj hroot hfile hfile').1 h)
    constructor
    · rwa [sourceLine, sourceLine, ne_eq, String.append_right_inj]
    · rwa [missingEntry, missingEntry, Report.bullet, Report.bullet, ne_eq, String.append_right_inj]
  · rintro routes files o rfl
    exact missingEntries_coverageLines routes files o

/-- A file below the root directory and one that lies at the same place below the root. -/
theorem named_apart_sample :
    (Path.IsNormal "/a" ∧ Path.IsNormal "/a/..b" ∧ Path.IsNormal "/a/b" ∧ Path.IsNormal "/b") ∧
      Path.resolve "/a" (Path.display "/a" "/a/..b") = "/a/..b" ∧
      sourceLine "/a" "/a/b" ≠ sourceLine "/a" "/b" ∧
      missingEntry "/a" "/a/..b" ≠ missingEntry "/a" "/b" := by
  have hroot : Path.IsNormal "/a" := by decide
  have hdots : Path.IsNormal "/a/..b" := by decide
  have hbelow : Path.IsNormal "/a/b" := by decide
  have hbeside : Path.IsNormal "/b" := by decide
  obtain ⟨hback, hapart, -, -⟩ := named_apart hroot
  exact ⟨⟨hroot, hdots, hbelow, hbeside⟩, hback _ hdots, (hapart _ _ hbelow hbeside (by decide)).1,
    (hapart _ _ hdots hbeside (by decide)).2⟩

end ApiReport.Route
