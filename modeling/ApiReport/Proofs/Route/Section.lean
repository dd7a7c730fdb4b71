import ApiReport.Proofs.Lookup
import ApiReport.Proofs.Route.Survey
import ApiReport.Route.Report

/-!
# The sections of a report on routes

A heading is shown where the path differs from that of the route before. Sorted by path, the routes
of one path stand next to each other, so that every path has one heading, and below it all its
routes: a sorted list is made of its parts with the same key, one behind the other.

Key definitions: `Route.Section`, `Route.Section.IsOf`, `Route.Section.lines`, `Route.sections`.
Key theorems: `Text.flatMap_filter_key`, `Route.listing_flatMap`, `Route.flatMap_sections`,
`Route.report_sections`.
-/
namespace ApiReport

namespace Text

variable {α : Type} {key : α → String} {xs : List α} {keys : List String}

/-- A list sorted by a key is made of its parts with the same key, one behind the other. -/
theorem flatMap_filter_key (hxs : xs.Pairwise fun a b => unitsLE (key a) (key b) = true)
    (hkeys : keys.Pairwise UnitsLT) (hnodup : keys.Nodup) (hmem : ∀ x ∈ xs, key x ∈ keys) :
    (keys.flatMap fun k => xs.filter (key · = k)) = xs := by
  let le : α → α → Bool := fun a b => unitsLE (key a) (key b)
  have hrefl : ∀ a, le a a = true := fun a => isOrder_unitsLE.refl (key a)
  have htie : ∀ a, xs.filter (isTie le a) = xs.filter (key · = key a) := by
    intro a
    refine List.filter_congr fun b _ => ?_
    rw [Bool.eq_iff_iff, isTie, Bool.and_eq_true, decide_eq_true_eq]
    constructor
    · exact fun h => isOrder_unitsLE.antisymm h.2 h.1
    · intro h
      simp only [le, h, isOrder_unitsLE.refl, and_self]
  refine eq_of_pairwise_of_ties hrefl ?_ hxs fun a => ?_
  · refine List.pairwise_flatMap.2 ⟨fun k _ => hxs.filter _, hkeys.imp fun hlt x hx y hy => ?_⟩
    obtain rfl : key x = _ := by simpa using (List.mem_filter.1 hx).2
    obtain rfl : key y = _ := by simpa using (List.mem_filter.1 hy).2
    exact unitsLE_iff.2 (.inr hlt)
  · -- the ties of an element are in the one part with its key
    have hpart : ∀ k, (xs.filter (key · = k)).filter (isTie le a) =
        if k = key a then xs.filter (isTie le a) else [] := by
      intro k
      split
      · next hk =>
        rw [htie, hk, ← htie, List.filter_filter]
        simp only [Bool.and_self]
      · next hk =>
        refine List.filter_eq_nil_iff.2 fun b hb htied => hk ?_
        have hkey : b ∈ xs.filter (key · = key a) := by
          rw [← htie]
          exact List.mem_filter.2 ⟨(List.mem_filter.1 hb).1, htied⟩
        obtain rfl : key b = k := by simpa using (List.mem_filter.1 hb).2
        simpa using (List.mem_filter.1 hkey).2
    rw [List.filter_flatMap]
    simp only [hpart]
    rw [flatMap_ite_eq _ hnodup]
    split
    · rfl
    · next h =>
      rw [htie, eq_comm, List.filter_eq_nil_iff]
      intro x hx hkey
      exact h (of_decide_eq_true hkey ▸ hmem x hx)

end Text

namespace Route

variable {rootDir path : String} {routes rest : List Route}

/-! ### One section -/

/-- The routes of one path. -/
structure Section where
  path : String
  routes : List Route

namespace Section

/-- The heading and the entries of a section. -/
def lines (rootDir : String) (x : Section) : List String :=
  heading x.path :: x.routes.flatMap (Route.lines rootDir)

/-- A section shows all routes with its path, once, in the order of their methods; where these are
equal, the routes keep their order. -/
structure IsOf (routes : List Route) (x : Section) : Prop where
  nonempty : x.routes ≠ []
  perm : x.routes.Perm (routes.filter fun r => r.path = x.path)
  ascending : x.routes.Pairwise fun a b => a.method = b.method ∨ Text.UnitsLT a.method b.method
  stable : ∀ method, (x.routes.filter fun r => r.method = method) =
    routes.filter (isAt x.path method)

theorem IsOf.path_eq {x : Section} (h : x.IsOf routes) : ∀ r ∈ x.routes, r.path = x.path := by
  intro r hr
  simpa using (List.mem_filter.1 (h.perm.mem_iff.1 hr)).2

end Section

/-! ### Headings -/

/-- Behind a route of the same path, routes have no heading. -/
theorem listing_append (h : ∀ r ∈ routes, r.path = path) :
    listing rootDir (some path) (routes ++ rest) =
      routes.flatMap (lines rootDir) ++ listing rootDir (some path) rest := by
  induction routes with
  | nil => rfl
  | cons r routes ih =>
    obtain ⟨rfl, hroutes⟩ := List.forall_mem_cons.1 h
    rw [List.cons_append, listing, if_pos rfl, List.nil_append, ih hroutes, List.flatMap_cons,
      List.append_assoc]

/-- Sections of different paths have one heading each. By induction on the sections, of which none
has the path of the route before. -/
theorem listing_flatMap : ∀ {sections : List Section} {previous : Option String},
    (∀ x ∈ sections, x.routes ≠ [] ∧ ∀ r ∈ x.routes, r.path = x.path) →
    (∀ x ∈ sections, previous ≠ some x.path) →
    sections.Pairwise (fun a b => a.path ≠ b.path) →
    listing rootDir previous (sections.flatMap Section.routes) =
      sections.flatMap (Section.lines rootDir)
  | [], _, _, _, _ => by
    rfl
  | x :: sections, previous, hroutes, hprevious, hpairwise => by
    obtain ⟨⟨hne, hpath⟩, hroutes⟩ := List.forall_mem_cons.1 hroutes
    obtain ⟨hdiffer, hpairwise⟩ := List.pairwise_cons.1 hpairwise
    have hx := hprevious x List.mem_cons_self
    have ih : listing rootDir (some x.path) (sections.flatMap Section.routes) =
        sections.flatMap (Section.lines rootDir) :=
      listing_flatMap hroutes (fun y hy heq => hdiffer y hy (Option.some.inj heq)) hpairwise
    rw [List.flatMap_cons, List.flatMap_cons, Section.lines, ← ih]
    obtain ⟨r, rs, hrs⟩ := List.exists_cons_of_ne_nil hne
    rw [hrs] at hpath ⊢
    obtain ⟨hr, hpath⟩ := List.forall_mem_cons.1 hpath
    rw [List.cons_append, listing, hr, if_neg hx, listing_append hpath]
    simp

/-! ### All sections -/

/-- The paths of routes, each once, in ascending order. -/
def paths (routes : List Route) : List String := Text.sortByKey id (routes.map Route.path).eraseDups

/-- The routes of each path, in the order of reports. -/
def sections (routes : List Route) : List Section :=
  (paths routes).map fun path => { path, routes := (sorted routes).filter fun r => r.path = path }

theorem mem_paths : path ∈ paths routes ↔ ∃ r ∈ routes, r.path = path := by
  rw [paths, (Text.sortByKey_perm _ _).mem_iff, List.mem_eraseDups, List.mem_map]

theorem nodup_paths (routes : List Route) : (paths routes).Nodup :=
  (Text.sortByKey_perm _ _).nodup_iff.2 (Text.nodup_eraseDups _)

theorem pairwise_paths (routes : List Route) : (paths routes).Pairwise Text.UnitsLT :=
  Text.sortByKey_pairwise (by simpa using Text.nodup_eraseDups _)

/-- Sorted routes are those of the sections, one section behind the other. -/
theorem flatMap_sections (routes : List Route) :
    (sections routes).flatMap Section.routes = sorted routes := by
  rw [sections, List.flatMap_map]
  refine Text.flatMap_filter_key ?_ (pairwise_paths routes) (nodup_paths routes) fun r hr => ?_
  · refine (pairwise_le_sorted routes).imp fun {a b} h => ?_
    unfold le at h
    split at h
    · next hpath => rw [hpath, Text.isOrder_unitsLE.refl]
    · exact h
  · exact mem_paths.2 ⟨r, (sorted_perm routes).mem_iff.1 hr, rfl⟩

theorem isOf_of_mem_sections {x : Section} (h : x ∈ sections routes) : x.IsOf routes := by
  obtain ⟨path, hpath, rfl⟩ := List.mem_map.1 h
  have hperm : ((sorted routes).filter fun r => r.path = path).Perm
      (routes.filter fun r => r.path = path) := (sorted_perm routes).filter _
  refine ⟨?_, hperm, ?_, fun method => ?_⟩
  · obtain ⟨r, hr, rfl⟩ := mem_paths.1 hpath
    have hmem : r ∈ routes.filter fun r' => r'.path = r.path := List.mem_filter.2 ⟨hr, by simp⟩
    exact List.ne_nil_of_mem (hperm.mem_iff.2 hmem)
  · refine ((pairwise_le_sorted routes).filter _).imp_of_mem fun {a b} ha hb hab => ?_
    obtain rfl : a.path = path := by simpa using (List.mem_filter.1 ha).2
    have hb : b.path = a.path := by simpa using (List.mem_filter.1 hb).2
    rw [le, if_pos hb.symm] at hab
    exact Text.unitsLE_iff.1 hab
  · rw [← filter_sorted, List.filter_filter]
    refine List.filter_congr fun r _ => ?_
    rw [isAt, Bool.and_comm]

/-! ### Counts -/

/-- Routes are annotated, registered or neither. -/
theorem summary_total (routes : List Route) : (summary routes).total =
    (summary routes).annotated + (summary routes).registered +
      routes.countP fun r => !(r.origin = .annotated || r.origin = .registered) := by
  unfold summary
  dsimp only
  induction routes with
  | nil => rfl
  | cons r routes ih =>
    rw [List.length_cons, List.countP_cons, List.countP_cons, List.countP_cons, ih]
    cases r.origin <;> simp <;> omega

theorem summary_of_perm {routes' : List Route} (h : routes.Perm routes') :
    summary routes = summary routes' := by
  rw [summary, h.length_eq, h.countP_eq, h.countP_eq, summary]

/-- The lines that say how many routes a report shows. -/
def tallyLines (routesFileName : String) (total annotated registered : Nat) : List String :=
  ["## Coverage Summary",
    "- Total routes: " ++ toString total,
    "- Attribute routes: " ++ toString annotated,
    "- " ++ routesFileName ++ " routes: " ++ toString registered]

/-- **One heading for each path, one entry for each route.** Behind its first lines, a report on
sorted routes has one section for every path among them, in ascending order, and the section shows
the routes with that path. It says how many routes it shows, which is as many as it says are
annotated and registered, if all are one or the other. -/
theorem report_sections (routes : List Route) (withoutRoutes : List String) (o : Options) :
    ∃ (shown : List Section) (total annotated registered : Nat) (others : List String),
      (∀ path, path ∈ shown.map Section.path ↔ ∃ r ∈ routes, r.path = path) ∧
      shown.Pairwise (fun a b => Text.UnitsLT a.path b.path) ∧
      (∀ x ∈ shown, x.IsOf routes) ∧
      (shown.flatMap Section.routes).Perm routes ∧
      report (sorted routes) withoutRoutes o = Report.text
        (Report.header title o.instant o.zone ++ Report.preamble ++
          coverageLines (sorted routes) withoutRoutes o ++
          shown.flatMap (Section.lines o.rootDir)) ∧
      coverageLines (sorted routes) withoutRoutes o =
        tallyLines o.routesFileName total annotated registered ++ others ∧
      total = (shown.flatMap Section.routes).length ∧
      (total = annotated + registered ↔
        ∀ r ∈ routes, r.origin = .annotated ∨ r.origin = .registered) := by
  have htotal : (summary (sorted routes)).total =
      ((sections routes).flatMap Section.routes).length := by
    rw [flatMap_sections]
    rfl
  have hpaths : (sections routes).map Section.path = paths routes := by
    rw [sections, List.map_map]
    exact List.map_id _
  have hascending : (sections routes).Pairwise fun a b => Text.UnitsLT a.path b.path :=
    List.pairwise_map.1 (hpaths ▸ pairwise_paths routes)
  have hdiffer : (sections routes).Pairwise fun a b => a.path ≠ b.path :=
    List.pairwise_map.1 (hpaths ▸ nodup_paths routes)
  have hlisting : listing o.rootDir none (sorted routes) =
      (sections routes).flatMap (Section.lines o.rootDir) := by
    rw [← flatMap_sections]
    refine listing_flatMap (fun x hx => ?_) (fun x _ => nofun) hdiffer
    exact ⟨(isOf_of_mem_sections hx).nonempty, (isOf_of_mem_sections hx).path_eq⟩
  refine ⟨sections routes, _, _, _, _, fun path => ?_, hascending, fun x => isOf_of_mem_sections,
    ?_, ?_, by rw [coverageLines]; rfl, htotal, ?_⟩
  · rw [hpaths, mem_paths]
  · rw [flatMap_sections]
    exact sorted_perm routes
  · rw [report, reportLines, hlisting]
  · rw [summary_of_perm (sorted_perm routes), summary_total, Nat.add_eq_left,
      List.countP_eq_zero]
    simp [or_iff_not_imp_left]

end Route

end ApiReport
