import ApiReport.Proofs.Generate.Check
import ApiReport.Proofs.Route.Coverage

/-!
# Counts that a check does not miss

Before it shows the first path, description or file name, a report on routes says how many routes
and controllers without routes there are. With the same settings the lines in front of these counts
are the same, and each count ends with its line. So reports that count as the same agree in their
counts, even where the texts behind them hold line breaks and look like other counts; and a check of
a tree in which another number is found calls the report stale.

Key theorems: `Report.count_eq_of_text_eq`, `Route.reportLines_eq`, `Route.counts_of_same`,
`generateCode_stale_of_counts`.
-/
namespace ApiReport

/-! ### Numbers at the end of a line -/

namespace Report

theorem toList_toString (n : Nat) : (toString n).toList = Nat.toDigits 10 n := by
  rw [Nat.toString_eq_repr, Nat.toList_repr]

theorem not_mem_toString (n : Nat) : '\n' ∉ (toString n).toList := by
  rw [toList_toString]
  intro h
  have hdigit := Nat.isDigit_of_mem_toDigits (by decide) (by decide) h
  exact absurd hdigit (by decide)

theorem toString_injective {m n : Nat} (h : toString m = toString n) : m = n := by
  have hdigits : Nat.toDigits 10 m = Nat.toDigits 10 n := by
    rw [← toList_toString, h, toList_toString]
  calc m
    _ = Nat.ofDigitChars 10 (Nat.toDigits 10 m) 0 := Nat.ofDigitChars_ten_toDigits.symm
    _ = Nat.ofDigitChars 10 (Nat.toDigits 10 n) 0 := by rw [hdigits]
    _ = n := Nat.ofDigitChars_ten_toDigits

/-- Texts that start with the same lines agree behind them. -/
theorem text_eq_of_append {lines lines' : List String} (hne : lines ≠ []) (hne' : lines' ≠ []) :
    ∀ front : List String, text (front ++ lines) = text (front ++ lines') → text lines = text lines'
  | [], h => h
  | line :: front, h => by
    have hfront : front ++ lines ≠ [] := by simp [hne]
    have hfront' : front ++ lines' ≠ [] := by simp [hne']
    rw [List.cons_append, List.cons_append, text_cons line hfront, text_cons line hfront',
      String.append_right_inj] at h
    exact text_eq_of_append hne hne' front h

/-- Behind the same words, lines count the same, and the texts agree behind them. -/
theorem count_eq_of_text_eq {before : String} {m n : Nat} {lines lines' : List String}
    (hne : lines ≠ []) (hne' : lines' ≠ [])
    (h : text ((before ++ toString m) :: lines) = text ((before ++ toString n) :: lines')) :
    m = n ∧ text lines = text lines' := by
  rw [text_cons _ hne, text_cons _ hne'] at h
  simp only [String.append_assoc, String.append_right_inj] at h
  simp only [← String.append_assoc] at h
  obtain ⟨hcount, hrest⟩ := line_eq (not_mem_toString m) (not_mem_toString n) h
  exact ⟨toString_injective hcount, hrest⟩

end Report

/-! ### The counts of a report -/

namespace Route

/-- The lines behind the stamp of a report and in front of its counts. -/
def leadIn : List String := Report.preamble ++ ["## Coverage Summary"]

/-- A report from its counts on. -/
def countLines (routes : List Route) (withoutRoutes : List String) (routesFileName : String)
    (more : List String) : List String :=
  ("- Total routes: " ++ toString (summary routes).total) ::
    ("- Attribute routes: " ++ toString (summary routes).annotated) ::
    ("- " ++ routesFileName ++ " routes: " ++ toString (summary routes).registered) ::
    ("- Controllers without routes: " ++ toString withoutRoutes.length) :: "" :: more

/-- Where the counts stand in a report. -/
theorem reportLines_eq (routes : List Route) (withoutRoutes : List String) (o : Options) :
    ∃ more, reportLines routes withoutRoutes o = Report.header title o.instant o.zone ++
      (leadIn ++ countLines routes withoutRoutes o.routesFileName more) := by
  unfold reportLines coverageLines leadIn
  simp only [List.append_assoc]
  exact ⟨_, rfl⟩

/-- Texts from the counts on agree in the counts. -/
theorem counts_of_text_eq {routes routes' : List Route} {withoutRoutes withoutRoutes' : List String}
    {name : String} {more more' : List String}
    (h : Report.text (countLines routes withoutRoutes name more) =
      Report.text (countLines routes' withoutRoutes' name more')) :
    summary routes = summary routes' ∧ withoutRoutes.length = withoutRoutes'.length := by
  unfold countLines at h
  obtain ⟨htotal, h⟩ := Report.count_eq_of_text_eq (by simp) (by simp) h
  obtain ⟨hannotated, h⟩ := Report.count_eq_of_text_eq (by simp) (by simp) h
  obtain ⟨hregistered, h⟩ := Report.count_eq_of_text_eq (by simp) (by simp) h
  obtain ⟨hwithout, -⟩ := Report.count_eq_of_text_eq (by simp) (by simp) h
  refine ⟨?_, hwithout⟩
  calc summary routes
    _ = ⟨(summary routes).total, (summary routes).annotated, (summary routes).registered⟩ := rfl
    _ = summary routes' := by rw [htotal, hannotated, hregistered]

/-- Reports that count as the same agree in their counts. -/
theorem counts_of_same {routes routes' : List Route} {withoutRoutes withoutRoutes' : List String}
    {o o' : Options} (hname : o.routesFileName = o'.routesFileName)
    (h : Report.same (report routes withoutRoutes o) (report routes' withoutRoutes' o') = true) :
    summary routes = summary routes' ∧ withoutRoutes.length = withoutRoutes'.length := by
  obtain ⟨more, hlines⟩ := reportLines_eq routes withoutRoutes o
  obtain ⟨more', hlines'⟩ := reportLines_eq routes' withoutRoutes' o'
  rw [report, report, hlines, hlines', Report.same_text_iff (by decide), hname] at h
  have hne : ∀ rs files more, countLines rs files o'.routesFileName more ≠ [] :=
    fun _ _ _ => List.cons_ne_nil _ _
  exact counts_of_text_eq (Report.text_eq_of_append (hne _ _ _) (hne _ _ _) ("" :: leadIn) h)

end Route

/-! ### Checks after a change -/

variable {t₁ t₂ : FileTree} {s : Settings}

/-- A check that finds a text where the report should be calls it stale unless it is the same. The
empty path leads nowhere, so that a text there is stale as well. -/
theorem finish_check_of_readText {path existing : String} (h : t₂.readText path = .ok existing)
    (content : String) :
    ∃ status, finish path content true t₂ = .ok status t₂ ∧
      (status = .stale ∨ Report.same existing content = true) := by
  cases he : t₂.exists? path with
  | false =>
    have hread : readReport t₂ path = .ok none := readReport_eq_ok.2 (.inl ⟨he, rfl⟩)
    exact ⟨.stale, finish_check_eq_ok.2 ⟨rfl, none, hread, rfl⟩, .inl rfl⟩
  | true =>
    have hread : readReport t₂ path = .ok (some existing) :=
      readReport_eq_ok.2 (.inr ⟨he, existing, h, rfl⟩)
    refine ⟨_, finish_check_eq_ok.2 ⟨rfl, some existing, hread, rfl⟩, ?_⟩
    by_cases hsame : Report.same existing content = true
    · exact .inr hsame
    · rw [Option.any_some, if_neg hsame]
      exact .inl rfl

/-- **A changed count never passes a check.** Where the report that was written for one tree is
found in another one whose sources can be surveyed, a check returns, and calls the report stale if
it finds another number of annotated routes, of registered routes or of controllers without routes.
-/
theorem generateCode_stale_of_counts {now₁ : Option Int} {r₁ : CodeResult}
    (hwritten : (generateCode t₁ s now₁ false).result = .ok r₁)
    (hthere : t₂.readText s.codeOutputPath = .ok r₁.content) {v₂ : Route.Survey}
    (hv : Route.Survey.ofTree t₂ s = .ok v₂) (now₂ : Option Int) :
    ∃ r₂, (generateCode t₂ s now₂ true).result = .ok r₂ ∧ r₂.counts = Route.summary v₂.routes ∧
      (r₂.counts.annotated ≠ r₁.counts.annotated ∨ r₂.counts.registered ≠ r₁.counts.registered ∨
        r₂.withoutRoutes.length ≠ r₁.withoutRoutes.length → r₂.status = .stale) := by
  obtain ⟨v₁, c₁, status₁, -, -, rfl, -⟩ := codeTask_eq_ok.1 (Task.runOn_eq_ok.1 hwritten)
  obtain ⟨c₂, hcoverage⟩ : ∃ c, Route.Coverage.ofTree t₂ s.controllerDirs s.sourceExtension
      v₂.filesWithRoutes = .ok c := ⟨_, Route.Coverage.ofTree_eq t₂ s v₂.filesWithRoutes⟩
  -- what is rendered does not depend on the verdict
  obtain ⟨status, hfinish, hstatus⟩ :=
    finish_check_of_readText hthere (codeResult s now₂ v₂ c₂ .stale).content
  have hcheck : codeTask s now₂ true t₂ = .ok (codeResult s now₂ v₂ c₂ status) t₂ :=
    codeTask_eq_ok.2 ⟨v₂, c₂, status, hv, hcoverage, rfl, hfinish⟩
  refine ⟨_, Task.runOn_result hcheck, rfl, fun hcounts => hstatus.resolve_right fun hsame => ?_⟩
  dsimp only [codeResult] at hsame hcounts
  obtain ⟨hsummary, hwithout⟩ := Route.counts_of_same (by rfl) hsame
  rcases hcounts with hannotated | hregistered | hlength
  · exact hannotated (congrArg Route.Summary.annotated hsummary.symm)
  · exact hregistered (congrArg Route.Summary.registered hsummary.symm)
  · exact hlength hwithout.symm

/-! ### A sample -/

/-- The sample with its report on routes written. -/
def reportedTree : FileTree := (generateCode sampleTree sampleSettings (some 0) false).tree

/-- The same tree with the one route of the sample commented out. -/
def silencedTree : FileTree :=
  reportedTree.put ["p", "src", "A.php"]
    (.file (Text.Utf8.encode "class A\n// #[Route('/a')]".toList)) (by decide +kernel)

/-- Putting a file elsewhere leaves the report where it is. -/
theorem readText_silencedTree {r : CodeResult}
    (h : (generateCode sampleTree sampleSettings (some 0) false).result = .ok r) :
    silencedTree.readText "/p/docs/new/CODE.md" = .ok r.content := by
  have htidy : (generateCode sampleTree sampleSettings (some 0) false).Tidy sampleTree false
      "/p/docs/new/CODE.md" CodeResult.status CodeResult.content :=
    tidy_runOn _ _ (codeTask_leaves sampleTree sampleSettings_isNormal.codeOutputPath (some 0) false)
  obtain ⟨-, hread, -⟩ := htidy.of_ok rfl r h
  have hplace : reportedTree.location? "/p/docs/new/CODE.md" = some ["d", "new", "CODE.md"] := by
    decide +kernel
  have hplace' : silencedTree.location? "/p/docs/new/CODE.md" = some ["d", "new", "CODE.md"] := by
    decide +kernel
  have hentry : silencedTree.entryAt? ["d", "new", "CODE.md"] =
      reportedTree.entryAt? ["d", "new", "CODE.md"] := by
    rw [silencedTree, FileTree.entryAt?_put, if_neg (by decide)]
  have hfile := (FileTree.read_eq_ok_of_location? hplace).1 hread
  have hread' := (FileTree.read_eq_ok_of_location? hplace').2 (hentry.trans hfile)
  rw [FileTree.readText, hread', Except.map, Text.Utf8.decode_encode, String.ofList_toList]

/-- One annotated route less makes the report stale. -/
theorem generateCode_stale_of_counts_sample :
    ∃ r₁ v₂ r₂, (generateCode sampleTree sampleSettings (some 0) false).result = .ok r₁ ∧
      silencedTree.readText "/p/docs/new/CODE.md" = .ok r₁.content ∧
      Route.Survey.ofTree silencedTree sampleSettings = .ok v₂ ∧
      r₁.counts.annotated = 1 ∧ r₂.counts.annotated = 0 ∧
      (generateCode silencedTree sampleSettings none true).result = .ok r₂ ∧
      r₂.status = .stale := by
  obtain ⟨r₁, hr₁⟩ : ∃ r, (generateCode sampleTree sampleSettings (some 0) false).result = .ok r :=
    exists_of_isSome (by decide +kernel)
  obtain ⟨v₂, hv₂⟩ : ∃ v, Route.Survey.ofTree silencedTree sampleSettings = .ok v :=
    exists_of_isSome (by decide +kernel)
  have hthere := readText_silencedTree hr₁
  obtain ⟨r₂, hr₂, -, hstale⟩ := generateCode_stale_of_counts hr₁ hthere hv₂ none
  have hcount₁ : (generateCode sampleTree sampleSettings (some 0) false).result.toOption.map
      (fun r => r.counts.annotated) = some 1 := by decide +kernel
  have hcount₂ : (generateCode silencedTree sampleSettings none true).result.toOption.map
      (fun r => r.counts.annotated) = some 0 := by decide +kernel
  rw [hr₁] at hcount₁
  rw [hr₂] at hcount₂
  have hcount₁ : r₁.counts.annotated = 1 := Option.some.inj hcount₁
  have hcount₂ : r₂.counts.annotated = 0 := Option.some.inj hcount₂
  exact ⟨r₁, v₂, r₂, hr₁, hthere, hv₂, hcount₁, hcount₂, hr₂, hstale (.inl (by omega))⟩

end ApiReport
