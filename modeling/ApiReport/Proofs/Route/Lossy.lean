import ApiReport.Proofs.Route.Survey
import ApiReport.Proofs.Text.Find
import ApiReport.Proofs.Text.WellFormed

/-!
# Source files that are no text

A source file is marked if and only if its bytes are not well formed. The text that is read of an
unmarked file stands for its bytes: they are those of the text, but for one byte-order mark that may
stand before them. What is read of a marked file holds U+FFFD, and no text stands for its bytes; a
file that is a text may hold U+FFFD as well and is not marked. So the marked files of a survey,
which are named in it and in a warning each, are those that are not read as they are.

Key definitions: `Route.StandsFor`, `Route.Source.IsReadingOf`, `Route.Survey.lossyWarning`.
Key theorems: `Route.Source.isReadingOf`, `Route.Survey.mem_lossy_iff`,
`Route.Survey.lossyWarning_mem_log`, `Route.lossy_exact`.
-/
namespace ApiReport.Route

open Text
open Utf8 (WellFormed encode dropMark)

variable {t : FileTree} {s : Settings} {file : String} {bytes : List UInt8}

/-- A text stands for bytes that are its own, but for a byte-order mark that may stand before
them. -/
def StandsFor (text : List Char) (bytes : List UInt8) : Prop :=
  bytes = encode text ∨ bytes = encode ('\ufeff' :: text)

theorem StandsFor.wellFormed {text : List Char} (h : StandsFor text bytes) : WellFormed bytes :=
  Utf8.wellFormed_iff.2 (h.elim (fun h => ⟨_, h⟩) fun h => ⟨_, h⟩)

/-! ### One file -/

namespace Source

/-- What is read of a file, given the bytes that the file holds. -/
structure IsReadingOf (f : Source) (bytes : List UInt8) : Prop where
  /-- Exactly the files that are not well formed are marked. -/
  lossy_iff : f.lossy = false ↔ WellFormed bytes
  /-- A file that is not marked is read as it is. -/
  standsFor : f.lossy = false → StandsFor f.text bytes
  /-- In a file that is marked something is replaced. -/
  replaced : f.lossy = true → '\ufffd' ∈ f.text
  /-- The bytes of a text are read as that text, whatever characters it holds. -/
  text_eq : ∀ cs, bytes = encode cs → f.lossy = false ∧ f.text = dropMark cs

theorem read_eq (hbytes : t.read file = .ok bytes) :
    Source.read t file =
      .ok { path := file, text := Utf8.decodeSource bytes, lossy := !Utf8.isText bytes } := by
  rw [Source.read, hbytes]
  rfl

theorem isReadingOf (file : String) (bytes : List UInt8) :
    IsReadingOf ⟨file, Utf8.decodeSource bytes, !Utf8.isText bytes⟩ bytes := by
  have hlossy : (!Utf8.isText bytes) = false ↔ WellFormed bytes := by
    rw [Bool.not_eq_false', Utf8.isText_iff]
  refine ⟨hlossy, fun h => ?_, fun h => ?_, ?_⟩
  · have hencode := Utf8.encode_decode (hlossy.1 h)
    rcases Utf8.eq_dropMark_or (Utf8.decode bytes) with heq | heq
    · rw [heq] at hencode
      exact .inl hencode.symm
    · rw [heq] at hencode
      exact .inr hencode.symm
  · exact Utf8.mem_dropMark (by decide) (Utf8.mem_decode_of_not_isText (by simpa using h))
  · rintro cs rfl
    refine ⟨hlossy.2 (Utf8.wellFormed_iff.2 ⟨cs, rfl⟩), ?_⟩
    rw [Utf8.decodeSource, Utf8.decode_encode]

/-- A file is marked if and only if what is read of it does not stand for its bytes. -/
theorem IsReadingOf.lossy_iff_not_standsFor {f : Source} (h : f.IsReadingOf bytes) :
    f.lossy = true ↔ ¬ StandsFor f.text bytes := by
  constructor
  · intro hlossy hstands
    rw [h.lossy_iff.2 hstands.wellFormed] at hlossy
    cases hlossy
  · intro hstands
    rw [← Bool.not_eq_false]
    exact fun hlossy => hstands (h.standsFor hlossy)

end Source

/-! ### The files of a survey -/

namespace Survey

variable {v : Survey}

/-- The warning about a file that is marked. -/
def lossyWarning (file : String) : Log.Entry :=
  { level := .warn, message := "Replaced undecodable bytes while reading " ++ file }

theorem lossyWarning_inj {file file' : String} (h : lossyWarning file = lossyWarning file') :
    file = file' :=
  (String.append_right_inj _).1 (congrArg Log.Entry.message h)

/-- The other warnings of a survey start with another word. -/
theorem lossyWarning_not_mem_rootWarnings (file : String) :
    lossyWarning file ∉ rootWarnings t s := by
  intro h
  obtain ⟨root, -, hroot⟩ := List.mem_map.1 h
  have hother : ¬ "Skipping missing scan root ".toList <+:
      ("Replaced undecodable bytes while reading " ++ file).toList :=
    not_prefix_toList_append (by decide) (by decide) file
  exact append_ne_of_not_prefix hother root (congrArg Log.Entry.message hroot)

/-- The marked files of a survey stand in the order of its files. -/
theorem lossy_sublist (hv : ofTree t s = .ok v) : v.lossy.Sublist v.files := by
  obtain ⟨sources, hsources, rfl⟩ := (ofTree_eq_ok (exists_root_of_ofTree hv)).1 hv
  have hpaths : (scanned t s).map id = sources.map Source.path := by
    refine map_eq_of_forall₂ (fun file f hread => ?_) hsources
    rw [Source.path_of_read hread, id]
  have hsublist : ((sources.filter Source.lossy).map Source.path).Sublist
      (sources.map Source.path) := List.filter_sublist.map _
  rwa [← hpaths, List.map_id] at hsublist

/-- The marked files of a survey are the marked ones of its files. -/
theorem mem_lossy_iff (hv : ofTree t s = .ok v) :
    file ∈ v.lossy ↔ file ∈ v.files ∧ ∃ f, Source.read t file = .ok f ∧ f.lossy = true := by
  obtain ⟨sources, hsources, rfl⟩ := (ofTree_eq_ok (exists_root_of_ofTree hv)).1 hv
  dsimp only
  rw [List.mem_map]
  constructor
  · rintro ⟨f, hf, rfl⟩
    obtain ⟨hf, hlossy⟩ := List.mem_filter.1 hf
    obtain ⟨file, hfile, hread⟩ := exists_of_forall₂ hsources.flip hf
    rw [Source.path_of_read hread]
    exact ⟨hfile, f, hread, hlossy⟩
  · rintro ⟨hfile, f, hread, hlossy⟩
    obtain ⟨f', hf, hread'⟩ := exists_of_forall₂ hsources hfile
    obtain rfl := Except.ok.inj (hread.symm.trans hread')
    exact ⟨f, List.mem_filter.2 ⟨hf, hlossy⟩, Source.path_of_read hread⟩

/-- A survey warns about the files that it names as marked. -/
theorem lossyWarning_mem_log (hv : ofTree t s = .ok v) :
    lossyWarning file ∈ log t s ↔ file ∈ v.lossy := by
  have hlog : log t s = rootWarnings t s ++ v.lossy.map lossyWarning := by
    rw [log, hv]
    rfl
  rw [hlog, List.mem_append, or_iff_right (lossyWarning_not_mem_rootWarnings file), List.mem_map]
  constructor
  · rintro ⟨file', hfile, h⟩
    rwa [← lossyWarning_inj h]
  · exact fun hfile => ⟨file, hfile, rfl⟩

end Survey

/-- **Marks are exact.** A file is marked if and only if its bytes are not well formed. An unmarked
file is read as it is, but for a byte-order mark at its start; what is read of a marked one holds
U+FFFD. So a survey names those of its files, each once and with a warning, of which what is read
does not stand for their bytes. -/
theorem lossy_exact (t : FileTree) (s : Settings) :
    (∀ file bytes, t.read file = .ok bytes →
      ∃ f, Source.read t file = .ok f ∧ f.IsReadingOf bytes) ∧
    ∀ v, Survey.ofTree t s = .ok v → v.lossy.Sublist v.files ∧ v.lossy.Nodup ∧ ∀ file,
      (file ∈ v.lossy ↔ file ∈ v.files ∧ ∃ bytes f, t.read file = .ok bytes ∧
        Source.read t file = .ok f ∧ ¬ StandsFor f.text bytes) ∧
      (Survey.lossyWarning file ∈ Survey.log t s ↔ file ∈ v.lossy) := by
  refine ⟨fun file bytes hbytes => ⟨_, Source.read_eq hbytes, Source.isReadingOf file bytes⟩,
    fun v hv => ?_⟩
  have hsublist := Survey.lossy_sublist hv
  have hfiles := (Survey.isComplete_of_ofTree (Survey.exists_root_of_ofTree hv) hv).nodup
  refine ⟨hsublist, hsublist.nodup hfiles, fun file => ⟨?_, Survey.lossyWarning_mem_log hv⟩⟩
  rw [Survey.mem_lossy_iff hv]
  refine and_congr_right fun _ => ?_
  constructor
  · rintro ⟨f, hread, hlossy⟩
    obtain ⟨bytes, hbytes⟩ := Source.read_isOk.1 ⟨f, hread⟩
    obtain rfl := Except.ok.inj ((Source.read_eq hbytes).symm.trans hread)
    exact ⟨bytes, _, hbytes, hread, (Source.isReadingOf file bytes).lossy_iff_not_standsFor.1 hlossy⟩
  · rintro ⟨bytes, f, hbytes, hread, hstands⟩
    obtain rfl := Except.ok.inj ((Source.read_eq hbytes).symm.trans hread)
    exact ⟨_, hread, (Source.isReadingOf file bytes).lossy_iff_not_standsFor.2 hstands⟩

/-- A directory with a source file that ends in half a surrogate pair, and with a text that is
nothing but U+FFFD behind a byte-order mark. -/
def lossyTree : FileTree :=
  ((FileTree.empty.put ["m"] .directory (by decide)).put
    ["m", "A.php"] (.file [0x61, 0xED, 0xA0, 0x80]) (by decide)).put
    ["m", "B.txt"] (.file (encode ['\ufeff', '\ufffd'])) (by decide)

/-- Settings under which the directory is scanned. -/
def lossySettings : Settings := { sampleSettings with scanRoots := ["/m"] }

/-- Only the file that is no text is marked. -/
theorem lossy_exact_sample :
    ∃ v f, Survey.ofTree lossyTree lossySettings = .ok v ∧ v.lossy = ["/m/A.php"] ∧
      Survey.lossyWarning "/m/A.php" ∈ Survey.log lossyTree lossySettings ∧
      Source.read lossyTree "/m/B.txt" = .ok f ∧ f.lossy = false ∧ f.text = ['\ufffd'] := by
  have hlossy : (Survey.ofTree lossyTree lossySettings).toOption.map Survey.lossy =
      some ["/m/A.php"] := by decide +kernel
  have hbytes : lossyTree.read "/m/B.txt" = .ok (encode ['\ufeff', '\ufffd']) := by
    decide +kernel
  obtain ⟨v, hv⟩ : ∃ v, Survey.ofTree lossyTree lossySettings = .ok v :=
    exists_of_isSome (by decide +kernel)
  rw [hv] at hlossy
  have hnamed : v.lossy = ["/m/A.php"] := Option.some.inj hlossy
  obtain ⟨hread, hsurvey⟩ := lossy_exact lossyTree lossySettings
  obtain ⟨f, hf, hreading⟩ := hread _ _ hbytes
  obtain ⟨-, -, hmarked⟩ := hsurvey v hv
  obtain ⟨hunmarked, htext⟩ := hreading.text_eq _ rfl
  refine ⟨v, f, hv, hnamed, (hmarked _).2.2 ?_, hf, hunmarked, htext⟩
  rw [hnamed]
  exact List.mem_singleton_self _

end ApiReport.Route
