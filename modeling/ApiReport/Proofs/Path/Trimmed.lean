import ApiReport.Proofs.Path.Display
import ApiReport.Proofs.Text.Margin

/-!
# Paths without the blanks around them

An absolute path starts with a slash, so that trimming takes blanks only from its last name. What is
left of that name is another name, a step that stays or leads up, or nothing. None of them leads
where the name led. So a normal path leads to the same place when it is trimmed if it does not end
in a blank, and only then.

Key theorems: `Path.trimmed_startBelow`, `Path.eq_of_collapse`, `Path.resolve_trimmed_eq_iff`.
-/
namespace ApiReport.Path

variable {path directory : String}

theorem trimmed_of_isAbsolute (h : isAbsolute path = true) :
    Text.trimmed path = String.ofList (Text.trimEnd path.toList) := by
  obtain ⟨cs, hcs⟩ : ∃ cs, path.toList = '/' :: cs := by
    rw [isAbsolute, decide_eq_true_eq] at h
    exact List.head?_eq_some_iff.1 h
  have hstart : Text.trimStart path.toList = path.toList := by
    rw [hcs]
    exact List.dropWhile_cons_of_neg (by decide)
  rw [Text.trimmed, Text.trim, hstart]

theorem trimmed_ne_empty (h : isAbsolute path = true) : Text.trimmed path ≠ "" := by
  rw [trimmed_of_isAbsolute h, ne_eq, String.ofList_eq_empty_iff]
  intro hnil
  obtain ⟨g, hg, hpath⟩ := Text.exists_margin_trimEnd path.toList
  rw [hnil, List.nil_append] at hpath
  rw [isAbsolute, decide_eq_true_eq, hpath] at h
  exact absurd (hg '/' (List.mem_of_mem_head? h)) (by decide)

theorem trimmed_eq_self (h : isAbsolute path = true)
    (hclean : Text.endsInBlank path.toList = false) : Text.trimmed path = path := by
  rw [trimmed_of_isAbsolute h, Text.trimEnd_eq_self hclean, String.ofList_toList]

theorem isAbsolute_startBelow (h : isAbsolute directory = true) (path : String) :
    isAbsolute (startBelow directory ++ path) = true := by
  have hne : directory ≠ "" := by
    rintro rfl
    cases h
  unfold startBelow
  split
  · rw [isAbsolute_append (by decide)]
    rfl
  · rw [String.append_assoc, isAbsolute_append hne, h]

theorem endsInBlank_startBelow (directory : String) :
    Text.endsInBlank (startBelow directory).toList = false := by
  unfold startBelow
  split
  · rfl
  · rw [String.toList_append, Text.endsInBlank_append _ (by decide)]
    rfl

/-- Blanks at the end of a path belong to its last name. -/
theorem trimmed_startBelow (h : isAbsolute directory = true) (n : String) :
    Text.trimmed (startBelow directory ++ n) =
      startBelow directory ++ String.ofList (Text.trimEnd n.toList) := by
  obtain ⟨g, hg, hn⟩ := Text.exists_margin_trimEnd n.toList
  have hclean : Text.endsInBlank ((startBelow directory).toList ++ Text.trimEnd n.toList) = false := by
    by_cases hnil : Text.trimEnd n.toList = []
    · rw [hnil, List.append_nil, endsInBlank_startBelow]
    · rw [Text.endsInBlank_append _ hnil, Text.endsInBlank_trimEnd]
  have htrim : Text.trimEnd ((startBelow directory).toList ++ n.toList) =
      (startBelow directory).toList ++ Text.trimEnd n.toList := by
    calc Text.trimEnd ((startBelow directory).toList ++ n.toList)
      _ = Text.trimEnd ((startBelow directory).toList ++ Text.trimEnd n.toList ++ g) := by
          rw [List.append_assoc, ← hn]
      _ = (startBelow directory).toList ++ Text.trimEnd n.toList := by
          rw [Text.trimEnd_append hg, Text.trimEnd_eq_self hclean]
  rw [trimmed_of_isAbsolute (isAbsolute_startBelow h n), String.toList_append, htrim,
    String.ofList_append, String.ofList_toList]

/-- Only one name leads down by that name. -/
theorem eq_of_collapse {l : Location} {n k : String} (hk : '/' ∉ k.toList)
    (h : collapse l (names k) = l ++ [n]) : n = k := by
  by_cases hempty : k = ""
  · have hnames : names k = [] := by rw [hempty]; rfl
    rw [hnames, collapse] at h
    simp at h
  · rw [names_of_not_mem hk hempty, collapse] at h
    by_cases hstay : k = "."
    · rw [if_pos hstay, collapse] at h
      simp at h
    · by_cases hup : k = ".."
      · rw [if_neg hstay, if_pos hup, collapse] at h
        have hlength := congrArg List.length h
        rw [List.length_dropLast, List.length_append, List.length_singleton] at hlength
        omega
      · rw [if_neg hstay, if_neg hup, collapse, List.append_cancel_left_eq] at h
        exact (List.singleton_inj.1 h).symm

/-- A normal path without the blanks around it leads to where it led if it does not end in one, and
only then. -/
theorem resolve_trimmed_eq_iff (h : IsNormal path) (base : String) :
    resolve base (Text.trimmed path) = path ↔ Text.endsInBlank path.toList = false := by
  obtain ⟨l, hl, rfl⟩ := h
  constructor
  · intro hresolve
    rcases List.eq_nil_or_concat' l with rfl | ⟨l, n, rfl⟩
    · rfl
    have hn : IsName n := hl n List.mem_append_cons_self
    have hl' : IsLocation l := fun m hm => hl m (List.mem_append_left _ hm)
    have hpath : ofLocation (l ++ [n]) = startBelow (ofLocation l) ++ n := by
      rw [ofLocation_append hl' (List.cons_ne_nil n []), String.intercalate_singleton]
    have hslash : '/' ∉ (String.ofList (Text.trimEnd n.toList)).toList := by
      obtain ⟨g, -, hg⟩ := Text.exists_margin_trimEnd n.toList
      rw [String.toList_ofList]
      exact fun hmem => hn.2.2.2 (hg ▸ List.mem_append_left g hmem)
    -- what is left of the last name is still the way down by it
    have hlast : n = String.ofList (Text.trimEnd n.toList) := by
      refine eq_of_collapse hslash (l := l) ?_
      have hlocate := congrArg names hresolve
      rw [resolve, names_ofLocation (locate_isLocation (locate_isLocation (by simp [IsLocation]) _) _),
        names_ofLocation hl, hpath, trimmed_startBelow (isAbsolute_ofLocation l), locate,
        isAbsolute_startBelow (isAbsolute_ofLocation l), if_pos rfl, names_startBelow,
        names_ofLocation hl', collapse_append, collapse_eq_append _ hl', List.nil_append] at hlocate
      exact hlocate
    have hchars : n.toList = Text.trimEnd n.toList := by
      rw [← String.toList_ofList (l := Text.trimEnd n.toList), ← hlast]
    rw [hpath, String.toList_append, Text.endsInBlank_append _ (by simpa using hn.1), hchars,
      Text.endsInBlank_trimEnd]
  · intro hclean
    rw [trimmed_eq_self (isAbsolute_ofLocation l) hclean, resolve_eq_self ⟨l, hl, rfl⟩]

end ApiReport.Path
