import ApiReport.Proofs.Path.Normal

/-!
# Spellings of a path

A path can be spelled in many ways: with slashes doubled or put at its end, with full stops that
stay, with names that are taken back at once, and from the root or from the directory that it is
taken from. All of them lead to one location, so they are resolved to one text.

Key definitions: `Path.Respells`.
Key theorems: `Path.names_append`, `Path.resolve_eq_of_respells`.
-/
namespace ApiReport.Path

/-- Two spellings of one path, which is taken from a directory if it is relative. -/
inductive Respells (directory : String) : String → String → Prop
  | slashes (p q : String) : Respells directory (p ++ "//" ++ q) (p ++ "/" ++ q)
  | slashAtEnd {p : String} (hp : p ≠ "") : Respells directory (p ++ "/") p
  | stay (p q : String) : Respells directory (p ++ "/./" ++ q) (p ++ "/" ++ q)
  | stayAtStart {q : String} (hq : isAbsolute q = false) : Respells directory ("./" ++ q) q
  | back (p : String) {n : String} (hn : IsName n) (q : String) :
      Respells directory (p ++ "/" ++ n ++ "/../" ++ q) (p ++ "/" ++ q)
  | backAtStart {n q : String} (hn : IsName n) (hq : isAbsolute q = false) :
      Respells directory (n ++ "/../" ++ q) q
  | fromRoot (p : String) : Respells directory (resolve directory p) p
  | refl (p : String) : Respells directory p p
  | symm {p q : String} (h : Respells directory p q) : Respells directory q p
  | trans {p q r : String} (hpq : Respells directory p q) (hqr : Respells directory q r) :
      Respells directory p r

/-! ### Names of a path put together -/

theorem names_append (p q : String) : names (p ++ "/" ++ q) = names p ++ names q := by
  have hlist : (p ++ "/" ++ q).toList = p.toList ++ '/' :: q.toList := by
    rw [String.toList_append, String.toList_append, List.append_assoc]
    rfl
  unfold names
  rw [hlist, Text.pieces_append, List.filter_append, List.map_append]

theorem names_append_slash (p : String) : names (p ++ "/") = names p := by
  have h := names_append p ""
  rwa [String.append_empty, show names "" = [] from rfl, List.append_nil] at h

theorem names_of_not_mem {n : String} (hn : '/' ∉ n.toList) (h : n ≠ "") : names n = [n] := by
  have hne : n.toList ≠ [] := by simpa using h
  unfold names
  rw [Text.pieces_of_not_mem hn, List.filter_cons_of_pos (by simpa using hne), List.filter_nil,
    List.map_singleton, String.ofList_toList]

theorem names_of_isName {n : String} (hn : IsName n) : names n = [n] :=
  names_of_not_mem hn.2.2.2 hn.1

/-- The end of a path belongs to its last name. -/
theorem exists_names_append {v : String} (hv : '/' ∉ v.toList) (hne : v ≠ "") (u : String) :
    ∃ ns n, names (u ++ v) = ns ++ [n ++ v] := by
  obtain ⟨ps, p, -, hpieces⟩ := Text.exists_pieces_append hv u.toList
  have hlast : (p ++ v.toList).isEmpty = false := by simp [hne]
  unfold names
  rw [String.toList_append, hpieces, List.filter_append,
    List.filter_cons_of_pos (by simp [hlast]), List.filter_nil, List.map_append, List.map_singleton,
    String.ofList_append, String.ofList_toList]
  exact ⟨_, _, rfl⟩

theorem isAbsolute_append {p : String} (hp : p ≠ "") (q : String) :
    isAbsolute (p ++ q) = isAbsolute p := by
  have hne : p.toList ≠ [] := by simpa using hp
  obtain ⟨c, cs, hc⟩ := List.exists_cons_of_ne_nil hne
  rw [isAbsolute, isAbsolute, String.toList_append, hc]
  rfl

/-- Whether a path starts at the root is seen before its first slash, or else at that slash. -/
theorem isAbsolute_append_slash (p q r : String) :
    isAbsolute (p ++ "/" ++ q) = isAbsolute (p ++ "/" ++ r) := by
  have hne : p ++ "/" ≠ "" := by simp
  rw [isAbsolute_append hne, isAbsolute_append hne]

/-! ### Names that lead nowhere -/

theorem collapse_append : ∀ (ns ms : List String) (here : Location),
    collapse here (ns ++ ms) = collapse (collapse here ns) ms
  | [], _, _ => rfl
  | n :: ns, ms, here => by
    rw [List.cons_append, collapse, collapse]
    by_cases h1 : n = "."
    · rw [if_pos h1, if_pos h1, collapse_append ns ms here]
    · by_cases h2 : n = ".."
      · rw [if_neg h1, if_neg h1, if_pos h2, if_pos h2, collapse_append ns ms _]
      · rw [if_neg h1, if_neg h1, if_neg h2, if_neg h2, collapse_append ns ms _]

theorem collapse_back {n : String} (hn : IsName n) (here : Location) :
    collapse here [n, ".."] = here := by
  rw [collapse, if_neg hn.2.1, if_neg hn.2.2.1]
  exact List.dropLast_concat

theorem resolve_eq_of_names {p q : String} (habsolute : isAbsolute p = isAbsolute q)
    (h : ∀ here, collapse here (names p) = collapse here (names q)) (directory : String) :
    resolve directory p = resolve directory q := by
  rw [resolve, resolve, locate.eq_def _ p, locate.eq_def _ q, habsolute, h]

/-- What leads nowhere after a slash can be left out. -/
theorem resolve_append_slash (directory p : String) {q r : String}
    (h : ∀ here, collapse here (names q) = collapse here (names r)) :
    resolve directory (p ++ "/" ++ q) = resolve directory (p ++ "/" ++ r) := by
  refine resolve_eq_of_names (isAbsolute_append_slash p q r) (fun here => ?_) directory
  rw [names_append, names_append, collapse_append, collapse_append, h]

/-- What leads nowhere at the start of a relative path can be left out. -/
theorem resolve_slash_append (directory : String) {p q : String} (hp : p ≠ "")
    (hpq : isAbsolute p = isAbsolute q) (h : ∀ here, collapse here (names p) = here) :
    resolve directory (p ++ "/" ++ q) = resolve directory q := by
  refine resolve_eq_of_names ?_ (fun here => ?_) directory
  · rw [String.append_assoc, isAbsolute_append hp, hpq]
  · rw [names_append, collapse_append, h]

theorem isAbsolute_of_isName {n : String} (hn : IsName n) : isAbsolute n = false := by
  unfold isAbsolute
  rw [decide_eq_false_iff_not]
  exact fun h => hn.2.2.2 (List.mem_of_mem_head? h)

theorem names_back {n : String} (hn : IsName n) : names (n ++ "/" ++ "..") = [n, ".."] := by
  rw [names_append, names_of_isName hn]
  rfl

theorem append_back (p q : String) : p ++ "/../" ++ q = p ++ "/" ++ ".." ++ "/" ++ q := by
  have hback : "/../" = "/" ++ (".." ++ "/") := rfl
  rw [hback]
  simp only [String.append_assoc]

/-- Every spelling of a path is resolved to the same text. -/
theorem resolve_eq_of_respells {directory p q : String} (h : Respells directory p q) :
    resolve directory p = resolve directory q := by
  induction h with
  | slashes p q =>
    have hslashes : p ++ "//" ++ q = p ++ "/" ++ ("" ++ "/" ++ q) := by
      have hslash : "//" = "/" ++ ("" ++ "/") := rfl
      rw [hslash]
      simp only [String.append_assoc]
    rw [hslashes]
    refine resolve_append_slash directory p fun here => ?_
    rw [names_append]
    rfl
  | slashAtEnd hp =>
    refine resolve_eq_of_names (isAbsolute_append hp _) (fun here => ?_) directory
    rw [names_append_slash]
  | stay p q =>
    have hstay : p ++ "/./" ++ q = p ++ "/" ++ ("." ++ "/" ++ q) := by
      have hdot : "/./" = "/" ++ ("." ++ "/") := rfl
      rw [hdot]
      simp only [String.append_assoc]
    rw [hstay]
    refine resolve_append_slash directory p fun here => ?_
    rw [names_append, collapse_append]
    rfl
  | stayAtStart hq =>
    have hstay : "./" = "." ++ "/" := rfl
    rw [hstay]
    exact resolve_slash_append directory (by decide) (hq ▸ rfl) fun here => rfl
  | @back p n hn q =>
    have hback : p ++ "/" ++ n ++ "/../" ++ q = p ++ "/" ++ (n ++ "/" ++ ".." ++ "/" ++ q) := by
      rw [append_back]
      simp only [String.append_assoc]
    rw [hback]
    refine resolve_append_slash directory p fun here => ?_
    rw [names_append, names_back hn, collapse_append, collapse_back hn]
  | @backAtStart n q hn hq =>
    have hne : n ++ "/" ++ ".." ≠ "" := by simp
    rw [append_back]
    refine resolve_slash_append directory hne ?_ fun here => ?_
    · rw [String.append_assoc, isAbsolute_append hn.1, isAbsolute_of_isName hn, hq]
    · rw [names_back hn, collapse_back hn]
  | fromRoot p => exact resolve_eq_self (resolve_isNormal directory p) directory
  | refl p => rfl
  | symm _ ih => exact ih.symm
  | trans _ _ ihpq ihqr => exact ihpq.trans ihqr

end ApiReport.Path
