import Mathlib.Data.List.Basic
import TypeSketch.Files.Path

/-!
# Names on Paths

Which names stand on a path that has been put together from a directory and a file, and
on the path to the directory above. Slashes separate the names, so what stands on two
texts with a slash between them is what stands on each of them. Slashes and single points
at the end of a path count for nothing, and a path is cut off before its last name.

## Main definitions

* `Path.IsFileName`: Texts that name a file in a directory.
* `Path.IsTrimmed`: Paths that end with a name.

## Theorems

* `Path.names_join`: The names on the path of a file.
* `Path.names_parent`: The names on the path to the directory above.
-/

namespace TypeSketch

namespace Path

/-- The names on a path, by its characters. -/
def namesOf (chars : List Char) : List String :=
  ((chars.splitOn '/').map String.ofList).filter fun s => s ≠ "" && s ≠ "."

section Names

theorem namesOf_append_slash (l r : List Char) :
    namesOf (l ++ '/' :: r) = namesOf l ++ namesOf r := by
  rw [namesOf, List.splitOn_append_cons_self, List.map_append, List.filter_append]
  rfl

theorem namesOf_nil : namesOf [] = [] := by
  decide

/-- Without a slash there is one name at most. -/
theorem namesOf_of_not_mem {l : List Char} (h : '/' ∉ l) :
    namesOf l = if l = [] ∨ l = ['.'] then [] else [String.ofList l] := by
  have hempty : String.ofList l = "" ↔ l = [] := by
    rw [← String.toList_inj, String.toList_ofList]
    rfl
  have hpoint : String.ofList l = "." ↔ l = ['.'] := by
    rw [← String.toList_inj, String.toList_ofList]
    rfl
  rw [namesOf, List.splitOn_eq_singleton h, List.map_singleton]
  by_cases hnil : l = [] <;> by_cases hdot : l = ['.'] <;> simp [hempty, hpoint, hnil, hdot]

/-- No name holds a slash. -/
theorem not_mem_of_mem_namesOf {l : List Char} {name : String} (h : name ∈ namesOf l) :
    '/' ∉ name.toList := by
  by_cases hslash : '/' ∈ l
  · rcases List.append_of_mem hslash with ⟨before, after, hl⟩
    have hlength := congrArg List.length hl
    rw [List.length_append, List.length_cons] at hlength
    rw [hl, namesOf_append_slash] at h
    rcases List.mem_append.mp h with h | h
    · exact not_mem_of_mem_namesOf h
    · exact not_mem_of_mem_namesOf h
  · rw [namesOf_of_not_mem hslash] at h
    split at h
    · exact absurd h List.not_mem_nil
    · rwa [List.mem_singleton.mp h, String.toList_ofList]
termination_by l.length

/-- The names on a path are among its components, and the others are no names. -/
theorem names_eq_filter_components (path : String) :
    names path = (components path).filter fun c => c ≠ "/" && c ≠ "." := by
  have hnames : (names path).filter (fun c => c ≠ "/" && c ≠ ".") = names path := by
    refine List.filter_eq_self.mpr fun name hname => ?_
    have hslash : name ≠ "/" := by
      rintro rfl
      exact not_mem_of_mem_namesOf hname (by decide)
    have hpoint := (Bool.and_eq_true_iff.mp (List.mem_filter.mp hname).2).2
    rw [decide_eq_true hslash, Bool.true_and]
    exact hpoint
  rw [components, List.filter_append, hnames]
  split
  · rfl
  · split <;> rfl

/-- A text that names a file in a directory. -/
structure IsFileName (file : String) : Prop where
  no_slash : '/' ∉ file.toList
  ne_empty : file ≠ ""
  ne_point : file ≠ "."
  ne_points : file ≠ ".."

variable {dir file : String}

theorem IsFileName.namesOf_eq (h : IsFileName file) : namesOf file.toList = [file] := by
  rw [namesOf_of_not_mem h.no_slash, if_neg, String.ofList_toList]
  rintro (hnil | hpoint)
  · exact h.ne_empty (String.toList_eq_nil_iff.mp hnil)
  · exact h.ne_point (String.toList_inj.mp hpoint)

theorem IsFileName.not_isAbsolute (h : IsFileName file) : isAbsolute file = false := by
  rw [isAbsolute, decide_eq_false_iff_not]
  exact fun hhead => h.no_slash (List.mem_of_mem_head? hhead)

/-- The characters of the path of a file: those of the directory, if there are any, a slash
    and those of the file. -/
theorem toList_join (h : IsFileName file) :
    ∃ before, namesOf before = names dir ∧
      ((join dir file).toList = before ++ '/' :: file.toList ∨
        before = [] ∧ (join dir file).toList = file.toList) := by
  unfold join
  rw [h.not_isAbsolute, Bool.false_or]
  by_cases hempty : dir.isEmpty = true
  · rw [if_pos hempty]
    rw [String.isEmpty_iff] at hempty
    subst hempty
    exact ⟨[], rfl, Or.inr ⟨rfl, rfl⟩⟩
  · rw [if_neg hempty]
    by_cases hslash : dir.toList.getLast? = some '/'
    · rw [if_pos hslash]
      -- The slash at the end of the directory is the one between the two.
      rcases List.getLast?_eq_some_iff.mp hslash with ⟨before, hdir⟩
      refine ⟨before, ?_, Or.inl ?_⟩
      · change _ = namesOf dir.toList
        rw [hdir, namesOf_append_slash, namesOf_nil, List.append_nil]
      · rw [String.toList_append, hdir, List.append_assoc]
        rfl
    · rw [if_neg hslash]
      refine ⟨dir.toList, rfl, Or.inl ?_⟩
      rw [String.toList_append, String.toList_append, List.append_assoc]
      rfl

/-- On the path of a file stand the names of its directory and its own. -/
theorem names_join (h : IsFileName file) : names (join dir file) = names dir ++ [file] := by
  change namesOf (join dir file).toList = _
  rcases @toList_join dir _ h with ⟨before, hbefore, hjoin | ⟨rfl, hjoin⟩⟩
  · rw [hjoin, namesOf_append_slash, hbefore, h.namesOf_eq]
  · rw [hjoin, h.namesOf_eq, ← hbefore, namesOf_nil, List.nil_append]

theorem join_ne_empty (h : IsFileName file) : join dir file ≠ "" := by
  intro hempty
  have hnames := @names_join dir _ h
  rw [hempty] at hnames
  exact List.append_ne_nil_of_right_ne_nil (names dir) (List.cons_ne_nil file []) hnames.symm

/-- The path of a file does not end as one of a directory does. -/
theorem endsAsDirectory_join (h : IsFileName file) : endsAsDirectory (join dir file) = false := by
  have hlast : (segments (join dir file)).getLast? = some file := by
    have hfile : (file.toList.splitOn '/').map String.ofList = [file] := by
      rw [List.splitOn_eq_singleton h.no_slash, List.map_singleton, String.ofList_toList]
    rw [segments]
    rcases @toList_join dir _ h with ⟨before, _, hjoin | ⟨_, hjoin⟩⟩
    · rw [hjoin, List.splitOn_append_cons_self, List.map_append, hfile, List.getLast?_concat]
    · rw [hjoin, hfile, List.getLast?_singleton]
  rw [endsAsDirectory, hlast]
  simp [h.ne_empty, h.ne_point, h.ne_points]

end Names

section Parents

/-- What is trimmed from the end of a path holds no names. -/
theorem namesOf_trimReversed (r : List Char) :
    namesOf (trimReversed r).reverse = namesOf r.reverse := by
  fun_induction trimReversed r with
  | case1 => rfl
  | case2 rest _ ih =>
    rw [ih, List.reverse_cons, namesOf_append_slash, namesOf_nil, List.append_nil]
  | case3 rest ih =>
    rw [ih, List.reverse_cons, List.reverse_cons, List.reverse_cons, List.append_assoc]
    change _ = namesOf (rest.reverse ++ '/' :: ['.'])
    rw [namesOf_append_slash, namesOf_append_slash]
    rfl
  | case4 => rfl

/-- A path, the last character first, that ends with a name unless it is the root. -/
def IsTrimmed (r : List Char) : Prop :=
  r = ['/'] ∨ (∀ rest, r ≠ '/' :: rest) ∧ ∀ rest, r ≠ '.' :: '/' :: rest

theorem isTrimmed_trimReversed (r : List Char) : IsTrimmed (trimReversed r) := by
  fun_induction trimReversed r with
  | case1 => exact Or.inl rfl
  | case2 rest _ ih => exact ih
  | case3 rest ih => exact ih
  | case4 path hroot hslash hpoint =>
    refine Or.inr ⟨fun rest heq => ?_, fun rest heq => hpoint rest heq⟩
    exact hslash rest heq

/-- Behind the last slash of a trimmed path there is a name, unless it is the root. -/
theorem IsTrimmed.eq_root {last rest : List Char} (h : IsTrimmed (last ++ '/' :: rest))
    (hnone : last.reverse = [] ∨ last.reverse = ['.']) : rest = [] := by
  rcases hnone with hnil | hpoint
  · rw [List.reverse_eq_nil_iff.mp hnil, List.nil_append] at h
    rcases h with hroot | ⟨hslash, _⟩
    · exact (List.cons.inj hroot).2
    · exact absurd rfl (hslash rest)
  · rw [List.reverse_eq_iff.mp hpoint] at h
    rcases h with hroot | ⟨_, hdot⟩
    · exact absurd (List.cons.inj hroot).1 (by decide)
    · exact absurd rfl (hdot rest)

/-- Without what is behind its last slash, a trimmed path has lost its last name. -/
theorem IsTrimmed.namesOf_dropWhile {whole : List Char} (h : IsTrimmed whole) :
    namesOf (whole.dropWhile (· ≠ '/')).reverse = (namesOf whole.reverse).dropLast := by
  have hseg : ∀ c ∈ whole.takeWhile (· ≠ '/'), c ≠ '/' := fun c hc =>
    of_decide_eq_true (List.all_eq_true.mp List.all_takeWhile c hc)
  have hsplit := List.takeWhile_append_dropWhile (p := (· ≠ '/')) (l := whole)
  -- Without a last name, the path is the root, as it would be trimmed otherwise.
  generalize whole.takeWhile (· ≠ '/') = last at hseg hsplit
  have hlast : '/' ∉ last.reverse := fun hmem => hseg '/' (List.mem_reverse.mp hmem) rfl
  -- The list is read backwards, so what is taken off first is the last name.
  cases hrest : whole.dropWhile (· ≠ '/') with
  | nil =>
    rw [hrest, List.append_nil] at hsplit
    rw [← hsplit, namesOf_of_not_mem hlast]
    split <;> rfl
  | cons c rest =>
    have hc : c = '/' := by
      have hhead := List.head?_dropWhile_not (· ≠ '/') whole
      rw [hrest, List.head?_cons] at hhead
      simpa using hhead
    rw [hrest, hc] at hsplit
    rw [hc, ← hsplit, List.reverse_append, List.reverse_cons, List.append_assoc,
      List.singleton_append, namesOf_append_slash, namesOf_append_slash, namesOf_nil,
      List.append_nil, namesOf_of_not_mem hlast]
    split
    · next hnone =>
      have htrimmed : IsTrimmed (last ++ '/' :: rest) := hsplit.symm ▸ h
      rw [htrimmed.eq_root hnone]
      rfl
    · rw [List.dropLast_concat]

/-- On the path to the directory above stand all names but the last one. -/
theorem names_parent {path parent : String} (h : parent? path = some parent) :
    names parent = (names path).dropLast := by
  unfold parent? at h
  split at h
  · contradiction
  · rw [Option.some.injEq] at h
    have hwhole : namesOf (trimReversed path.toList.reverse).reverse = names path := by
      rw [namesOf_trimReversed, List.reverse_reverse]
      rfl
    rw [← hwhole, ← (isTrimmed_trimReversed path.toList.reverse).namesOf_dropWhile,
      ← namesOf_trimReversed, ← h]
    change namesOf (String.ofList _).toList = _
    rw [String.toList_ofList]

/-- A path with a name on it has a directory above. -/
theorem exists_parent {path : String} (h : names path ≠ []) :
    ∃ parent, parent? path = some parent := by
  unfold parent?
  rw [if_neg]
  · exact ⟨_, rfl⟩
  · rw [components]
    rintro (hnil | hroot)
    · exact h (List.append_eq_nil_iff.mp hnil).2
    · rcases List.append_eq_singleton_iff.mp hroot with ⟨_, hnames⟩ | ⟨_, hnil⟩
      · have hmem : "/" ∈ names path := by
          rw [hnames]
          exact List.mem_singleton_self _
        exact not_mem_of_mem_namesOf hmem (by decide)
      · exact h hnil

end Parents

end Path

end TypeSketch
