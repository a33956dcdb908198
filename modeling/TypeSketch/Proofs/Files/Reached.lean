import TypeSketch.Proofs.Files.Scripts

/-!
# Files That Paths Lead To

A file counts as being in a directory if some path leads to it. Then there is a directory
behind every name on the way, so whoever looks into a directory finds all the names that go on
from there to its files, however deep they are.

Some operations change a tree in one place only. Making directories leaves all files alone.
Removing a directory may fail half way and leave the directory itself, but in any case nothing
is gone that is not below it.

## Main definitions

* `Disk.IsFileAt`: A path leads to the file.

## Theorems

* `Disk.IsLocated.get?_of_isPrefix`: There are directories all along the way to a directory.
* `Disk.IsFileAt.isSome_get?`: The names that lead to a file.
* `Disk.get?_removeTree`: What is left when a directory has been removed.
-/

namespace TypeSketch

namespace Disk

open TypeSketch.Path

variable {disk other : Disk} {path : String} {w v : List String} {content : Content}

/-- A path leads to the file at the end of the way. -/
def IsFileAt (disk : Disk) (w : List String) (content : Content) : Prop :=
  ∃ path, disk.locate path = .ok (.found w (.file content))

section Reaching

/-- Behind all names of a way that a path leads along there are directories. -/
theorem Along.get?_of_isPrefix {ns : List String} (h : Along (· = some .directory) disk [] ns)
    (hv : v <+: wayFrom [] ns) : disk.get? v = some .directory := by
  -- From the end: a name adds one directory to the way, and two points take one away.
  induction ns using List.reverseRecOn with
  | nil =>
    rw [List.prefix_nil.mp hv]
    rfl
  | append_singleton ns name ih =>
    rw [along_concat] at h
    rw [wayFrom_concat, goOn] at hv
    split at hv
    · exact ih h.1 (hv.trans (List.dropLast_prefix _))
    · next hup =>
      rcases List.prefix_concat_iff.mp hv with rfl | hv
      · exact (h.2 hup).2
      · exact ih h.1 hv

/-- There are directories all along the way to a directory. -/
theorem IsLocated.get?_of_isPrefix (h : disk.IsLocated path) (hv : v <+: way path) :
    disk.get? v = some .directory :=
  (isLocated_iff.mp h).2.get?_of_isPrefix hv

/-- One gets to a file behind a directory. -/
theorem exists_of_follow_eq_file {ns : List String}
    (h : disk.follow [] ns = .ok (.found w (.file content))) :
    ∃ before name, w = wayFrom [] before ++ [name] ∧ disk.get? w = some (.file content) ∧
      Along (· = some .directory) disk [] before := by
  rcases List.eq_nil_or_concat ns with rfl | ⟨before, name, rfl⟩
  · rw [follow.eq_1] at h
    cases h
  · rw [List.concat_eq_append, follow_concat] at h
    -- A file ends a path, so everything before the last name is a directory.
    split at h
    · contradiction
    · next v hv =>
      rcases follow_eq_directory_iff.mp hv with ⟨rfl, halong⟩
      rw [follow.eq_2] at h
      split at h
      · rw [follow.eq_1] at h
        cases h
      · split at h
        · contradiction
        -- What stands at the last name has to be the file itself.
        · cases hget : disk.get? (wayFrom [] before ++ [name]) with
          | none => simp [hget] at h
          | some node =>
            cases node with
            | directory => simp [hget, follow.eq_1] at h
            | file found =>
              simp only [hget, List.isEmpty_nil, if_true, Except.ok.injEq, Place.found.injEq,
                Node.file.injEq] at h
              rcases h with ⟨rfl, rfl⟩
              exact ⟨before, name, rfl, hget, halong⟩
    · contradiction
    · contradiction

theorem IsFileAt.exists_way (h : disk.IsFileAt w content) :
    ∃ before name, w = wayFrom [] before ++ [name] ∧ disk.get? w = some (.file content) ∧
      Along (· = some .directory) disk [] before := by
  rcases h with ⟨path, hlocate⟩
  have hempty : path ≠ "" := by
    rintro rfl
    cases hlocate
  rw [locate_of_ne_empty hempty] at hlocate
  exact exists_of_follow_eq_file hlocate

theorem IsFileAt.get?_eq (h : disk.IsFileAt w content) : disk.get? w = some (.file content) := by
  rcases h.exists_way with ⟨_, _, _, hget, _⟩
  exact hget

/-- Something is behind every name that leads to a file. -/
theorem IsFileAt.isSome_get? (h : disk.IsFileAt w content) (hv : v <+: w) :
    (disk.get? v).isSome = true := by
  rcases h.exists_way with ⟨before, name, rfl, hget, halong⟩
  rcases List.prefix_concat_iff.mp hv with rfl | hv
  · rw [hget]
    rfl
  · rw [halong.get?_of_isPrefix hv]
    rfl

end Reaching

section Changing

/-- Making directories leaves all files alone. -/
theorem Grown.get?_eq_file (h : disk.Grown other path) (hfile : disk.get? v = some (.file content)) :
    other.get? v = some (.file content) := by
  rcases h v with heq | ⟨hnone, _⟩
  · rw [heq, hfile]
  · rw [hnone] at hfile
    contradiction

/-- What is there stays there when directories are made. -/
theorem Grown.isSome_get? (h : disk.Grown other path) (hsome : (disk.get? v).isSome = true) :
    (other.get? v).isSome = true := by
  rcases h v with heq | ⟨hnone, _⟩
  · rw [heq, hsome]
  · rw [hnone] at hsome
    contradiction

/-- No file comes with directories that are made. -/
theorem Grown.get?_ne_file (h : disk.Grown other path) (hnone : disk.get? v ≠ some (.file content)) :
    other.get? v ≠ some (.file content) := by
  rcases h v with heq | ⟨_, hdir, _⟩
  · rwa [heq]
  · rw [hdir]
    exact fun hfile => Node.noConfusion (Option.some.inj hfile)

/-- What is at the end of a way after a directory has been emptied. -/
theorem get?_clear (disk : Disk) (w : List String) (hv : ¬w <+: v) :
    (disk.clear w).get? v = disk.get? v := by
  by_cases hnil : v = []
  · rw [hnil]
    rfl
  · rw [get?_of_ne_nil hnil, get?_of_ne_nil hnil]
    refine (lookup_filter (fun other => !(w.isPrefixOf other && w.length < other.length))
      disk.nodes v).trans (if_pos ?_)
    rw [Bool.eq_false_iff.mpr fun h => hv (List.isPrefixOf_iff_prefix.mp h)]
    rfl

/-- Whatever comes of removing a directory, nothing is gone but what is in it. -/
theorem get?_removeTree (disk : Disk) (path : String) (hv : ¬way path <+: v) :
    (disk.removeTree path).2.get? v = disk.get? v := by
  have hremove : (disk.remove (way path)).get? v = disk.get? v := by
    by_cases hnil : v = []
    · rw [hnil]
      rfl
    · rw [get?_remove disk _ hnil, if_neg hv]
  -- A directory is cleared before it is removed, and either may fail. Neither goes beyond what is
  -- below it.
  by_cases hdir : disk.IsLocated path
  · rw [removeTree, hdir.locateNode]
    dsimp only
    split
    · split
      · exact get?_clear disk _ hv
      · split
        · exact get?_clear disk _ hv
        · exact hremove
    · exact hremove
  · unfold removeTree
    split
    · rfl
    · rfl
    · rfl
    · next hnode => exact absurd (isLocated_of_locateNode hnode) hdir

end Changing

end Disk

end TypeSketch
