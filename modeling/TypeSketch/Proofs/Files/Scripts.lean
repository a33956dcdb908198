import TypeSketch.Proofs.Files.Disks

/-!
# Scripts on a Directory Tree

What scripts do when they run on a directory tree, and above all the script that creates
a directory and those above it that are missing. It only adds directories, and only at
places on the path. When it succeeds the directory is there, and it succeeds on every
passable path.

## Main definitions

* `Disk.Grown`: A tree with more directories on a path.

## Theorems

* `Script.run_bind`: A script and one that goes on with its result.
* `Script.exists_run_createDirectories`: Creating a directory and all above it.
* `Script.run_createDirectories_of_isLocated`: Creating a directory that is there.
-/

namespace TypeSketch

open TypeSketch.Path

section Running

variable {α β : Type}

namespace Script

theorem run_pure (a : α) (world : World) : (pure a : Script α).run world = (a, world) := rfl

theorem run_bind (script : Script α) (f : α → Script β) (world : World) :
    (script >>= f).run world = (f (script.run world).1).run (script.run world).2 := by
  change (script.bind f).run world = _
  induction script generalizing world with
  | done a => rfl
  | readText path next ih => exact ih _ world
  | writeText path text next ih => exact ih _ _
  | createDirectory path next ih => exact ih _ _
  | inspect path next ih => exact ih _ world
  | listDirectory path next ih => exact ih _ world
  | removeTree path next ih => exact ih _ _
  | clock next ih => exact ih _ world

theorem run_kindOf (path : String) (world : World) :
    (kindOf path).run world = (world.disk.inspect path, world) := rfl

theorem run_isDirectory (path : String) (world : World) :
    (isDirectory path).run world =
      (decide (world.disk.inspect path = some .directory), world) := rfl

theorem run_createDirectory (path : String) (world : World) :
    (createDirectory path done).run world =
      ((world.disk.commit (world.disk.createDirectory path)).1,
        { world with disk := (world.disk.commit (world.disk.createDirectory path)).2 }) := rfl

theorem run_readText (path : String) (world : World) :
    (readText path done).run world = (world.disk.readText path, world) := rfl

theorem run_listDirectory (path : String) (world : World) :
    (listDirectory path done).run world = (world.disk.listDirectory path, world) := rfl

theorem run_removeTree (path : String) (world : World) :
    (removeTree path done).run world =
      ((world.disk.removeTree path).1, { world with disk := (world.disk.removeTree path).2 }) := rfl

theorem run_clock (world : World) : (clock done).run world = (world.now, world) := rfl

end Script

theorem Disk.commit_error (disk : Disk) (error : FileError) :
    disk.commit (.error error) = (.error error, disk) := rfl

end Running

namespace Disk

variable {disk other last : Disk} {path parent : String}

section Creating

theorem createDirectory_of_isLocated (h : disk.IsLocated path) :
    disk.createDirectory path = .error .alreadyExists := by
  rw [createDirectory, h]

theorem inspect_of_isLocated (h : disk.IsLocated path) : disk.inspect path = some .directory := by
  rw [inspect, h.locateNode]

/-- What is found to be a directory is one. -/
theorem isLocated_of_inspect (h : disk.inspect path = some .directory) : disk.IsLocated path := by
  unfold inspect at h
  split at h
  · next w hw => exact isLocated_of_locateNode hw
  · cases h
  · cases h

/-- The other tree has more directories, at places on the path. -/
def Grown (disk other : Disk) (path : String) : Prop :=
  ∀ v, other.get? v = disk.get? v ∨
    disk.get? v = none ∧ other.get? v = some .directory ∧
      ∃ ns, ns <+: names path ∧ v = wayFrom [] ns

theorem Grown.refl (disk : Disk) (path : String) : disk.Grown disk path := fun _ => Or.inl rfl

theorem Grown.trans (h : disk.Grown other path) (hlast : other.Grown last path) :
    disk.Grown last path := by
  intro v
  rcases hlast v with heq | ⟨hnone, hdir, hplace⟩
  · rw [heq]
    exact h v
  · rcases h v with heq | ⟨_, hother, _⟩
    · exact Or.inr ⟨heq ▸ hnone, hdir, hplace⟩
    · rw [hnone] at hother
      contradiction

theorem Grown.of_parent (h : disk.Grown other parent) (hnames : names parent <+: names path) :
    disk.Grown other path := by
  intro v
  rcases h v with heq | ⟨hnone, hdir, ns, hns, hv⟩
  · exact Or.inl heq
  · exact Or.inr ⟨hnone, hdir, ns, hns.trans hnames, hv⟩

theorem Grown.isPassable (h : disk.Grown other path) (hpass : disk.IsPassable path) :
    other.IsPassable path := by
  refine hpass.mono fun v content hfile => ?_
  rcases h v with heq | ⟨_, hdir, _⟩
  · rw [← heq, hfile]
  · rw [hdir] at hfile
    cases hfile

/-- A directory that has been created is there, and nothing else has changed. -/
theorem of_createDirectory (h : disk.createDirectory path = .ok other) :
    other.IsLocated path ∧ disk.Grown other path := by
  unfold createDirectory at h
  split at h
  · contradiction
  · next w hfree =>
    rw [Except.ok.injEq] at h
    subst h
    have hempty : path ≠ "" := by
      rintro rfl
      contradiction
    rw [locate_of_ne_empty hempty] at hfree
    -- The place of the new directory was free, so nothing that was there is lost.
    rcases exists_of_follow_eq_free hfree with
      ⟨before, name, hnames, hbefore, hup, hshort, hw, hne, hnone⟩
    have hget := disk.get?_put hne .directory
    -- The new directory is at the end of the path, behind directories that are still there.
    constructor
    · have hkept : ∀ v, disk.get? v = some .directory →
          (disk.put w .directory).get? v = some .directory := by
        intro v hv
        rw [hget]
        split
        · rfl
        · exact hv
      rw [isLocated_iff, hnames, along_concat]
      refine ⟨hempty, (follow_eq_directory_iff.mp hbefore).2.mono hkept, fun _ => ⟨hshort, ?_⟩⟩
      rw [hnames, wayFrom_concat, goOn, if_neg hup] at hw
      rw [← hw, hget, if_pos rfl]
    · intro v
      rw [hget]
      by_cases hv : v = w
      · exact Or.inr ⟨hv ▸ hnone, if_pos hv, names path, List.prefix_refl _, hv.trans hw⟩
      · exact Or.inl (if_neg hv)
  · contradiction

theorem follow_singleton_ne_notFound (disk : Disk) (way : List String) (name : String) :
    disk.follow way [name] ≠ .error .notFound := by
  rw [follow.eq_2]
  split
  · simp [follow.eq_1]
  · split
    · simp
    · cases disk.get? (way ++ [name]) with
      | none => simp
      | some node => cases node <;> simp [follow.eq_1]

/-- On a passable path a directory can be created unless it is there, or the one above it is
    missing. -/
theorem isLocated_or_of_createDirectory_eq_error {error : FileError} (hpass : disk.IsPassable path)
    (h : disk.createDirectory path = .error error) :
    disk.IsLocated path ∨ error = .notFound ∧ disk.locate path = .error .notFound := by
  rcases locate_cases_of_isPassable hpass with hlocated | ⟨w, hfree⟩ | hmissing
  · exact Or.inl hlocated
  · rw [createDirectory, hfree] at h
    contradiction
  · rw [createDirectory, hmissing] at h
    exact Or.inr ⟨(Except.error.inj h).symm, hmissing⟩

/-- Where the directory above is there, nothing is missing. -/
theorem locate_ne_notFound (hempty : path ≠ "")
    (hparent : ∃ w, disk.follow [] (names path).dropLast = .ok (.found w .directory)) :
    disk.locate path ≠ .error .notFound := by
  rcases hparent with ⟨w, hw⟩
  rw [locate_of_ne_empty hempty]
  by_cases hnil : names path = []
  · simp [hnil, follow.eq_1]
  · rw [← List.dropLast_append_getLast hnil, follow_concat, hw]
    exact follow_singleton_ne_notFound disk w _

theorem IsPassable.of_prefix (h : disk.IsPassable path) (hempty : parent ≠ "")
    (hnames : names parent <+: names path) : disk.IsPassable parent := by
  rcases hnames with ⟨tail, htail⟩
  exact ⟨hempty, Along.of_append (htail ▸ h.2)⟩

end Creating

end Disk

namespace Script

open Disk createDirectoriesFrom

variable {disk : Disk} {path : String}

section Directories

/-- What creating a directory leaves: a tree that has grown, and after a success the
    directory. -/
structure IsCreation (disk : Disk) (path : String) (answer : Except FileError Unit) (other : Disk) :
    Prop where
  grown : disk.Grown other path
  isLocated : answer = .ok () → other.IsLocated path

theorem isCreation_of_createDirectory {other : Disk} (h : disk.createDirectory path = .ok other) :
    IsCreation disk path (.ok ()) other :=
  ⟨(of_createDirectory h).2, fun _ => (of_createDirectory h).1⟩

/-- What is answered when a directory cannot be created, for it may be there. -/
def unlessDirectory (disk : Disk) (path : String) (error : FileError) : Except FileError Unit :=
  if disk.inspect path = some .directory then .ok () else .error error

theorem isCreation_unlessDirectory (disk : Disk) (path : String) (error : FileError) :
    IsCreation disk path (unlessDirectory disk path error) disk := by
  refine ⟨Grown.refl disk path, fun hok => ?_⟩
  unfold unlessDirectory at hok
  split at hok
  · next hdir => exact isLocated_of_inspect hdir
  · contradiction

theorem unlessDirectory_of_isLocated (h : disk.IsLocated path) (error : FileError) :
    unlessDirectory disk path error = .ok () :=
  if_pos (inspect_of_isLocated h)

theorem run_unlessDirectory (disk : Disk) (now : Instant) (path : String) (error : FileError) :
    (do return if ← isDirectory path then .ok () else .error error :
      Script (Except FileError Unit)).run ⟨disk, now⟩ =
        (unlessDirectory disk path error, ⟨disk, now⟩) := by
  rw [run_bind, run_isDirectory, unlessDirectory]
  by_cases hdir : disk.inspect path = some .directory <;> simp [hdir, run_pure]

theorem run_createAgain (disk : Disk) (now : Instant) (path : String) :
    (createAgain path).run ⟨disk, now⟩ =
      match disk.createDirectory path with
      | .ok other => (.ok (), ⟨other, now⟩)
      | .error error => (unlessDirectory disk path error, ⟨disk, now⟩) := by
  rw [createAgain, run_bind, run_createDirectory]
  cases disk.createDirectory path with
  | ok other => rfl
  | error error => exact run_unlessDirectory disk now path error

/-- Creating a directory where the one above it has been created. -/
theorem exists_run_createAgain (disk : Disk) (now : Instant) (path : String) :
    ∃ answer other, (createAgain path).run ⟨disk, now⟩ = (answer, ⟨other, now⟩) ∧
      IsCreation disk path answer other ∧
      (disk.IsPassable path →
        (∃ w, disk.follow [] (names path).dropLast = .ok (.found w .directory)) →
        answer = .ok ()) := by
  rw [run_createAgain]
  cases hcreate : disk.createDirectory path with
  | ok other => exact ⟨_, _, rfl, isCreation_of_createDirectory hcreate, fun _ _ => rfl⟩
  | error error =>
    refine ⟨_, _, rfl, isCreation_unlessDirectory disk path error, fun hpass hparent => ?_⟩
    rcases isLocated_or_of_createDirectory_eq_error hpass hcreate with hlocated | ⟨_, hmissing⟩
    · exact unlessDirectory_of_isLocated hlocated error
    · exact absurd hmissing (locate_ne_notFound hpass.1 hparent)

/-- Creating a directory after the one above it. -/
theorem exists_run_createAgain_of_parent {parent : String} {other : Disk}
    (hparent : IsCreation disk parent (.ok ()) other) (hroot : parent ≠ "")
    (hnames : names parent = (names path).dropLast) (now : Instant) :
    ∃ answer last, (createAgain path).run ⟨other, now⟩ = (answer, ⟨last, now⟩) ∧
      IsCreation disk path answer last ∧ (disk.IsPassable path → answer = .ok ()) := by
  have hgrown := hparent.grown.of_parent (hnames ▸ List.dropLast_prefix (names path))
  rcases exists_run_createAgain other now path with ⟨answer, last, hrun, hcreation, hok⟩
  refine ⟨answer, last, hrun, ⟨hgrown.trans hcreation.grown, hcreation.isLocated⟩, fun hpass => ?_⟩
  -- The attempt starts from a tree in which the directory above is there.
  refine hok (hgrown.isPassable hpass) ⟨way parent, ?_⟩
  rw [← hnames, ← locate_of_ne_empty hroot]
  exact hparent.isLocated rfl

theorem names_ne_nil_of_createDirectory (hempty : path ≠ "")
    (h : disk.createDirectory path = .error .notFound) : names path ≠ [] := by
  intro hnil
  rw [Disk.createDirectory, locate_of_ne_empty hempty, hnil, follow.eq_1] at h
  cases h

/-- The directory is created, or found, or the one above it is missing. -/
theorem run_createDirectoriesFrom (fuel : Nat) (disk : Disk) (now : Instant) (path : String) :
    (createDirectoriesFrom fuel path).run ⟨disk, now⟩ =
      match disk.createDirectory path with
      | .ok other => (.ok (), ⟨other, now⟩)
      | .error error =>
        if error ≠ .notFound then (unlessDirectory disk path error, ⟨disk, now⟩)
        else
          match fuel, parent? path with
          | fuel + 1, some parent =>
            if parent ≠ "" then
              match (createDirectoriesFrom fuel parent).run ⟨disk, now⟩ with
              | (.error error, world) => (.error error, world)
              | (.ok (), world) => (createAgain path).run world
            else (createAgain path).run ⟨disk, now⟩
          | _, _ => (.error (.other "failed to create whole tree"), ⟨disk, now⟩) := by
  conv_lhs => unfold createDirectoriesFrom
  rw [run_bind, run_createDirectory]
  cases disk.createDirectory path with
  | ok other => rfl
  | error error =>
    simp only [commit_error]
    by_cases hother : error ≠ .notFound
    · rw [if_pos hother, if_pos hother]
      exact run_unlessDirectory disk now path error
    · rw [if_neg hother, if_neg hother]
      -- Only a missing directory above sends the script up, as long as there is one and fuel for
      -- it.
      cases fuel with
      | zero => rfl
      | succ fuel =>
        cases parent? path with
        | none => rfl
        | some parent =>
          by_cases hroot : parent ≠ ""
          · simp only [if_pos hroot, run_bind]
            rcases (createDirectoriesFrom fuel parent).run ⟨disk, now⟩ with ⟨_ | _, world⟩ <;> rfl
          · simp only [if_neg hroot]

/-- Creating a directory and all above it. Each name on the path takes one unit of fuel, so
    on a passable path the fuel of all names suffices. -/
theorem exists_run_createDirectoriesFrom (fuel : Nat) (disk : Disk) (now : Instant) (path : String)
    (hempty : path ≠ "") :
    ∃ answer other, (createDirectoriesFrom fuel path).run ⟨disk, now⟩ = (answer, ⟨other, now⟩) ∧
      IsCreation disk path answer other ∧
      (disk.IsPassable path → (names path).length ≤ fuel → answer = .ok ()) := by
  -- The induction follows the script up the path. Passable paths stay passable there, and the fuel
  -- covers all their names.
  rw [run_createDirectoriesFrom]
  cases hcreate : disk.createDirectory path with
  | ok other => exact ⟨_, _, rfl, isCreation_of_createDirectory hcreate, fun _ _ => rfl⟩
  | error error =>
    by_cases hother : error ≠ .notFound
    · simp only [if_pos hother]
      refine ⟨_, _, rfl, isCreation_unlessDirectory disk path error, fun hpass _ => ?_⟩
      rcases isLocated_or_of_createDirectory_eq_error hpass hcreate with hlocated | ⟨hmissing, _⟩
      · exact unlessDirectory_of_isLocated hlocated error
      · exact absurd hmissing hother
    · -- The directory above is missing, so the path has a name and the script goes up.
      rw [not_not] at hother
      subst hother
      have hnil := names_ne_nil_of_createDirectory hempty hcreate
      rcases exists_parent hnil with ⟨parent, hparent⟩
      have hnames := names_parent hparent
      simp only [ne_eq, not_true_eq_false, if_false, hparent]
      cases fuel with
      | zero =>
        refine ⟨_, _, rfl, ⟨Grown.refl disk path, fun hok => by cases hok⟩, fun _ hlength => ?_⟩
        exact absurd (List.length_eq_zero_iff.mp (Nat.le_zero.mp hlength)) hnil
      | succ fuel =>
        by_cases hroot : parent = ""
        · -- The directory above is the root.
          simp only [hroot, not_true_eq_false, if_false]
          rcases exists_run_createAgain disk now path with ⟨answer, other, hrun, hcreation, hok⟩
          refine ⟨answer, other, hrun, hcreation, fun hpass _ => hok hpass ⟨[], ?_⟩⟩
          rw [← hnames, hroot]
          rfl
        · simp only [hroot, not_false_eq_true, if_true]
          rcases exists_run_createDirectoriesFrom fuel disk now parent hroot with
            ⟨answer, other, hrun, hcreation, hok⟩
          have hpref : names parent <+: names path := hnames ▸ List.dropLast_prefix (names path)
          rw [hrun]
          -- The directory above is there now, or the attempt has ended with it.
          cases answer with
          | error error =>
            refine ⟨_, _, rfl, ⟨hcreation.grown.of_parent hpref, fun hok => by cases hok⟩, ?_⟩
            refine fun hpass hlength => hok (IsPassable.of_prefix hpass hroot hpref) ?_
            rw [hnames, List.length_dropLast]
            exact Nat.sub_le_of_le_add hlength
          | ok done =>
            rcases exists_run_createAgain_of_parent hcreation hroot hnames now with
              ⟨answer, last, hrun, hcreation, hagain⟩
            exact ⟨answer, last, hrun, hcreation, fun hpass _ => hagain hpass⟩
termination_by fuel

/-- Creating a directory and all above it. -/
theorem exists_run_createDirectories (disk : Disk) (now : Instant) (path : String) :
    ∃ answer other, (createDirectories path).run ⟨disk, now⟩ = (answer, ⟨other, now⟩) ∧
      (path ≠ "" → IsCreation disk path answer other) ∧
        (disk.IsPassable path → answer = .ok ()) := by
  rw [createDirectories]
  by_cases hempty : path = ""
  · rw [if_pos hempty]
    exact ⟨_, _, rfl, fun hne => absurd hempty hne, fun _ => rfl⟩
  · rw [if_neg hempty]
    rcases exists_run_createDirectoriesFrom (components path).length disk now path hempty with
      ⟨answer, other, hrun, hcreation, hok⟩
    refine ⟨answer, other, hrun, fun _ => hcreation, fun hpass => hok hpass ?_⟩
    rw [components, List.length_append]
    exact Nat.le_add_left _ _

/-- A directory that is there is left alone. -/
theorem run_createDirectories_of_isLocated (h : disk.IsLocated path) (now : Instant) :
    (createDirectories path).run ⟨disk, now⟩ = (.ok (), ⟨disk, now⟩) := by
  rw [createDirectories, if_neg h.ne_empty, run_createDirectoriesFrom,
    createDirectory_of_isLocated h]
  simp [unlessDirectory_of_isLocated h]

end Directories

end Script

end TypeSketch
