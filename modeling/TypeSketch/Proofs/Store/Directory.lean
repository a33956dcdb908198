import TypeSketch.Proofs.Files.Scripts
import TypeSketch.Proofs.Store.Manifests

/-!
# Directories of Stores

What the directory of a store holds, and how opening and writing keep it so. The directory
holds the files of the manifest and nothing else. When a module, the manifest and the index
have been written, in this order and whatever they replace, the directory holds the files of
the new manifest. A directory that holds the files of a manifest opens with that
manifest, and one that holds nothing opens with none.

## Main definitions

* `Path.StaysOutside`: A path that does not lead through its own directory.
* `Disk.IsVacant`: Nothing is in the directory.
* `Disk.Stores`: The directory holds the files of a manifest.
* `Store.IsIntact`: The store owns all of its directory, and nothing is missing there.

## Theorems

* `Disk.Stores.of_isWritten`: What the directory holds after a commit.
* `Store.run_checkOwnership_eq_ok_iff`: When a store passes the check of its directory.
* `Store.run_openAt_of_stores`: Opening a directory that holds the files of a manifest.
* `Store.exists_run_openAt_of_isVacant`: Opening a directory that holds nothing.
* `Store.exists_run_reset`: Removing the directory.
-/

namespace TypeSketch

open TypeSketch.Path

/-- No directory on the path lies below where the path leads. -/
def Path.StaysOutside (dir : String) : Prop :=
  ∀ ns, ns <+: names dir → ∀ rest, rest ≠ [] → wayFrom [] ns ≠ way dir ++ rest

/-- Where no name goes back, a path stays outside. -/
theorem Path.staysOutside_of_not_mem {dir : String} (h : ".." ∉ names dir) : StaysOutside dir := by
  intro ns hns rest hrest heq
  rw [way, wayFrom_of_not_mem h, wayFrom_of_not_mem fun hmem => h (hns.subset hmem)] at heq
  have hlength := congrArg List.length heq
  rw [List.nil_append, List.nil_append, List.length_append] at hlength
  have hle := hns.length_le
  have hpos := List.length_pos_iff.mpr hrest
  omega

/-- A manifest as it is read again. -/
def Manifest.IsReadable (m : Manifest) : Prop := Json.decode Manifest.decoder m.json = .ok m

namespace Disk

open Store

variable {disk other : Disk} {dir : String} {m : Manifest}

section Contents

/-- Nothing is in the directory, if there is one. -/
def IsVacant (disk : Disk) (dir : String) : Prop :=
  ∀ rest, rest ≠ [] → disk.get? (way dir ++ rest) = none

/-- The directory holds the files of a manifest and nothing else: texts, and among them the
    manifest and its index. -/
structure Stores (disk : Disk) (dir : String) (m : Manifest) : Prop where
  isSome_iff : ∀ rest, rest ≠ [] →
    ((disk.get? (way dir ++ rest)).isSome = true ↔ ∃ file ∈ m.files, rest = [file])
  readText_file : ∀ file ∈ m.files, ∃ text, disk.readText (join dir file) = .ok text
  readText_manifest : m.classes ≠ [] → disk.readText (join dir manifestFile) = .ok m.json
  readText_index : m.classes ≠ [] → disk.readText (join dir indexFile) = .ok (m.index header)

theorem isVacant_empty (dir : String) : IsVacant {} dir := fun _ hrest =>
  get?_of_ne_nil (List.append_ne_nil_of_right_ne_nil _ hrest)

theorem IsVacant.stores (h : disk.IsVacant dir) : disk.Stores dir {} where
  isSome_iff rest hrest := by simp [h rest hrest, Manifest.files]
  readText_file file hfile := by simp [Manifest.files] at hfile
  readText_manifest hne := absurd rfl hne
  readText_index hne := absurd rfl hne

/-- A directory is still vacant when directories have been added on a path outside. -/
theorem IsVacant.of_grown (h : disk.IsVacant dir) (houtside : StaysOutside dir)
    (hgrown : disk.Grown other dir) : other.IsVacant dir := by
  intro rest hrest
  rcases hgrown (way dir ++ rest) with heq | ⟨_, _, ns, hns, hplace⟩
  · rw [heq, h rest hrest]
  · exact absurd hplace.symm (houtside ns hns rest hrest)

theorem isVacant_remove (disk : Disk) (dir : String) : (disk.remove (way dir)).IsVacant dir := by
  intro rest hrest
  rw [get?_remove disk _ (List.append_ne_nil_of_right_ne_nil _ hrest),
    if_pos (List.prefix_append _ _)]

theorem IsPassable.remove {way : List String} (h : disk.IsPassable dir) :
    (disk.remove way).IsPassable dir := by
  refine h.mono fun v content hfile => ?_
  by_cases hnil : v = []
  · subst hnil
    exact hfile
  · rw [get?_remove disk _ hnil] at hfile
    split at hfile
    · contradiction
    · exact hfile

/-- A file, the manifest and the index have been written in this order. -/
def IsWritten (disk : Disk) (dir : String) (m : Manifest) (file text : String)
    (other : Disk) : Prop :=
  ∃ withFile withManifest, disk.write (join dir file) (.text text) = .ok withFile ∧
    withFile.write (join dir manifestFile) (.text m.json) = .ok withManifest ∧
    withManifest.write (join dir indexFile) (.text (m.index header)) = .ok other

theorem IsWritten.isLocated {file text : String} (h : disk.IsWritten dir m file text other)
    (hdir : disk.IsLocated dir) (hfile : IsFileName file) : other.IsLocated dir := by
  rcases h with ⟨withFile, withManifest, hwrite, hmanifest, hindex⟩
  have hdir := hdir.of_write_join hfile hwrite
  have hdir := hdir.of_write_join isFileName_manifestFile hmanifest
  exact hdir.of_write_join isFileName_indexFile hindex

/-- What is in the directory after the files have been written. -/
theorem IsWritten.isSome_get?_iff {file text : String} (h : disk.IsWritten dir m file text other)
    (hdir : disk.IsLocated dir) (hfile : IsFileName file) (rest : List String) :
    (other.get? (way dir ++ rest)).isSome = true ↔ rest = [manifestFile] ∨ rest = [indexFile] ∨
      rest = [file] ∨ (disk.get? (way dir ++ rest)).isSome = true := by
  rcases h with ⟨withFile, withManifest, hwrite, hmanifest, hindex⟩
  have hdir₁ := hdir.of_write_join hfile hwrite
  have hdir₂ := hdir₁.of_write_join isFileName_manifestFile hmanifest
  -- Each write puts one file into the directory and leaves every other place alone.
  rcases hdir.get?_of_write_join hfile hwrite with ⟨_, _, hget₁⟩
  rcases hdir₁.get?_of_write_join isFileName_manifestFile hmanifest with ⟨_, _, hget₂⟩
  rcases hdir₂.get?_of_write_join isFileName_indexFile hindex with ⟨_, _, hget₃⟩
  rw [hget₃, hget₂, hget₁]
  -- The last write that goes to this place counts, and without one the place is as before.
  simp only [List.append_right_inj]
  by_cases hin : rest = [indexFile]
  · rw [if_pos hin]
    simp [hin]
  · rw [if_neg hin]
    by_cases hma : rest = [manifestFile]
    · rw [if_pos hma]
      simp [hma]
    · rw [if_neg hma]
      by_cases hfi : rest = [file]
      · rw [if_pos hfi]
        simp [hfi]
      · rw [if_neg hfi]
        simp [hin, hma, hfi]

/-- What is read from the directory after the files have been written. The index is written
    last, so it replaces a module that is called like it. -/
theorem IsWritten.readText_join {file text read : String}
    (h : disk.IsWritten dir m file text other) (hdir : disk.IsLocated dir)
    (hfile : IsFileName file) (hread : IsFileName read) :
    other.readText (join dir read) =
      if read = indexFile then .ok (m.index header)
      else if read = manifestFile then .ok m.json
      else if read = file then .ok text else disk.readText (join dir read) := by
  rcases h with ⟨withFile, withManifest, hwrite, hmanifest, hindex⟩
  have hdir₁ := hdir.of_write_join hfile hwrite
  have hdir₂ := hdir₁.of_write_join isFileName_manifestFile hmanifest
  rw [hdir₂.readText_of_write_join isFileName_indexFile hindex hread,
    hdir₁.readText_of_write_join isFileName_manifestFile hmanifest hread,
    hdir.readText_of_write_join hfile hwrite hread]

/-- A file that has been written or could be read before can be read. -/
theorem IsWritten.exists_readText {file text read : String}
    (h : disk.IsWritten dir m file text other) (hdir : disk.IsLocated dir)
    (hfile : IsFileName file) (hread : IsFileName read)
    (hcases : read = file ∨ ∃ old, disk.readText (join dir read) = .ok old) :
    ∃ new, other.readText (join dir read) = .ok new := by
  rw [h.readText_join hdir hfile hread]
  split
  · exact ⟨_, rfl⟩
  · split
    · exact ⟨_, rfl⟩
    · split
      · exact ⟨_, rfl⟩
      · next hne => exact hcases.resolve_left hne

/-- A file that has been written or was there before is there. -/
theorem IsWritten.inspect_join {file text name : String}
    (h : disk.IsWritten dir m file text other) (hdir : disk.IsLocated dir)
    (hfile : IsFileName file) (hname : IsFileName name)
    (hcases : name = file ∨ disk.inspect (join dir name) = some .file) :
    other.inspect (join dir name) = some .file := by
  rcases h with ⟨withFile, withManifest, hwrite, hmanifest, hindex⟩
  have hdir₁ := hdir.of_write_join hfile hwrite
  have hdir₂ := hdir₁.of_write_join isFileName_manifestFile hmanifest
  rw [hdir₂.inspect_of_write_join isFileName_indexFile hindex hname,
    hdir₁.inspect_of_write_join isFileName_manifestFile hmanifest hname,
    hdir.inspect_of_write_join hfile hwrite hname]
  split
  · rfl
  · split
    · rfl
    · split
      · rfl
      · next hne => exact hcases.resolve_left hne

/-- What the directory holds after a class has been committed. -/
theorem Stores.of_isWritten {className text : String} {e : ManifestEntry} (h : disk.Stores dir m)
    (hdir : disk.IsLocated dir) (hsound : m.IsSound) (hclass : Naming.isIdentifier className = true)
    (hwritten : disk.IsWritten dir (m.set className e) (moduleFile className) text other) :
    other.Stores dir (m.set className e) := by
  have hfile := isFileName_moduleFile hclass
  have hmanifest := hwritten.readText_join hdir hfile isFileName_manifestFile
  have hindex := hwritten.readText_join hdir hfile isFileName_indexFile
  rw [if_neg (by decide), if_pos rfl] at hmanifest
  rw [if_pos rfl] at hindex
  -- The files are now the three that were written and those that had been there.
  constructor
  · intro rest hrest
    rw [hwritten.isSome_get?_iff hdir hfile, h.isSome_iff rest hrest]
    simp only [Manifest.mem_files_set, or_and_right, exists_or, exists_eq_left]
  · intro file hmem
    rcases Manifest.mem_files_set.mp hmem with rfl | rfl | rfl | hold
    · exact ⟨_, hmanifest⟩
    · exact ⟨_, hindex⟩
    · exact hwritten.exists_readText hdir hfile hfile (Or.inl rfl)
    · exact hwritten.exists_readText hdir hfile (hsound.isFileName hold)
        (Or.inr (h.readText_file file hold))
  · exact fun _ => hmanifest
  · exact fun _ => hindex

end Contents

end Disk

namespace Store

open Disk

variable {disk other : Disk} {dir : String} {m : Manifest}

/-- A file operation has failed. -/
def IsFault {α : Type} (answer : Except StoreError α) : Prop :=
  ∃ path error, answer = .error (.access path error)

section Opening

/-- The manifest that is read is the one that has been written. -/
theorem run_readManifest_of_text (hdir : disk.IsLocated dir)
    (htext : disk.readText (join dir manifestFile) = .ok m.json) (hread : m.IsReadable)
    (now : Instant) : (readManifest dir).run ⟨disk, now⟩ = (.ok m, ⟨disk, now⟩) := by
  unfold readManifest
  rw [Script.run_bind, Script.run_kindOf, hdir.inspect_join isFileName_manifestFile htext]
  change ((Script.readText (join dir manifestFile) .done) >>= _).run ⟨disk, now⟩ = _
  rw [Script.run_bind, Script.run_readText, htext]
  change (((Json.decode Manifest.decoder m.json).mapError _), _) = _
  rw [hread]
  rfl

/-- The manifest of a directory that holds its files. -/
theorem run_readManifest (h : disk.Stores dir m) (hdir : disk.IsLocated dir)
    (hread : m.classes ≠ [] → m.IsReadable) (now : Instant) :
    (readManifest dir).run ⟨disk, now⟩ = (.ok m, ⟨disk, now⟩) := by
  by_cases hnil : m.classes = []
  · have hvacant : disk.get? (way dir ++ [manifestFile]) = none := by
      refine Option.not_isSome_iff_eq_none.mp fun hsome => ?_
      rcases (h.isSome_iff _ (List.cons_ne_nil _ _)).mp hsome with ⟨file, hfile, _⟩
      exact (Manifest.mem_files.mp hfile).1 hnil
    unfold readManifest
    rw [Script.run_bind, Script.run_kindOf,
      hdir.inspect_join_of_none isFileName_manifestFile hvacant]
    rcases m with ⟨classes⟩
    subst hnil
    rfl
  · exact run_readManifest_of_text hdir (h.readText_manifest hnil) (hread hnil) now

/-- What a store with a sound manifest owns. -/
theorem owns_iff {store : Store} (hsound : store.manifest.IsSound) {name : String} :
    store.owns name = true ↔ name = manifestFile ∨ name = indexFile ∨
      ∃ c ∈ store.manifest.classes, name = moduleFile c.1 := by
  rw [owns, Bool.or_eq_true, Bool.or_eq_true, decide_eq_true_eq, decide_eq_true_eq,
    List.any_eq_true, or_assoc]
  refine or_congr_right (or_congr_right (exists_congr fun c => and_congr_right fun hc => ?_))
  rw [decide_eq_true_eq, hsound.file_eq c hc, eq_comm]

/-- Looking for missing modules changes nothing, and none is missing if each is a file. -/
theorem exists_run_missingSource? (store : Store) (classes : List (String × ManifestEntry))
    (disk : Disk) (now : Instant) :
    ∃ missing, (store.missingSource? classes).run ⟨disk, now⟩ = (missing, ⟨disk, now⟩) ∧
      (missing = none ↔ ∀ c ∈ classes, disk.inspect (store.pathOf c.2.file) = some .file) := by
  induction classes with
  | nil => exact ⟨none, rfl, by simp⟩
  | cons c rest ih =>
    rcases c with ⟨className, e⟩
    rw [missingSource?, Script.run_bind, Script.run_kindOf]
    dsimp only
    by_cases hfirst : disk.inspect (store.pathOf e.file) = some .file
    · rw [if_pos hfirst]
      simpa [hfirst] using ih
    · rw [if_neg hfirst]
      exact ⟨_, rfl, by simp [hfirst]⟩

/-- The store owns all of its directory, and no module is missing there. -/
structure IsIntact (store : Store) (disk : Disk) : Prop where
  isLocated : disk.IsLocated store.dir
  owns : ∀ name, (disk.get? (way store.dir ++ [name])).isSome = true → store.owns name = true
  isFile : ∀ c ∈ store.manifest.classes, disk.inspect (store.pathOf c.2.file) = some .file

/-- A store passes the check if it is intact, and the check changes nothing. -/
theorem run_checkOwnership_eq_ok_iff {store last : Store} {world after : World} :
    store.checkOwnership.run world = (.ok last, after) ↔
      last = store ∧ after = world ∧ store.IsIntact world.disk := by
  rcases world with ⟨disk, now⟩
  unfold checkOwnership
  rw [Script.run_bind, Script.run_listDirectory]
  dsimp only
  by_cases hdir : disk.IsLocated store.dir
  · rw [hdir.listDirectory]
    dsimp only
    -- The listing is the names in the directory, and no name may be foreign.
    have hforeign : ((disk.nodes.filterMap fun e => nameBelow? (way store.dir) e.1).filter
        (!store.owns ·)).isEmpty = true ↔
        ∀ name, (disk.get? (way store.dir ++ [name])).isSome = true → store.owns name = true := by
      rw [List.isEmpty_iff, List.filter_eq_nil_iff]
      refine forall_congr' fun name => ?_
      rw [mem_namesBelow, Bool.not_eq_true, Bool.not_eq_false']
    rcases exists_run_missingSource? store store.manifest.classes disk now with
      ⟨missing, hrun, hmissing⟩
    split
    · next hsome =>
      refine ⟨fun h => (by cases h), fun ⟨_, _, hintact⟩ => ?_⟩
      rw [hforeign.mpr hintact.owns] at hsome
      contradiction
    · next hnone =>
      rw [Bool.not_eq_true, Bool.not_eq_false'] at hnone
      rw [Script.run_bind, hrun]
      cases missing with
      | none =>
        constructor
        · intro h
          cases h
          exact ⟨rfl, rfl, hdir, hforeign.mp hnone, hmissing.mp rfl⟩
        · rintro ⟨rfl, rfl, _⟩
          rfl
      | some c =>
        refine ⟨fun h => (by cases h), fun ⟨_, _, hintact⟩ => ?_⟩
        exact absurd (hmissing.mpr hintact.isFile) (Option.some_ne_none c)
  -- What is not a directory that can be reached cannot be listed.
  · refine ⟨fun h => ?_, fun ⟨_, _, hintact⟩ => absurd hintact.isLocated hdir⟩
    cases hlist : disk.listDirectory store.dir with
    | error error =>
      rw [hlist] at h
      cases h
    | ok names => exact absurd (isLocated_of_listDirectory hlist) hdir

/-- A directory that holds the files of a manifest is owned by the store with it. -/
theorem isIntact_of_stores (h : disk.Stores dir m) (hdir : disk.IsLocated dir)
    (hsound : m.IsSound) (policy : IfExists) : IsIntact ⟨dir, policy, m⟩ disk where
  isLocated := hdir
  owns name hname := by
    rcases (h.isSome_iff _ (List.cons_ne_nil _ _)).mp hname with ⟨file, hfile, heq⟩
    rw [List.cons.injEq] at heq
    rw [heq.1]
    exact (@owns_iff ⟨dir, policy, m⟩ hsound file).mpr (Manifest.mem_files.mp hfile).2
  isFile c hc := by
    have hfile : c.2.file ∈ m.files :=
      Manifest.mem_files.mpr ⟨List.ne_nil_of_mem hc, Or.inr (Or.inr ⟨c, hc, hsound.file_eq c hc⟩)⟩
    rcases h.readText_file _ hfile with ⟨text, htext⟩
    exact hdir.inspect_join (hsound.isFileName hfile) htext

/-- A directory with a file that the store does not own is refused, and all such files are
    named. -/
theorem exists_run_checkOwnership_of_foreign {store : Store} (hdir : disk.IsLocated store.dir)
    {file : String} (hfile : (disk.get? (way store.dir ++ [file])).isSome = true)
    (hforeign : store.owns file = false) (now : Instant) :
    ∃ files, store.checkOwnership.run ⟨disk, now⟩ =
        (.error (.foreignFiles store.dir files), ⟨disk, now⟩) ∧
      ∀ name, name ∈ files ↔
        (disk.get? (way store.dir ++ [name])).isSome = true ∧ store.owns name = false := by
  let foreign := (disk.nodes.filterMap fun e => nameBelow? (way store.dir) e.1).filter
    (!store.owns ·)
  have hmem : ∀ name, name ∈ foreign ↔
      (disk.get? (way store.dir ++ [name])).isSome = true ∧ store.owns name = false := by
    intro name
    rw [List.mem_filter, mem_namesBelow, Bool.not_eq_true']
  have hne : foreign ≠ [] := List.ne_nil_of_mem ((hmem file).mpr ⟨hfile, hforeign⟩)
  -- The answer sorts the foreign names, which changes none of them.
  refine ⟨foreign.mergeSort fun a b => a ≤ b, ?_, fun name => ?_⟩
  · unfold checkOwnership
    rw [Script.run_bind, Script.run_listDirectory]
    dsimp only
    rw [hdir.listDirectory]
    dsimp only
    rw [if_pos (by rw [List.isEmpty_eq_false_iff.mpr hne, Bool.not_false])]
    rfl
  · rw [(List.mergeSort_perm foreign _).mem_iff, hmem]

/-- A directory that holds the files of a manifest opens with it. -/
theorem run_openAt_of_stores (h : disk.Stores dir m) (hdir : disk.IsLocated dir)
    (hsound : m.IsSound) (hread : m.classes ≠ [] → m.IsReadable) (policy : IfExists)
    (now : Instant) :
    (openAt dir policy).run ⟨disk, now⟩ = (.ok ⟨dir, policy, m⟩, ⟨disk, now⟩) := by
  unfold openAt
  rw [Script.run_bind, Script.run_createDirectories_of_isLocated hdir]
  dsimp only
  rw [Script.run_bind, run_readManifest h hdir hread]
  exact run_checkOwnership_eq_ok_iff.mpr ⟨rfl, rfl, isIntact_of_stores h hdir hsound policy⟩

/-- The empty path leads nowhere, so nothing can be opened there. -/
theorem run_openAt_empty (h : disk.IsVacant "") (policy : IfExists) (now : Instant) :
    (openAt "" policy).run ⟨disk, now⟩ = (.error (.access "" .notFound), ⟨disk, now⟩) := by
  have hfree : disk.locate (join "" manifestFile) = .ok (.free [manifestFile]) := by
    have hplace : disk.get? [manifestFile] = none := h [manifestFile] (List.cons_ne_nil _ _)
    rw [locate_of_ne_empty (join_ne_empty isFileName_manifestFile),
      names_join isFileName_manifestFile]
    change disk.follow [] [manifestFile] = _
    rw [follow.eq_2, List.nil_append, hplace]
    rfl
  change ((readManifest "" >>= _ : Script (Except StoreError Store))).run ⟨disk, now⟩ = _
  rw [Script.run_bind]
  unfold readManifest
  rw [Script.run_bind, Script.run_kindOf, inspect_of_locate_eq_free hfree]
  rfl

/-- Opening a directory that holds nothing. -/
theorem exists_run_openAt_of_isVacant (h : disk.IsVacant dir) (houtside : StaysOutside dir)
    (policy : IfExists) (now : Instant) :
    ∃ answer other, (openAt dir policy).run ⟨disk, now⟩ = (answer, ⟨other, now⟩) ∧
      (IsFault answer ∨
        answer = .ok ⟨dir, policy, {}⟩ ∧ other.IsLocated dir ∧ other.IsVacant dir) ∧
      (disk.IsPassable dir → ∃ store, answer = .ok store) := by
  by_cases hempty : dir = ""
  -- There is no directory without a name, so opening it fails.
  · subst hempty
    exact ⟨_, _, run_openAt_empty h policy now, Or.inl ⟨_, _, rfl⟩, fun hpass => absurd rfl hpass.1⟩
  · rcases Script.exists_run_createDirectories disk now dir with
      ⟨answer, other, hrun, hcreation, hpassable⟩
    rcases hcreation hempty with ⟨hgrown, hlocated⟩
    unfold openAt
    rw [Script.run_bind, hrun]
    cases answer with
    | error error =>
      exact ⟨_, _, rfl, Or.inl ⟨_, _, rfl⟩, fun hpass => by cases hpassable hpass⟩
    | ok done =>
      have hdir := hlocated rfl
      -- Making the directory adds nothing inside of it, so there is no manifest to read.
      have hvacant := h.of_grown houtside hgrown
      dsimp only
      rw [Script.run_bind, run_readManifest hvacant.stores hdir fun hne => absurd rfl hne]
      have hintact := isIntact_of_stores hvacant.stores hdir Manifest.isSound_empty policy
      have hrun := (@run_checkOwnership_eq_ok_iff _ _ ⟨other, now⟩ _).mpr ⟨rfl, rfl, hintact⟩
      refine ⟨_, _, hrun, ?_, ?_⟩
      · exact Or.inr ⟨rfl, hdir, hvacant⟩
      · exact fun _ => ⟨_, rfl⟩

end Opening

section Removing

/-- Removing the directory with all in it. -/
theorem exists_run_reset (store : Store) (hdir : disk.IsLocated store.dir) (now : Instant) :
    ∃ answer other, store.reset.run ⟨disk, now⟩ = (answer, ⟨other, now⟩) ∧
      (IsFault answer ∨ answer = .ok () ∧ other = disk.remove (way store.dir)) := by
  unfold reset
  rw [Script.run_bind, Script.run_removeTree]
  dsimp only
  rw [removeTree, hdir.locateNode]
  dsimp only
  split
  · split
    · exact ⟨_, _, rfl, Or.inl ⟨_, _, rfl⟩⟩
    · split
      · exact ⟨_, _, rfl, Or.inl ⟨_, _, rfl⟩⟩
      · exact ⟨_, _, rfl, Or.inr ⟨rfl, rfl⟩⟩
  · exact ⟨_, _, rfl, Or.inr ⟨rfl, rfl⟩⟩

end Removing

end Store

end TypeSketch
