import TypeSketch.Proofs.Store.Commits

/-!
# Commits Are Faithful

What a store has after a class has been created or overwritten: the module is the text that
has been committed, the manifest has its digest, and it is left unchanged when it is committed
once more to be validated. Other classes keep their modules and their entries.

This holds of every store that has been built by commits in an empty directory, also when it
has been opened anew between them, but for one class. The module of `__init__` is called like
the index, which is written after it and with every other class, so of that class only the
index is left.

## Main definitions

* `Store.IsBuilt`: A store opened on nothing, after any number of commits and openings.
* `Store.Holds`: The store has a class as it has been committed.

## Theorems

* `Store.of_run_openAt`: What a store that has been opened is.
* `Store.IsBuilt.isLocated`, `Store.IsBuilt.isSound`: What every commit keeps.
* `Store.Commits.entry?_of_ne`, `Store.Commits.readText_of_ne`: What a commit leaves alone.
* `Store.Holds.run_commit`: Validating what the store has.
* `Store.IsBuilt.commit_faithful`: What a commit records.
-/

namespace TypeSketch

namespace Store

open TypeSketch.Path Disk

section Opening

variable {store last : Store} {world after : World}

/-- Reading the manifest changes nothing. -/
theorem run_readManifest_snd (dir : String) (world : World) :
    ((readManifest dir).run world).2 = world := by
  unfold readManifest
  rw [Script.run_bind, Script.run_kindOf]
  dsimp only
  split
  · rfl
  · rw [Script.run_bind, Script.run_readText]
    dsimp only
    cases world.disk.readText (join dir manifestFile) <;> rfl

/-- Where there is no file, no manifest is read but that of no classes. -/
theorem eq_of_run_readManifest {dir : String} {m : Manifest}
    (h : (readManifest dir).run world = (.ok m, after))
    (hnone : ∀ text, world.disk.readText (join dir manifestFile) ≠ .ok text) :
    m = {} ∧ after = world := by
  unfold readManifest at h
  rw [Script.run_bind, Script.run_kindOf] at h
  dsimp only at h
  split at h
  · cases h
    exact ⟨rfl, rfl⟩
  · rw [Script.run_bind, Script.run_readText] at h
    cases htext : world.disk.readText (join dir manifestFile) with
    | error error =>
      rw [htext] at h
      cases h
    | ok text => exact absurd htext (hnone text)

/-- A store that has been opened has made its directory, has read the manifest there, and is
    intact. -/
theorem of_run_openAt {dir : String} {policy : IfExists}
    (h : (openAt dir policy).run world = (.ok store, after)) :
    ∃ m, (Script.createDirectories dir).run world = (.ok (), after) ∧
      (readManifest dir).run after = (.ok m, after) ∧ store = ⟨dir, policy, m⟩ ∧
      store.IsIntact after.disk := by
  unfold openAt at h
  rw [Script.run_bind] at h
  rcases hcreate : (Script.createDirectories dir).run world with ⟨_ | _, made⟩ <;>
    rw [hcreate] at h
  · cases h
  · dsimp only at h
    rw [Script.run_bind] at h
    have hsame := run_readManifest_snd dir made
    rcases hread : (readManifest dir).run made with ⟨_ | m, read⟩ <;> rw [hread] at h hsame
    · cases h
    · dsimp only at hsame
      rcases run_checkOwnership_eq_ok_iff.mp h with ⟨rfl, rfl, hintact⟩
      exact ⟨m, by rw [hsame], by rw [hsame, hread, hsame], rfl, hintact⟩

/-- Opening a directory that is there changes nothing. -/
theorem eq_of_run_openAt_of_isLocated {dir : String} {policy : IfExists}
    (hdir : world.disk.IsLocated dir) (h : (openAt dir policy).run world = (.ok store, after)) :
    store.dir = dir ∧ after = world := by
  rcases of_run_openAt h with ⟨m, hcreate, _, rfl, _⟩
  rw [Script.run_createDirectories_of_isLocated hdir, Prod.mk.injEq] at hcreate
  exact ⟨rfl, hcreate.2.symm⟩

/-- A store that is opened on nothing has a directory and no classes. -/
theorem of_run_openAt_of_isVacant {dir : String} {policy : IfExists}
    (hvacant : world.disk.IsVacant dir) (h : (openAt dir policy).run world = (.ok store, after)) :
    after.disk.IsLocated store.dir ∧ store.manifest = {} := by
  by_cases hempty : dir = ""
  · subst hempty
    rw [run_openAt_empty hvacant policy world.now] at h
    cases h
  · rcases of_run_openAt h with ⟨m, hcreate, hread, rfl, hintact⟩
    rcases Script.exists_run_createDirectories world.disk world.now dir with
      ⟨answer, made, hrun, hcreation, _⟩
    rw [hrun, Prod.mk.injEq] at hcreate
    rcases hcreate with ⟨rfl, rfl⟩
    -- Only directories have been made, so no file is where the manifest would be.
    have hdir := hintact.isLocated
    have hnone : ∀ text, made.readText (join dir manifestFile) ≠ .ok text := by
      intro text htext
      have hget := ((hdir.readText_join_iff isFileName_manifestFile).mp htext).2
      rcases (hcreation hempty).grown (way dir ++ [manifestFile]) with heq | ⟨_, hother, _⟩
      · rw [heq, hvacant _ (List.cons_ne_nil _ _)] at hget
        cases hget
      · rw [hother] at hget
        cases hget
    exact ⟨hdir, (eq_of_run_readManifest hread hnone).1⟩

end Opening

section Committing

variable {store last : Store} {stub : Stub} {disk other : Disk} {now : Instant}
  {answer : Except StoreError Outcome} {outcome : Outcome} {name : String}

/-- The directory of a store stays where it is. -/
theorem Commits.isLocated (h : Commits store stub disk now answer last other)
    (hdir : disk.IsLocated store.dir) : other.IsLocated last.dir := by
  cases h with
  | refused => exact hdir
  | unchanged => exact hdir
  | written hupdates hwrite hsaves =>
    have hdir := hdir.of_write_join (isFileName_moduleFile hupdates.isIdentifier) hwrite
    cases hsaves with
    | unsaved => exact hdir
    | unindexed _ hmanifest => exact hdir.of_write_join isFileName_manifestFile hmanifest
    | saved hmanifest hindex =>
      have hdir := hdir.of_write_join isFileName_manifestFile hmanifest
      exact hdir.of_write_join isFileName_indexFile hindex

/-- The manifest of a store stays sound. -/
theorem Commits.isSound (h : Commits store stub disk now answer last other)
    (hsound : store.manifest.IsSound) : last.manifest.IsSound := by
  cases h with
  | refused => exact hsound
  | unchanged => exact hsound
  | written hupdates _ _ => exact hsound.set hupdates.isIdentifier (hupdates.file_eq hsound)

/-- Other classes keep their entries, also when the commit fails. -/
theorem Commits.entry?_of_ne (h : Commits store stub disk now answer last other)
    (hne : name ≠ stub.className) : last.manifest.entry? name = store.manifest.entry? name := by
  cases h with
  | refused => rfl
  | unchanged => rfl
  | @written _ e => exact (Manifest.entry?_set _ _ e name).trans (if_neg hne)

/-- Other classes keep their modules, also when the commit fails, if these are not called like
    the index. -/
theorem Commits.readText_of_ne (h : Commits store stub disk now answer last other)
    (hdir : disk.IsLocated store.dir) (hname : Naming.isIdentifier name = true)
    (hne : name ≠ stub.className) (hindex : name ≠ "__init__") :
    other.readText (store.pathOf (moduleFile name)) =
      disk.readText (store.pathOf (moduleFile name)) := by
  have hread := isFileName_moduleFile hname
  -- Each of the three files that may be written has another name than the module.
  cases h with
  | refused => rfl
  | unchanged => rfl
  | written hupdates hwrite hsaves =>
    have hfile := isFileName_moduleFile hupdates.isIdentifier
    have hmodule := (hdir.readText_of_write_join hfile hwrite hread).trans
      (if_neg fun heq => hne (moduleFile_inj.mp heq))
    have hdir := hdir.of_write_join hfile hwrite
    -- A commit that fails on the way has written the first one or two of the files.
    cases hsaves with
    | unsaved => exact hmodule
    | unindexed _ hmanifest =>
      have hkept := (hdir.readText_of_write_join isFileName_manifestFile hmanifest hread).trans
        (if_neg (moduleFile_ne_manifestFile name))
      exact hkept.trans hmodule
    | saved hmanifest hwriteIndex =>
      have hkept := (hdir.readText_of_write_join isFileName_manifestFile hmanifest hread).trans
        (if_neg (moduleFile_ne_manifestFile name))
      have hdir := hdir.of_write_join isFileName_manifestFile hmanifest
      have hlast := (hdir.readText_of_write_join isFileName_indexFile hwriteIndex hread).trans
        (if_neg fun heq => hindex (moduleFile_eq_indexFile_iff.mp heq))
      exact hlast.trans (hkept.trans hmodule)

/-- A commit leaves a store where it is and with its policy. -/
theorem Commits.dir_eq (h : Commits store stub disk now answer last other) :
    last.dir = store.dir ∧ last.ifExists = store.ifExists := by
  cases h <;> exact ⟨rfl, rfl⟩

/-- Writing a module and then the rest answers what it is called, if nothing fails. -/
theorem eq_of_run_write_saveAs {store last : Store} {file text : String} {e : ManifestEntry}
    {world after : World} {done : Outcome}
    (h : (do
      match ← store.writeFile file text with
      | .error error => return (.error error, store)
      | .ok () => (store.remember stub.className e).saveAs done :
      Script (Except StoreError Outcome × Store)).run world = ((.ok outcome, last), after)) :
    outcome = done := by
  rw [Script.run_bind] at h
  rcases hwrite : (store.writeFile file text).run world with ⟨_ | _, written⟩ <;> rw [hwrite] at h
  · cases h
  · dsimp only at h
    unfold saveAs at h
    rw [Script.run_bind] at h
    rcases hsave : (store.remember stub.className e).save.run written with ⟨_ | _, saved⟩ <;>
      rw [hsave] at h <;> cases h
    rfl

/-- A store that overwrites its classes leaves none unchanged. -/
theorem ne_unchanged_of_run_commit {world after : World} (hpolicy : store.ifExists = .overwrite)
    (h : (store.commit stub).run world = ((.ok outcome, last), after)) : outcome ≠ .unchanged := by
  unfold commit at h
  split at h
  · cases h
  · rw [Script.run_bind, Script.run_clock] at h
    dsimp only at h
    -- Under this policy a module is written whether or not its class is in the manifest.
    cases hentry : store.manifest.entry? stub.className with
    | none =>
      rw [hentry] at h
      rw [eq_of_run_write_saveAs h]
      decide
    | some e =>
      rw [hentry, hpolicy] at h
      rw [eq_of_run_write_saveAs h]
      decide

/-- A commit that has created or overwritten a class has written its files. -/
theorem Commits.exists_isWritten (h : Commits store stub disk now (.ok outcome) last other)
    (hne : outcome ≠ .unchanged) :
    ∃ e, Updates store stub now outcome e ∧ last = store.remember stub.className e ∧
      disk.IsWritten store.dir last.manifest (moduleFile stub.className) stub.source other := by
  cases h with
  | unchanged => exact absurd rfl hne
  | written hupdates hwrite hsaves =>
    cases hsaves with
    | saved hmanifest hindex => exact ⟨_, hupdates, rfl, _, _, hwrite, hmanifest, hindex⟩

/-- A commit that has found a class unchanged has found a module that is equivalent. -/
theorem Commits.exists_of_unchanged (h : Commits store stub disk now (.ok .unchanged) last other) :
    ∃ stored, disk.readText (store.pathOf (moduleFile stub.className)) = .ok stored ∧
      Equivalence.areEquivalent stored stub.source = true := by
  cases h with
  | unchanged _ hread hequivalent => exact ⟨_, hread, hequivalent⟩
  | written hupdates _ hsaves =>
    cases hsaves
    cases hupdates

end Committing

section Holding

variable {store last : Store} {stub : Stub} {disk other : Disk} {now : Instant} {outcome : Outcome}

/-- The store has a class as it has been committed: the manifest has its digest, and its module
    is the text. -/
structure Holds (store : Store) (disk : Disk) (stub : Stub) : Prop where
  exists_entry : ∃ e, store.manifest.entry? stub.className = some e ∧ e.digest = stub.digest
  readText_module : disk.readText (store.pathOf (moduleFile stub.className)) = .ok stub.source

/-- What a new entry has, and what it has from the one before. -/
theorem Updates.spec {e : ManifestEntry} (h : Updates store stub now outcome e) :
    e.digest = stub.digest ∧ ∀ old, store.manifest.entry? stub.className = some old →
      e.file = old.file ∧ e.createdAt = old.createdAt := by
  cases h with
  | created _ hnew =>
    refine ⟨rfl, fun old hold => ?_⟩
    rw [hnew] at hold
    contradiction
  | overwritten _ hold =>
    refine ⟨rfl, fun old hold' => ?_⟩
    rw [hold, Option.some.injEq] at hold'
    subst hold'
    exact ⟨rfl, rfl⟩

/-- A class that has been created or overwritten is one that the store has. -/
theorem Commits.holds (h : Commits store stub disk now (.ok outcome) last other)
    (hdir : disk.IsLocated store.dir) (hne : outcome ≠ .unchanged)
    (hindex : stub.className ≠ "__init__") : last.Holds other stub := by
  rcases h.exists_isWritten hne with ⟨e, hupdates, rfl, hwritten⟩
  have hfile := isFileName_moduleFile hupdates.isIdentifier
  have hread := hwritten.readText_join hdir hfile hfile
  -- What is written after the module would replace it only under its own name.
  rw [if_neg fun heq => hindex (moduleFile_eq_indexFile_iff.mp heq),
    if_neg (moduleFile_ne_manifestFile _), if_pos rfl] at hread
  exact ⟨⟨e, (Manifest.entry?_set _ _ e _).trans (if_pos rfl), hupdates.spec.1⟩, hread⟩

/-- What the store has is left unchanged when it is committed to be validated. -/
theorem Holds.run_commit (h : store.Holds disk stub)
    (hclass : Naming.isIdentifier stub.className = true) (hpolicy : store.ifExists = .validate)
    (now : Instant) :
    (store.commit stub).run ⟨disk, now⟩ = ((.ok .unchanged, store), ⟨disk, now⟩) := by
  rcases h.exists_entry with ⟨e, hentry, _⟩
  have hequivalent : Equivalence.areEquivalent stub.source stub.source = true := decide_eq_true rfl
  unfold commit
  rw [if_neg (by rw [hclass]; decide), Script.run_bind, Script.run_clock, hentry, hpolicy]
  dsimp only
  unfold validate
  rw [Script.run_bind, Script.run_readText, h.readText_module]
  dsimp only
  rw [if_pos hequivalent]
  rfl

end Holding

section Building

/-- A store that has been opened on nothing and then committed to and opened anew any number of
    times, and the disk that this has led to. Opening it anew may change what is done with
    classes that exist, and gives the manifest that it had. -/
inductive IsBuilt : Store → Disk → Prop
  | opened {dir : String} {policy : IfExists} {store : Store} {world after : World}
      (hvacant : world.disk.IsVacant dir) (hrun : (openAt dir policy).run world = (.ok store, after)) :
      IsBuilt store after.disk
  | committed {store last : Store} {stub : Stub} {answer : Except StoreError Outcome}
      {world after : World} (before : IsBuilt store world.disk)
      (hrun : (store.commit stub).run world = ((answer, last), after)) : IsBuilt last after.disk
  | reopened {policy : IfExists} {store last : Store} {world after : World}
      (before : IsBuilt store world.disk)
      (hrun : (openAt store.dir policy).run world = (.ok last, after))
      (hmanifest : last.manifest = store.manifest) : IsBuilt last after.disk

variable {store last : Store} {stub : Stub} {disk : Disk} {world after : World} {outcome : Outcome}

theorem IsBuilt.isLocated (h : IsBuilt store disk) : disk.IsLocated store.dir := by
  induction h with
  | opened hvacant hrun => exact (of_run_openAt_of_isVacant hvacant hrun).1
  | committed _ hrun ih => exact (commits_of_run hrun).isLocated ih
  | reopened _ hrun _ ih =>
    rcases eq_of_run_openAt_of_isLocated ih hrun with ⟨hdir, rfl⟩
    rwa [hdir]

theorem IsBuilt.isSound (h : IsBuilt store disk) : store.manifest.IsSound := by
  induction h with
  | opened hvacant hrun =>
    rw [(of_run_openAt_of_isVacant hvacant hrun).2]
    exact Manifest.isSound_empty
  | committed _ hrun ih => exact (commits_of_run hrun).isSound ih
  | reopened _ _ hmanifest ih => rwa [hmanifest]

/-- A class that has been created or overwritten is recorded as it has been committed, and
    nothing else is: its module is the text, its entry has the digest, and keeps the file and the
    time of creation, the manifest is on the disk, other classes keep their entries and their
    modules, and to commit the class again to be validated changes nothing. -/
theorem IsBuilt.commit_faithful (hbuilt : IsBuilt store world.disk)
    (hindex : stub.className ≠ "__init__")
    (hrun : (store.commit stub).run world = ((.ok outcome, last), after))
    (hne : outcome ≠ .unchanged) :
    after.disk.readText (store.pathOf (moduleFile stub.className)) = .ok stub.source ∧
    after.disk.readText (store.pathOf manifestFile) = .ok last.manifest.json ∧
    (∃ e, last.manifest.entry? stub.className = some e ∧ e.digest = stub.digest ∧
      ∀ old, store.manifest.entry? stub.className = some old →
        e.file = old.file ∧ e.createdAt = old.createdAt) ∧
    (∀ name, name ≠ stub.className →
      last.manifest.entry? name = store.manifest.entry? name) ∧
    (∀ c ∈ store.manifest.classes, c.1 ≠ stub.className → c.1 ≠ "__init__" →
      after.disk.readText (store.pathOf (moduleFile c.1)) =
        world.disk.readText (store.pathOf (moduleFile c.1))) ∧
    ∀ now, (commit { last with ifExists := .validate } stub).run ⟨after.disk, now⟩ =
      ((.ok .unchanged, { last with ifExists := .validate }), ⟨after.disk, now⟩) := by
  have hdir := hbuilt.isLocated
  have hcommits := commits_of_run hrun
  have hholds := hcommits.holds hdir hne hindex
  rcases hcommits.exists_isWritten hne with ⟨e, hupdates, rfl, hwritten⟩
  have hfile := isFileName_moduleFile hupdates.isIdentifier
  refine ⟨hholds.readText_module, ?_, ⟨e, ?_, hupdates.spec⟩,
    fun name hname => hcommits.entry?_of_ne hname, fun c hc hname hother => ?_, ?_⟩
  · have hmanifest := hwritten.readText_join hdir hfile isFileName_manifestFile
    rwa [if_neg (by decide), if_pos rfl] at hmanifest
  · exact (Manifest.entry?_set _ _ e _).trans (if_pos rfl)
  · exact hcommits.readText_of_ne hdir (hbuilt.isSound.isIdentifier c hc) hname hother
  -- The second commit finds the entry and the module, so it has nothing to write.
  · have hagain : Holds { store.remember stub.className e with ifExists := .validate }
        after.disk stub :=
      ⟨hholds.exists_entry, hholds.readText_module⟩
    exact hagain.run_commit hupdates.isIdentifier rfl

/-- A class that is created where there is another one, by a store that has been opened anew. -/
theorem IsBuilt.commit_faithful_second :
    ∃ store last world after, IsBuilt store world.disk ∧
      store.manifest.classes.map (·.1) = ["A"] ∧
      (store.commit ⟨"B", "B = int\n", 8⟩).run world = ((.ok .created, last), after) ∧
      after.disk.readText (store.pathOf "B.pyi") = .ok "B = int\n" ∧
      (∃ e, last.manifest.entry? "B" = some e ∧ e.digest = 8) ∧
      after.disk.readText (store.pathOf "A.pyi") = world.disk.readText (store.pathOf "A.pyi") ∧
      ∀ now, (commit { last with ifExists := .validate } ⟨"B", "B = int\n", 8⟩).run
          ⟨after.disk, now⟩ =
        ((.ok .unchanged, { last with ifExists := .validate }), ⟨after.disk, now⟩) := by
  have hopened : IsBuilt ⟨"stubs", .validate, {}⟩ ⟨[(["stubs"], .directory)]⟩ :=
    @IsBuilt.opened "stubs" .validate _ {} ⟨_, ⟨0, 0, 0⟩⟩ (isVacant_empty "stubs") (by decide +kernel)
  -- The disk after the first commit, with the module, the manifest and the index.
  let m : Manifest := ⟨[("A", ⟨"A.pyi", 7, ⟨0, 0, 0⟩, ⟨0, 0, 0⟩⟩)]⟩
  let disk : Disk := ⟨[(["stubs"], .directory), (["stubs", "A.pyi"], .file (.text "A = str\n")),
    (["stubs", "classes.json"], .file (.text m.json)),
    (["stubs", "__init__.pyi"], .file (.text (m.index header)))]⟩
  have hfirst : IsBuilt ⟨"stubs", .validate, m⟩ disk :=
    @IsBuilt.committed _ _ ⟨"A", "A = str\n", 7⟩ (.ok .created) ⟨_, ⟨0, 0, 0⟩⟩ ⟨disk, ⟨0, 0, 0⟩⟩ hopened
      (by decide +kernel)
  -- The store is opened anew, with the policy that writes in any case.
  have hbuilt : IsBuilt ⟨"stubs", .overwrite, m⟩ disk :=
    @IsBuilt.reopened .overwrite _ _ ⟨disk, ⟨0, 0, 0⟩⟩ ⟨disk, ⟨0, 0, 0⟩⟩ hfirst (by decide +kernel) rfl
  have hcreated : ((commit ⟨"stubs", .overwrite, m⟩ ⟨"B", "B = int\n", 8⟩).run
      ⟨disk, ⟨0, 0, 0⟩⟩).1.1 = .ok .created := by
    decide +kernel
  have hexists : ∃ last after, (commit ⟨"stubs", .overwrite, m⟩ ⟨"B", "B = int\n", 8⟩).run
      ⟨disk, ⟨0, 0, 0⟩⟩ = ((.ok .created, last), after) :=
    ⟨_, _, Prod.ext (Prod.ext hcreated rfl) rfl⟩
  rcases hexists with ⟨last, after, hrun⟩
  rcases @IsBuilt.commit_faithful _ _ _ ⟨disk, ⟨0, 0, 0⟩⟩ _ _ hbuilt (by decide) hrun (by decide) with
    ⟨hmodule, _, ⟨e, hentry, hdigest, _⟩, _, hothers, hagain⟩
  have hother := hothers ("A", _) List.mem_cons_self (by decide) (by decide)
  exact ⟨_, last, _, after, hbuilt, rfl, hrun, hmodule, ⟨e, hentry, hdigest⟩, hother, hagain⟩

/-- The module of `__init__` is lost: the index is written over it. -/
theorem IsBuilt.commit_unfaithful :
    ∃ store last world after, IsBuilt store world.disk ∧ Naming.isIdentifier "__init__" = true ∧
      (store.commit ⟨"__init__", "x = 1\n", 1⟩).run world = ((.ok .created, last), after) ∧
      after.disk.readText (store.pathOf (moduleFile "__init__")) = .ok last.index ∧
      last.index ≠ "x = 1\n" := by
  have hopened : IsBuilt ⟨"stubs", .validate, {}⟩ ⟨[(["stubs"], .directory)]⟩ :=
    @IsBuilt.opened "stubs" .validate _ {} ⟨_, ⟨0, 0, 0⟩⟩ (isVacant_empty "stubs") (by decide +kernel)
  let m : Manifest := ⟨[("__init__", ⟨"__init__.pyi", 1, ⟨0, 0, 0⟩, ⟨0, 0, 0⟩⟩)]⟩
  exact ⟨_, ⟨"stubs", .validate, m⟩, ⟨_, ⟨0, 0, 0⟩⟩, ⟨⟨[(["stubs"], .directory),
    (["stubs", "__init__.pyi"], .file (.text (m.index header))),
    (["stubs", "classes.json"], .file (.text m.json))]⟩, ⟨0, 0, 0⟩⟩, hopened, by decide +kernel,
    by decide +kernel, by decide +kernel, by decide +kernel⟩

end Building

end Store

end TypeSketch
