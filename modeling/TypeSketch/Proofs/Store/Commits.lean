import TypeSketch.Proofs.Files.Faults
import TypeSketch.Proofs.Store.Directory

/-!
# What a Commit Can Do

A commit leaves all as it is, or it writes the module of a class and then the manifest and
the index with a new entry. Any of the operations may fail, and what is left then depends on
the one that failed. Until the module is written, nothing has changed. After that the store
remembers the class in any case, and what has been written before the failure stays.

So a commit that fails is undone only if it fails at the module. Where the manifest cannot
be written, the module is left in a directory whose manifest does not list it, and such a
directory is refused when it is opened again.

## Main definitions

* `Store.Updates`: The entry that a commit makes for its class.
* `Store.Saves`: What writing the manifest and the index can do.
* `Store.Commits`: What a commit can do.

## Theorems

* `Stub.ofValue_eq_ok_iff`: What is committed for a value.
* `Store.exists_runWith_commit`: A commit with any faults does one of these things.
* `Store.commit_atomic`: A commit that does not fail at the manifest or the index changes
  nothing when it fails.
-/

namespace TypeSketch

/-- A stub that is made from a value is the module and the digest of its tree. -/
theorem Stub.ofValue_eq_ok_iff {s : Strategies} {className : String} {v : Value} {stub : Stub} :
    Stub.ofValue s className v = .ok stub ↔
      ∃ t session, Inference.infer { strategies := s } className v = .ok t ∧
        t.render s = .ok session ∧ stub = ⟨className, session.moduleText, t.digest⟩ := by
  unfold Stub.ofValue
  cases hinfer : Inference.infer { strategies := s } className v with
  | error error => simp [bind, Except.bind]
  | ok t =>
    cases hrender : t.render s <;>
      simp [TypeTree.module, hrender, Except.map, bind, Except.bind, pure, Except.pure, eq_comm]

theorem Stub.className_of_ofValue {s : Strategies} {className : String} {v : Value} {stub : Stub}
    (h : Stub.ofValue s className v = .ok stub) : stub.className = className := by
  rcases Stub.ofValue_eq_ok_iff.mp h with ⟨_, _, _, _, rfl⟩
  rfl

namespace Store

open Disk

section Outcomes

variable {store : Store} {stub : Stub} {now : Instant}

/-- The entry that a commit makes for its class, and what the commit is called. -/
inductive Updates (store : Store) (stub : Stub) (now : Instant) : Outcome → ManifestEntry → Prop
  | created (hclass : Naming.isIdentifier stub.className = true)
      (hnew : store.manifest.entry? stub.className = none) :
      Updates store stub now .created ⟨moduleFile stub.className, stub.digest, now, now⟩
  | overwritten {old : ManifestEntry} (hclass : Naming.isIdentifier stub.className = true)
      (hold : store.manifest.entry? stub.className = some old) :
      Updates store stub now .overwritten { old with digest := stub.digest, updatedAt := now }

/-- What writing the manifest and the index can do: fail at the one or at the other, or write
    both. -/
inductive Saves (store : Store) (outcome : Outcome) (disk : Disk) :
    Except StoreError Outcome → Disk → Prop
  | unsaved (error : FileError) :
      Saves store outcome disk (.error (.access (store.pathOf manifestFile) error)) disk
  | unindexed (error : FileError) {withManifest : Disk}
      (hmanifest : disk.write (store.pathOf manifestFile) (.text store.manifest.json) =
        .ok withManifest) :
      Saves store outcome disk (.error (.access (store.pathOf indexFile) error)) withManifest
  | saved {withManifest other : Disk}
      (hmanifest : disk.write (store.pathOf manifestFile) (.text store.manifest.json) =
        .ok withManifest)
      (hindex : withManifest.write (store.pathOf indexFile) (.text store.index) = .ok other) :
      Saves store outcome disk (.ok outcome) other

/-- What a commit can do: fail and leave all as it is, find an equivalent module, or write
    the module and go on with the manifest and the index. -/
inductive Commits (store : Store) (stub : Stub) (disk : Disk) (now : Instant) :
    Except StoreError Outcome → Store → Disk → Prop
  | refused {error : StoreError} : Commits store stub disk now (.error error) store disk
  | unchanged {e : ManifestEntry} {stored : String}
      (hold : store.manifest.entry? stub.className = some e)
      (hread : disk.readText (store.pathOf (moduleFile stub.className)) = .ok stored)
      (hequivalent : Equivalence.areEquivalent stored stub.source = true) :
      Commits store stub disk now (.ok .unchanged) store disk
  | written {outcome : Outcome} {e : ManifestEntry} {withFile other : Disk}
      {answer : Except StoreError Outcome} (hupdates : Updates store stub now outcome e)
      (hwrite : disk.write (store.pathOf (moduleFile stub.className)) (.text stub.source) =
        .ok withFile)
      (hsaves : Saves (store.remember stub.className e) outcome withFile answer other) :
      Commits store stub disk now answer (store.remember stub.className e) other

theorem Updates.isIdentifier {outcome : Outcome} {e : ManifestEntry}
    (h : Updates store stub now outcome e) : Naming.isIdentifier stub.className = true := by
  cases h <;> assumption

/-- The entry names the module of the class, as the one before it did. -/
theorem Updates.file_eq {outcome : Outcome} {e : ManifestEntry}
    (h : Updates store stub now outcome e) (hsound : store.manifest.IsSound) :
    e.file = moduleFile stub.className := by
  cases h with
  | created => rfl
  | overwritten _ hold => exact hsound.file_eq _ (Manifest.mem_of_entry?_eq_some hold)

end Outcomes

section Running

variable (store : Store) (stub : Stub) (disk : Disk) (now : Instant)
  (faults : Nat → Option FileError)

/-- Writing a file fails and leaves all as it is, or the file is written. -/
theorem exists_runWith_writeFile (file text : String) :
    ∃ rest, (∃ error, (store.writeFile file text).runWith ⟨⟨disk, now⟩, faults⟩ =
        (.error (.access (store.pathOf file) error), ⟨⟨disk, now⟩, rest⟩)) ∨
      ∃ other, disk.write (store.pathOf file) (.text text) = .ok other ∧
        (store.writeFile file text).runWith ⟨⟨disk, now⟩, faults⟩ =
          (.ok (), ⟨⟨other, now⟩, rest⟩) := by
  unfold writeFile
  rw [Script.runWith_bind, Script.runWith_writeText]
  refine ⟨fun n => faults (n + 1), ?_⟩
  cases hwrite : Script.orFault (faults 0) (disk.write (store.pathOf file) (.text text)) with
  | error error => exact Or.inl ⟨error, rfl⟩
  | ok other => exact Or.inr ⟨other, (Script.orFault_eq_ok_iff.mp hwrite).2, rfl⟩

/-- Writing the manifest and the index. -/
theorem exists_runWith_saveAs (outcome : Outcome) :
    ∃ answer other rest, (store.saveAs outcome).runWith ⟨⟨disk, now⟩, faults⟩ =
      ((answer, store), ⟨⟨other, now⟩, rest⟩) ∧ Saves store outcome disk answer other := by
  unfold saveAs save
  rw [Script.runWith_bind, Script.runWith_bind]
  -- The manifest is written first, and without it the index is not written at all.
  rcases exists_runWith_writeFile store disk now faults manifestFile store.manifest.json with
    ⟨rest, ⟨error, hrun⟩ | ⟨withManifest, hmanifest, hrun⟩⟩
  · rw [hrun]
    exact ⟨_, _, _, rfl, .unsaved error⟩
  · rw [hrun]
    dsimp only
    rcases exists_runWith_writeFile store withManifest now rest indexFile store.index with
      ⟨rest', ⟨error, hrun'⟩ | ⟨other, hindex, hrun'⟩⟩
    · rw [hrun']
      exact ⟨_, _, _, rfl, .unindexed error hmanifest⟩
    · rw [hrun']
      exact ⟨_, _, _, rfl, .saved hmanifest hindex⟩

/-- Writing the module of a class, and then the manifest and the index with its new entry. -/
theorem exists_runWith_write_saveAs {outcome : Outcome} {e : ManifestEntry}
    (hupdates : Updates store stub now outcome e) :
    ∃ answer last other rest,
      (do
        match ← store.writeFile (moduleFile stub.className) stub.source with
        | .error error => return (.error error, store)
        | .ok () => (store.remember stub.className e).saveAs outcome :
        Script (Except StoreError Outcome × Store)).runWith ⟨⟨disk, now⟩, faults⟩ =
          ((answer, last), ⟨⟨other, now⟩, rest⟩) ∧
      Commits store stub disk now answer last other := by
  rw [Script.runWith_bind]
  rcases exists_runWith_writeFile store disk now faults (moduleFile stub.className) stub.source with
    ⟨rest, ⟨error, hrun⟩ | ⟨withFile, hwrite, hrun⟩⟩
  · rw [hrun]
    exact ⟨_, _, _, _, rfl, .refused⟩
  · rw [hrun]
    rcases exists_runWith_saveAs (store.remember stub.className e) withFile now rest outcome with
      ⟨answer, other, rest', hrun', hsaves⟩
    exact ⟨_, _, _, _, hrun', .written hupdates hwrite hsaves⟩

/-- What a commit can do when any of its operations may have a fault. -/
theorem exists_runWith_commit :
    ∃ answer last other rest, (store.commit stub).runWith ⟨⟨disk, now⟩, faults⟩ =
      ((answer, last), ⟨⟨other, now⟩, rest⟩) ∧ Commits store stub disk now answer last other := by
  unfold commit
  -- Only a class that is to be validated reads its module before anything is written.
  by_cases hclass : Naming.isIdentifier stub.className = true
  · rw [if_neg (by rw [hclass]; decide), Script.runWith_bind, Script.runWith_clock]
    dsimp only
    cases hentry : store.manifest.entry? stub.className with
    | none => exact exists_runWith_write_saveAs store stub disk now faults (.created hclass hentry)
    | some old =>
      -- The policy matters only for a class that is in the manifest.
      cases store.ifExists with
      | overwrite =>
        exact exists_runWith_write_saveAs store stub disk now faults (.overwritten hclass hentry)
      | validate =>
        dsimp only
        unfold validate
        rw [Script.runWith_bind, Script.runWith_readText]
        cases hread : Script.orFault (faults 0)
            (disk.readText (store.pathOf (moduleFile stub.className))) with
        | error error => exact ⟨_, _, _, _, rfl, .refused⟩
        | ok stored =>
          dsimp only
          split
          · next hequivalent =>
            exact ⟨_, _, _, _, rfl,
              .unchanged hentry (Script.orFault_eq_ok_iff.mp hread).2 hequivalent⟩
          · exact ⟨_, _, _, _, rfl, .refused⟩
  · rw [if_pos (by rw [Bool.eq_false_iff.mpr hclass]; decide)]
    exact ⟨_, _, _, _, rfl, .refused⟩

/-- What a commit can do. -/
theorem exists_run_commit :
    ∃ answer last other, (store.commit stub).run ⟨disk, now⟩ = ((answer, last), ⟨other, now⟩) ∧
      Commits store stub disk now answer last other := by
  rcases exists_runWith_commit store stub disk now fun _ => none with
    ⟨answer, last, other, rest, hrun, hcommits⟩
  rw [Script.runWith_none, Prod.mk.injEq] at hrun
  refine ⟨answer, last, other, Prod.ext hrun.1 ?_, hcommits⟩
  exact congrArg FaultyWorld.toWorld hrun.2

variable {store stub} in
/-- What a commit has done that has been run. -/
theorem commits_of_run {last : Store} {answer : Except StoreError Outcome} {world after : World}
    (h : (store.commit stub).run world = ((answer, last), after)) :
    Commits store stub world.disk world.now answer last after.disk := by
  rcases exists_run_commit store stub world.disk world.now with
    ⟨answer', last', other, hrun, hcommits⟩
  rw [hrun, Prod.mk.injEq, Prod.mk.injEq] at h
  rcases h with ⟨⟨rfl, rfl⟩, rfl⟩
  exact hcommits

variable {store} in
/-- What a commit of a value has done that has been run and has not failed. -/
theorem commits_of_run_commitValue {last : Store} {s : Strategies} {className : String} {v : Value}
    {outcome : Outcome} {world after : World}
    (h : (store.commitValue s className v).run world = ((.ok outcome, last), after)) :
    ∃ stub, Stub.ofValue s className v = .ok stub ∧
      Commits store stub world.disk world.now (.ok outcome) last after.disk := by
  unfold commitValue at h
  cases hstub : Stub.ofValue s className v with
  | error error =>
    rw [hstub] at h
    cases h
  | ok stub =>
    rw [hstub] at h
    exact ⟨stub, rfl, commits_of_run h⟩

end Running

/-- A commit that fails, but not at the manifest or the index, has changed neither the store
    nor the files. -/
theorem commit_atomic {store last : Store} {stub : Stub} {world after : FaultyWorld}
    {error : StoreError} (h : (store.commit stub).runWith world = ((.error error, last), after))
    (hmanifest : ∀ e, error ≠ .access (store.pathOf manifestFile) e)
    (hindex : ∀ e, error ≠ .access (store.pathOf indexFile) e) :
    last = store ∧ after.toWorld = world.toWorld := by
  rcases exists_runWith_commit store stub world.disk world.now world.faults with
    ⟨answer, last', other, rest, hrun, hcommits⟩
  rw [hrun, Prod.mk.injEq, Prod.mk.injEq] at h
  rcases h with ⟨⟨rfl, rfl⟩, rfl⟩
  cases hcommits with
  | refused => exact ⟨rfl, rfl⟩
  | written _ _ hsaves =>
    -- Once the module is there, a commit can fail in no other way.
    cases hsaves with
    | unsaved e => exact absurd rfl (hmanifest e)
    | unindexed e _ => exact absurd rfl (hindex e)

/-- Where the module cannot be written, nothing has changed. -/
theorem commit_atomic_module :
    ∃ last after, (commit ⟨"stubs", .validate, {}⟩ ⟨"A", "class A: ...\n", 7⟩).runWith
        ⟨⟨⟨[(["stubs"], .directory)]⟩, ⟨0, 0, 0⟩⟩, fun _ => some (.other "No space left on device")⟩ =
      ((.error (.access "stubs/A.pyi" (.other "No space left on device")), last), after) ∧
      last = ⟨"stubs", .validate, {}⟩ ∧
      after.toWorld = ⟨⟨[(["stubs"], .directory)]⟩, ⟨0, 0, 0⟩⟩ := by
  have hrun : (commit ⟨"stubs", .validate, {}⟩ ⟨"A", "class A: ...\n", 7⟩).runWith
      ⟨⟨⟨[(["stubs"], .directory)]⟩, ⟨0, 0, 0⟩⟩, fun _ => some (.other "No space left on device")⟩ =
        ((.error (.access "stubs/A.pyi" (.other "No space left on device")), _), _) :=
    Prod.ext (Prod.ext (by decide +kernel) rfl) rfl
  have hother : ∀ file, "stubs/A.pyi" ≠ pathOf ⟨"stubs", .validate, {}⟩ file →
      ∀ e, StoreError.access "stubs/A.pyi" (.other "No space left on device") ≠
        .access (pathOf ⟨"stubs", .validate, {}⟩ file) e :=
    fun file hne e heq => hne (StoreError.access.inj heq).1
  exact ⟨_, _, hrun, commit_atomic hrun (hother _ (by decide)) (hother _ (by decide))⟩

/-- Where the manifest cannot be written, because a directory is in its place, the store lists
    the class and the module stays. When the directory is gone, the store can no longer be
    opened, although it could be before. -/
theorem commit_leaves_module :
    ∃ store last disk after,
      (openAt "stubs" .validate).run {} = (.ok store, ⟨disk, ⟨0, 0, 0⟩⟩) ∧
      (store.commit ⟨"A", "x\n", 1⟩).runWith
          ⟨⟨disk.put ["stubs", manifestFile] .directory, ⟨0, 0, 0⟩⟩, fun _ => none⟩ =
        ((.error (.access "stubs/classes.json" .isDirectory), last), after) ∧
      last ≠ store ∧ after.disk ≠ disk.put ["stubs", manifestFile] .directory ∧
      ((openAt "stubs" .validate).run
        ⟨(disk.put ["stubs", manifestFile] .directory).remove ["stubs", manifestFile],
          ⟨0, 0, 0⟩⟩).1 = .ok store ∧
      ((openAt "stubs" .validate).run
        ⟨after.disk.remove ["stubs", manifestFile], ⟨0, 0, 0⟩⟩).1 =
          .error (.foreignFiles "stubs" ["A.pyi"]) :=
  -- A directory in the place of the manifest keeps it from being written, but not the module.
  ⟨⟨"stubs", .validate, {}⟩, _, ⟨[(["stubs"], .directory)]⟩, _, by decide +kernel,
    Prod.ext (Prod.ext (by decide +kernel) rfl) rfl, by decide +kernel, by decide +kernel,
    by decide +kernel, by decide +kernel⟩

end Store

end TypeSketch
