import TypeSketch.Proofs.Store.Commits

/-!
# Runs of a Store

What a store's directory holds after any sequence of openings, commits and resets, one store
open at a time. As long as no file operation fails, the directory holds the files of the
manifest in memory, and opening it again gives this manifest. The manifest lists the classes
that have been created since the last reset.

Each operation keeps this from the state before it, so it holds along every run. A path that
leads through its own directory is another matter: opening a store there leaves directories
behind that the store does not own.

## Main definitions

* `Store.State.perform`: Carrying out one operation.
* `Store.Run`: The states that operations lead to.
* `Store.State.IsConsistent`: The directory and the manifest agree.

## Theorems

* `Store.State.IsKept.perform`: What every operation keeps.
* `Store.Run.isConsistent`: What holds after every operation of a run.
-/

namespace TypeSketch

namespace Store

open TypeSketch.Path Disk

/-- An operation on the stores in a directory. -/
inductive Call where
  | openWith (policy : IfExists)
  | commit (stub : Stub)
  | commitValue (s : Strategies) (className : String) (v : Value)
  | reset

/-- What an operation has done. -/
inductive Reply where
  | opened
  | committed (className : String) (outcome : Outcome)
  | removed
  | failed (error : StoreError)
deriving DecidableEq

/-- The store that is open, if there is one, and the directory tree. -/
structure State where
  store : Option Store
  disk : Disk
deriving DecidableEq

/-- No file operation has failed. -/
def Reply.IsRegular (reply : Reply) : Prop := ∀ path error, reply ≠ .failed (.access path error)

/-- The classes after an operation: a new one comes last, and a reset removes all. -/
def Reply.classesAfter (reply : Reply) (classes : List String) : List String :=
  match reply with
  | .removed => []
  | .committed className .created => classes ++ [className]
  | _ => classes

namespace State

/-- The manifest in memory; without an open store, that of no classes. -/
def manifest (state : State) : Manifest :=
  match state.store with
  | some store => store.manifest
  | none => {}

/-- The state after a commit. -/
def ofCommit (className : String) : (Except StoreError Outcome × Store) × World → Reply × State
  | ((.ok outcome, store), world) => (.committed className outcome, ⟨some store, world.disk⟩)
  | ((.error error, store), world) => (.failed error, ⟨some store, world.disk⟩)

/-- Carries out an operation at a point in time. Opening a store closes the one before, a
    reset closes it too, and only an open store can be committed to or reset. -/
def perform (dir : String) (now : Instant) (state : State) : Call → Option (Reply × State)
  | .openWith policy =>
    match (openAt dir policy).run ⟨state.disk, now⟩ with
    | (.ok store, world) => some (.opened, ⟨some store, world.disk⟩)
    | (.error error, world) => some (.failed error, ⟨none, world.disk⟩)
  | .commit stub => state.store.map fun store =>
    ofCommit stub.className ((store.commit stub).run ⟨state.disk, now⟩)
  | .commitValue s className v => state.store.map fun store =>
    ofCommit className ((store.commitValue s className v).run ⟨state.disk, now⟩)
  | .reset => state.store.map fun store =>
    match store.reset.run ⟨state.disk, now⟩ with
    | (.ok (), world) => (.removed, ⟨none, world.disk⟩)
    | (.error error, world) => (.failed error, ⟨none, world.disk⟩)

/-- The directory and the manifest in memory agree: the directory holds the files of the
    manifest and nothing else, the manifest is read from it again, each entry names the
    module of its class, the index lists the classes in ascending order, and a store that is
    opened anew has the same classes in the same order. -/
structure IsConsistent (dir : String) (state : State) : Prop where
  isSome_iff : ∀ rest, rest ≠ [] →
    ((state.disk.get? (way dir ++ rest)).isSome = true ↔
      ∃ file ∈ state.manifest.files, rest = [file])
  readText_file : ∀ file ∈ state.manifest.files,
    ∃ text, state.disk.readText (join dir file) = .ok text
  readText_manifest : state.manifest.classes ≠ [] →
    ∃ text, state.disk.readText (join dir manifestFile) = .ok text ∧
      Json.decode Manifest.decoder text = .ok state.manifest
  file_eq : ∀ c ∈ state.manifest.classes, c.2.file = c.1 ++ ".pyi"
  readText_index : state.manifest.classes ≠ [] →
    ∃ names : List String, names.Perm (state.manifest.classes.map (·.1)) ∧ names.Pairwise (· < ·) ∧
      state.disk.readText (join dir indexFile) = .ok (header ++ "\n" ++
        String.join (names.map fun name => "from ." ++ name ++ " import " ++ name ++ "\n") ++
        "\n__all__ = [" ++ ", ".intercalate (names.map fun name => "\"" ++ name ++ "\"") ++ "]\n")
  reopens : ∀ policy now, ∃ world,
    (openAt dir policy).run ⟨state.disk, now⟩ = (.ok ⟨dir, policy, state.manifest⟩, world)

/-- What every operation keeps. The classes are those that have been created. -/
structure IsKept (dir : String) (classes : List String) (state : State) : Prop where
  stores : state.disk.Stores dir state.manifest
  isSound : state.manifest.IsSound
  isReadable : state.manifest.classes ≠ [] → state.manifest.IsReadable
  classes_eq : state.manifest.classes.map (·.1) = classes
  isLocated : ∀ store, state.store = some store → store.dir = dir ∧ state.disk.IsLocated dir

variable {dir : String} {classes : List String} {state next : State} {now : Instant}

section Steps

theorem isKept_start {disk : Disk} (h : disk.IsVacant dir) : IsKept dir [] ⟨none, disk⟩ where
  stores := h.stores
  isSound := Manifest.isSound_empty
  isReadable hne := absurd rfl hne
  classes_eq := rfl
  isLocated store hstore := by cases hstore

/-- Without an open store, the directory holds nothing. -/
theorem IsKept.isVacant (h : state.IsKept dir classes) (hnone : state.store = none) :
    state.disk.IsVacant dir := by
  intro rest hrest
  refine Option.not_isSome_iff_eq_none.mp fun hsome => ?_
  rcases (h.stores.isSome_iff rest hrest).mp hsome with ⟨file, hfile, _⟩
  rw [manifest, hnone] at hfile
  exact (Manifest.mem_files.mp hfile).1 rfl

/-- A state with an open store, by what holds of the store and the directory. -/
theorem IsKept.of_store {store : Store} {disk : Disk} (hdir : disk.IsLocated store.dir)
    (hstores : disk.Stores store.dir store.manifest) (hsound : store.manifest.IsSound)
    (hread : store.manifest.classes ≠ [] → store.manifest.IsReadable) :
    IsKept store.dir (store.manifest.classes.map (·.1)) ⟨some store, disk⟩ where
  stores := hstores
  isSound := hsound
  isReadable := hread
  classes_eq := rfl
  isLocated other hother := by
    cases hother
    exact ⟨rfl, hdir⟩

theorem IsKept.openWith {policy : IfExists} {reply : Reply} (h : state.IsKept dir classes)
    (houtside : StaysOutside dir)
    (hperform : state.perform dir now (.openWith policy) = some (reply, next))
    (hregular : reply.IsRegular) :
    next.IsKept dir (reply.classesAfter classes) ∧ next.disk.IsPassable dir := by
  unfold perform at hperform
  dsimp only at hperform
  cases hstore : state.store with
  | some store =>
    -- A store is open already, and another one finds what it has left.
    rcases h.isLocated store hstore with ⟨rfl, hdir⟩
    rw [run_openAt_of_stores h.stores hdir h.isSound h.isReadable, Option.some.injEq,
      Prod.mk.injEq] at hperform
    rcases hperform with ⟨rfl, rfl⟩
    refine ⟨?_, hdir.isPassable⟩
    have hkept := @IsKept.of_store ⟨store.dir, policy, state.manifest⟩ state.disk hdir h.stores
      h.isSound h.isReadable
    rwa [h.classes_eq] at hkept
  | none =>
    -- No store is open, so there are no files, and only making the directory can fail.
    have hvacant := h.isVacant hstore
    have hnone : classes = [] := by
      rw [← h.classes_eq, manifest, hstore]
      rfl
    rcases exists_run_openAt_of_isVacant hvacant houtside policy now with
      ⟨answer, other, hrun, ⟨path, error, rfl⟩ | ⟨rfl, hdir, hvacant⟩, _⟩
    · rw [hrun, Option.some.injEq, Prod.mk.injEq] at hperform
      exact absurd hperform.1.symm (hregular path error)
    · rw [hrun, Option.some.injEq, Prod.mk.injEq] at hperform
      rcases hperform with ⟨rfl, rfl⟩
      refine ⟨?_, hdir.isPassable⟩
      rw [hnone]
      exact @IsKept.of_store ⟨dir, policy, {}⟩ other hdir hvacant.stores Manifest.isSound_empty
        fun hne => absurd rfl hne

/-- The state after the files of a manifest with a new entry have been written. -/
theorem IsKept.of_isWritten {store : Store} {className text : String} {e : ManifestEntry}
    {disk other : Disk} (h : IsKept store.dir classes ⟨some store, disk⟩)
    (hclass : Naming.isIdentifier className = true) (hfile : e.file = moduleFile className)
    (hwritten : disk.IsWritten store.dir (store.manifest.set className e)
      (moduleFile className) text other)
    (hread : (store.manifest.set className e).IsReadable) :
    IsKept store.dir ((store.manifest.set className e).classes.map (·.1))
        ⟨some (store.remember className e), other⟩ ∧ other.IsPassable store.dir := by
  have hdir := (h.isLocated store rfl).2
  have hother := hwritten.isLocated hdir (isFileName_moduleFile hclass)
  have hstores := Stores.of_isWritten h.stores hdir h.isSound hclass hwritten
  have hsound := h.isSound.set hclass hfile
  refine ⟨?_, hother.isPassable⟩
  exact @IsKept.of_store (store.remember className e) other hother hstores hsound fun _ => hread

/-- A commit keeps the directory and the manifest together, whatever it does. -/
theorem IsKept.of_commits {store last : Store} {stub : Stub} {disk other : Disk} {reply : Reply}
    {answer : Except StoreError Outcome} (h : IsKept dir classes ⟨some store, disk⟩)
    (hcommits : Commits store stub disk now answer last other)
    (heq : ofCommit stub.className ((answer, last), ⟨other, now⟩) = (reply, next))
    (hregular : reply.IsRegular) (hread : next.manifest.IsReadable) :
    next.IsKept dir (reply.classesAfter classes) ∧ next.disk.IsPassable dir := by
  rcases h.isLocated store rfl with ⟨rfl, hdir⟩
  have hclasses : store.manifest.classes.map (·.1) = classes := h.classes_eq
  cases hcommits with
  | refused =>
    rw [ofCommit, Prod.mk.injEq] at heq
    rcases heq with ⟨rfl, rfl⟩
    exact ⟨h, hdir.isPassable⟩
  | unchanged =>
    rw [ofCommit, Prod.mk.injEq] at heq
    rcases heq with ⟨rfl, rfl⟩
    exact ⟨h, hdir.isPassable⟩
  | written hupdates hwrite hsaves =>
    -- A run has no failures, so both the manifest and the index have been written.
    cases hsaves with
    | unsaved error =>
      rw [ofCommit, Prod.mk.injEq] at heq
      exact absurd heq.1.symm (hregular _ error)
    | unindexed error =>
      rw [ofCommit, Prod.mk.injEq] at heq
      exact absurd heq.1.symm (hregular _ error)
    | saved hmanifest hindex =>
      rw [ofCommit, Prod.mk.injEq] at heq
      rcases heq with ⟨rfl, rfl⟩
      have hkept := h.of_isWritten hupdates.isIdentifier (hupdates.file_eq h.isSound)
        ⟨_, _, hwrite, hmanifest, hindex⟩ hread
      cases hupdates with
      | created _ hnew =>
        -- A new class comes last in the manifest.
        rwa [Manifest.names_set_of_entry?_eq_none hnew, hclasses] at hkept
      | overwritten _ hold =>
        rwa [Manifest.names_set_of_mem (Manifest.mem_of_entry?_eq_some hold), hclasses] at hkept

theorem IsKept.commit {stub : Stub} {reply : Reply} (h : state.IsKept dir classes)
    (hperform : state.perform dir now (.commit stub) = some (reply, next))
    (hregular : reply.IsRegular) (hread : next.manifest.IsReadable) :
    next.IsKept dir (reply.classesAfter classes) ∧ next.disk.IsPassable dir := by
  rcases state with ⟨_ | store, disk⟩
  · contradiction
  · rcases exists_run_commit store stub disk now with ⟨answer, last, other, hrun, hcommits⟩
    unfold perform at hperform
    dsimp only at hperform
    rw [Option.map_some, hrun, Option.some.injEq] at hperform
    exact h.of_commits hcommits hperform hregular hread

theorem IsKept.commitValue {s : Strategies} {className : String} {v : Value} {reply : Reply}
    (h : state.IsKept dir classes)
    (hperform : state.perform dir now (.commitValue s className v) = some (reply, next))
    (hregular : reply.IsRegular) (hread : next.manifest.IsReadable) :
    next.IsKept dir (reply.classesAfter classes) ∧ next.disk.IsPassable dir := by
  rcases state with ⟨_ | store, disk⟩
  · contradiction
  · unfold perform at hperform
    dsimp only at hperform
    rw [Option.map_some, Option.some.injEq] at hperform
    unfold Store.commitValue at hperform
    cases hstub : Stub.ofValue s className v with
    | error error =>
      rw [hstub] at hperform
      dsimp only at hperform
      rw [Script.run_pure, ofCommit, Prod.mk.injEq] at hperform
      rcases hperform with ⟨rfl, rfl⟩
      exact ⟨h, (h.isLocated store rfl).1 ▸ (h.isLocated store rfl).2.isPassable⟩
    -- Apart from the stub, this is a commit.
    | ok stub =>
      rw [hstub] at hperform
      dsimp only at hperform
      rcases exists_run_commit store stub disk now with ⟨answer, last, other, hrun, hcommits⟩
      rw [hrun, ← Stub.className_of_ofValue hstub] at hperform
      exact h.of_commits hcommits hperform hregular hread

theorem IsKept.reset {reply : Reply} (h : state.IsKept dir classes)
    (hperform : state.perform dir now .reset = some (reply, next)) (hregular : reply.IsRegular) :
    next.IsKept dir (reply.classesAfter classes) ∧ next.disk.IsPassable dir := by
  rcases state with ⟨_ | store, disk⟩
  · contradiction
  · rcases h.isLocated store rfl with ⟨rfl, hdir⟩
    rcases exists_run_reset store hdir now with
      ⟨answer, other, hrun, ⟨path, error, rfl⟩ | ⟨rfl, rfl⟩⟩
    · unfold perform at hperform
      dsimp only at hperform
      rw [Option.map_some, hrun, Option.some.injEq, Prod.mk.injEq] at hperform
      exact absurd hperform.1.symm (hregular path error)
    -- The directory is gone with everything in it, which is how a run starts.
    · unfold perform at hperform
      dsimp only at hperform
      rw [Option.map_some, hrun, Option.some.injEq, Prod.mk.injEq] at hperform
      rcases hperform with ⟨rfl, rfl⟩
      exact ⟨isKept_start (isVacant_remove disk store.dir), hdir.isPassable.remove⟩

/-- Every operation keeps the directory and the manifest together. -/
theorem IsKept.perform {call : Call} {reply : Reply} (h : state.IsKept dir classes)
    (houtside : StaysOutside dir) (hperform : state.perform dir now call = some (reply, next))
    (hregular : reply.IsRegular) (hread : next.manifest.IsReadable) :
    next.IsKept dir (reply.classesAfter classes) ∧ next.disk.IsPassable dir := by
  cases call with
  | openWith policy => exact h.openWith houtside hperform hregular
  | commit stub => exact h.commit hperform hregular hread
  | commitValue s className v => exact h.commitValue hperform hregular hread
  | reset => exact h.reset hperform hregular

/-- What is kept makes the directory and the manifest agree. -/
theorem IsKept.consistent (h : state.IsKept dir classes) (hpass : state.disk.IsPassable dir)
    (houtside : StaysOutside dir) : state.IsConsistent dir where
  isSome_iff := h.stores.isSome_iff
  readText_file := h.stores.readText_file
  readText_manifest hne := ⟨_, h.stores.readText_manifest hne, h.isReadable hne⟩
  file_eq := h.isSound.file_eq
  readText_index hne := by
    rcases h.isSound.exists_index header with ⟨names, hperm, hsorted, heq⟩
    exact ⟨names, hperm, hsorted, heq ▸ h.stores.readText_index hne⟩
  reopens policy now := by
    -- An open store has its files there, and without one the directory is made.
    cases hstore : state.store with
    | some store =>
      have hdir := (h.isLocated store hstore).2
      exact ⟨_, run_openAt_of_stores h.stores hdir h.isSound h.isReadable policy now⟩
    | none =>
      rcases exists_run_openAt_of_isVacant (h.isVacant hstore) houtside policy now with
        ⟨answer, other, hrun, hcases, hok⟩
      rcases hok hpass with ⟨store, rfl⟩
      rcases hcases with ⟨path, error, hfault⟩ | ⟨heq, _⟩
      · contradiction
      · rw [hrun, heq, manifest, hstore]
        exact ⟨_, rfl⟩

end Steps

end State

/-- The states that operations on the stores in a directory lead to, and what the operations
    have done, first operation first. No file operation fails, and every manifest on the way
    can be read again as it has been written. -/
inductive Run (dir : String) (disk : Disk) : List Reply → State → Prop
  | start : Run dir disk [] ⟨none, disk⟩
  | step {replies : List Reply} {state next : State} {reply : Reply} (call : Call) (now : Instant)
      (before : Run dir disk replies state)
      (performed : state.perform dir now call = some (reply, next))
      (regular : reply.IsRegular) (readable : next.manifest.IsReadable) :
      Run dir disk (replies ++ [reply]) next

/-- The classes that have been created since the last reset, in this order. -/
def createdClasses (replies : List Reply) : List String :=
  replies.foldl (fun classes reply => reply.classesAfter classes) []

example : createdClasses [.committed "A" .created, .removed, .opened, .committed "B" .created,
    .committed "C" .created, .committed "B" .overwritten] = ["B", "C"] := by
  decide

variable {dir : String} {disk : Disk} {replies : List Reply} {state : State}

/-- Every state of a run keeps the directory and the manifest together. -/
theorem Run.isKept (houtside : StaysOutside dir) (hvacant : disk.IsVacant dir)
    (h : Run dir disk replies state) : state.IsKept dir (createdClasses replies) := by
  induction h with
  | start => exact State.isKept_start hvacant
  | step call now _ performed regular readable ih =>
    rw [createdClasses, List.foldl_append]
    exact (ih.perform houtside performed regular readable).1

/-- After every operation on a directory that holds nothing at first, the directory and the
    manifest in memory agree, and the classes are those created since the last reset. -/
theorem Run.isConsistent (houtside : StaysOutside dir) (hvacant : disk.IsVacant dir)
    (h : Run dir disk replies state) (hne : replies ≠ []) :
    state.IsConsistent dir ∧ state.manifest.classes.map (·.1) = createdClasses replies := by
  cases h with
  | start => exact absurd rfl hne
  | step call now before performed regular readable =>
    have hkept := Run.isKept houtside hvacant (.step call now before performed regular readable)
    have hpass := ((before.isKept houtside hvacant).perform houtside performed regular readable).2
    exact ⟨hkept.consistent hpass houtside, hkept.classes_eq⟩

theorem Run.isConsistent_created :
    StaysOutside "stubs" ∧ IsVacant {} "stubs" ∧
      ∃ state, Run "stubs" {} [.opened, .committed "A" .created] state ∧
        state.IsConsistent "stubs" ∧
        state.manifest.classes.map (·.1) = createdClasses [.opened, .committed "A" .created] := by
  have houtside : StaysOutside "stubs" := staysOutside_of_not_mem (by decide)
  have hvacant : IsVacant {} "stubs" := isVacant_empty "stubs"
  have hopened : Run "stubs" {} [.opened]
      ⟨some ⟨"stubs", .validate, {}⟩, ⟨[(["stubs"], .directory)]⟩⟩ :=
    .step (.openWith .validate) ⟨0, 0, 0⟩ .start (by decide +kernel) (by simp [Reply.IsRegular])
      (by unfold Manifest.IsReadable; decide +kernel)
  let m : Manifest := ⟨[("A", ⟨"A.pyi", 7, ⟨0, 0, 0⟩, ⟨0, 0, 0⟩⟩)]⟩
  -- The commit writes the module, the manifest and the index.
  have hcreated : Run "stubs" {} [.opened, .committed "A" .created]
      ⟨some ⟨"stubs", .validate, m⟩, ⟨[(["stubs"], .directory),
        (["stubs", "A.pyi"], .file (.text "class A: ...\n")),
        (["stubs", "classes.json"], .file (.text m.json)),
        (["stubs", "__init__.pyi"], .file (.text (m.index header)))]⟩⟩ :=
    .step (.commit ⟨"A", "class A: ...\n", 7⟩) ⟨0, 0, 0⟩ hopened (by decide +kernel)
      (by simp [Reply.IsRegular]) (by unfold Manifest.IsReadable; decide +kernel)
  exact ⟨houtside, hvacant, _, hcreated,
    Run.isConsistent houtside hvacant hcreated (List.cons_ne_nil _ _)⟩

/-- Opening a store on a path that leads through its own directory leaves a directory behind
    that the store does not own. -/
theorem Run.inconsistent_through_itself :
    IsVacant {} "a/.." ∧
      ∃ state, Run "a/.." {} [.failed (.foreignFiles "a/.." ["a"])] state ∧
        ¬state.IsConsistent "a/.." := by
  refine ⟨?_, ⟨none, ⟨[(["a"], .directory)]⟩⟩, ?_, fun hconsistent => ?_⟩
  · exact isVacant_empty "a/.."
  · exact .step (.openWith .validate) ⟨0, 0, 0⟩ .start (by decide +kernel)
      (by simp [Reply.IsRegular])
      (by unfold Manifest.IsReadable; decide +kernel)
  · rcases (hconsistent.isSome_iff ["a"] (List.cons_ne_nil _ _)).mp (by decide) with
      ⟨file, hfile, _⟩
    exact absurd hfile List.not_mem_nil

end Store

end TypeSketch
