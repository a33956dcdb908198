import TypeSketch.Proofs.Files.Reached
import TypeSketch.Proofs.Store.Faithful
import TypeSketch.Proofs.Store.Runs

/-!
# Files That a Store Has Not Written

What stores may do to files that were there before them. A directory without a manifest is
opened as one of no classes, and then nothing may be in it but what a store of no classes
owns by its name. That is the manifest, which is missing, and the index. So every directory
with anything else in it is refused, and one that is opened has no file to lose.

The index is the exception. It is taken for the store's own by its name, although a store
writes it only after a manifest. A directory with nothing but an `__init__.pyi` of someone
else is opened, and then the first commit writes over it and a reset removes it.

Opening only adds directories, a commit writes files directly in the directory of the store,
and a reset removes what is below it. So all other files stay as they are, whatever the
operations answer.

## Main definitions

* `Disk.HoldsAtMost`: A directory with one name in it at most.
* `Store.Leads`: The states after any operations.
* `Store.State.Spares`: What any operations keep of what was there before.

## Theorems

* `Store.eq_of_run_openAt_of_none`: What a store that is opened without a manifest is.
* `Store.run_openAt_of_holdsAtMost`: What is opened without a manifest.
* `Store.State.Spares.perform`: What one operation keeps.
* `Store.spares_files`: What any operations keep of a directory without a manifest.
-/

namespace TypeSketch

open TypeSketch.Path

namespace Disk

variable {disk other : Disk} {dir name : String}

/-- The directory is no file, and all that is in it is called like this. -/
structure HoldsAtMost (disk : Disk) (dir name : String) : Prop where
  not_file : ∀ content, disk.get? (way dir) ≠ some (.file content)
  eq_of_isSome : ∀ found, (disk.get? (way dir ++ [found])).isSome = true → found = name

/-- There was no more in the directory before others were made. -/
theorem HoldsAtMost.of_grown (h : other.HoldsAtMost dir name) (hgrown : disk.Grown other dir) :
    disk.HoldsAtMost dir name where
  not_file content hfile := h.not_file content (hgrown.get?_eq_file hfile)
  eq_of_isSome found hsome := h.eq_of_isSome found (hgrown.isSome_get? hsome)

/-- A file that paths lead to is not in the directory, or it is at the one name there or
    below it. -/
theorem HoldsAtMost.cases_of_isFileAt (h : disk.HoldsAtMost dir name) {w : List String}
    {content : Content} (hfile : disk.IsFileAt w content) :
    ¬way dir <+: w ∨ way dir ++ [name] <+: w := by
  refine or_iff_not_imp_left.mpr fun hbelow => ?_
  rcases not_not.mp hbelow with ⟨rest, rfl⟩
  cases rest with
  | nil =>
    rw [List.append_nil] at hfile
    exact absurd hfile.get?_eq (h.not_file content)
  | cons found rest =>
    have hprefix : way dir ++ [found] <+: way dir ++ found :: rest := ⟨rest, by simp⟩
    rw [← h.eq_of_isSome found (hfile.isSome_get? hprefix)]
    exact hprefix

end Disk

namespace Store

open Disk

variable {disk : Disk} {dir : String} {policy : IfExists} {store : Store} {world after : World}

section Opening

/-- The check changes nothing, whatever it answers. -/
theorem run_checkOwnership_snd (store : Store) (world : World) :
    (store.checkOwnership.run world).2 = world := by
  rcases world with ⟨disk, now⟩
  unfold checkOwnership
  rw [Script.run_bind, Script.run_listDirectory]
  dsimp only
  cases disk.listDirectory store.dir with
  | error error => rfl
  | ok names =>
    dsimp only
    split
    · rfl
    · rw [Script.run_bind]
      rcases exists_run_missingSource? store store.manifest.classes disk now with
        ⟨_ | _, hrun, _⟩ <;> rw [hrun] <;> rfl

/-- Opening a store adds directories on the path to it and does no more, whatever it answers. -/
theorem grown_of_run_openAt {answer : Except StoreError Store}
    (h : (openAt dir policy).run world = (answer, after)) : world.disk.Grown after.disk dir := by
  have hcreate : world.disk.Grown ((Script.createDirectories dir).run world).2.disk dir := by
    -- Without a name for the directory, nothing is made.
    by_cases hempty : dir = ""
    · rw [Script.createDirectories, if_pos hempty]
      exact Grown.refl _ _
    · rcases Script.exists_run_createDirectories world.disk world.now dir with
        ⟨_, made, hrun, hcreation, _⟩
      rw [hrun]
      exact (hcreation hempty).grown
  -- Reading the manifest and listing the directory leave the disk alone, so making it is all.
  have hafter : ((openAt dir policy).run world).2 =
      ((Script.createDirectories dir).run world).2 := by
    rw [openAt, Script.run_bind]
    rcases (Script.createDirectories dir).run world with ⟨_ | _, made⟩
    · rfl
    · dsimp only
      rw [Script.run_bind]
      have hsame := run_readManifest_snd dir made
      rcases hread : (readManifest dir).run made with ⟨_ | m, read⟩ <;> rw [hread] at hsame
      · exact hsame
      · exact (run_checkOwnership_snd _ _).trans hsame
  rw [h] at hafter
  rwa [← hafter] at hcreate

/-- Where there is no file for a manifest but one could be read, there is nothing at all. -/
theorem get?_of_run_readManifest {m : Manifest} (hdir : world.disk.IsLocated dir)
    (hnone : ∀ content, world.disk.get? (way dir ++ [manifestFile]) ≠ some (.file content))
    (h : (readManifest dir).run world = (.ok m, after)) :
    world.disk.get? (way dir ++ [manifestFile]) = none := by
  have hnode := hdir.locateNode_join isFileName_manifestFile
  rw [if_neg (by decide)] at hnode
  rcases hget : world.disk.get? (way dir ++ [manifestFile]) with _ | ⟨content⟩ | _
  · rfl
  · exact absurd hget (hnone content)
  · -- A directory in its place is found, but it cannot be read.
    rw [hget] at hnode
    unfold readManifest at h
    rw [Script.run_bind, Script.run_kindOf, inspect, hnode] at h
    change ((Script.readText (join dir manifestFile) .done >>= _).run world) = _ at h
    rw [Script.run_bind, Script.run_readText, readText, hnode] at h
    cases h

/-- A store that is opened without a manifest has no classes, and in its directory there is
    nothing but what is called like the index. -/
theorem eq_of_run_openAt_of_none
    (hnone : ∀ content, world.disk.get? (way dir ++ [manifestFile]) ≠ some (.file content))
    (h : (openAt dir policy).run world = (.ok store, after)) :
    store = ⟨dir, policy, {}⟩ ∧ after.disk.IsLocated dir ∧
      world.disk.HoldsAtMost dir indexFile := by
  have hgrown := grown_of_run_openAt h
  rcases of_run_openAt h with ⟨m, _, hread, rfl, hintact⟩
  have hdir : after.disk.IsLocated dir := hintact.isLocated
  have hafter := fun content => hgrown.get?_ne_file (hnone content)
  have htext : ∀ text, after.disk.readText (join dir manifestFile) ≠ .ok text := fun text htext =>
    hafter _ ((hdir.readText_join_iff isFileName_manifestFile).mp htext).2
  -- A manifest that is no file cannot be read, so it can only be missing.
  have hmissing := get?_of_run_readManifest hdir hafter hread
  obtain rfl : m = {} := (eq_of_run_readManifest hread htext).1
  have hholds : after.disk.HoldsAtMost dir indexFile := by
    refine ⟨fun content hfile => ?_, fun name hname => ?_⟩
    · rw [hdir.get?_of_isPrefix (List.prefix_refl _)] at hfile
      cases hfile
    · -- Of the names that the store owns, one is missing and the other is the index.
      rcases (owns_iff Manifest.isSound_empty).mp (hintact.owns name hname) with
        rfl | hindex | ⟨c, hc, _⟩
      · rw [hmissing] at hname
        contradiction
      · exact hindex
      · exact absurd hc List.not_mem_nil
  exact ⟨rfl, hdir, hholds.of_grown hgrown⟩

/-- A directory without a manifest is opened if there is nothing in it but what is called like
    the index. -/
theorem run_openAt_of_holdsAtMost (hdir : disk.IsLocated dir)
    (hnone : disk.get? (way dir ++ [manifestFile]) = none) (h : disk.HoldsAtMost dir indexFile)
    (policy : IfExists) (now : Instant) :
    (openAt dir policy).run ⟨disk, now⟩ = (.ok ⟨dir, policy, {}⟩, ⟨disk, now⟩) := by
  have hread : (readManifest dir).run ⟨disk, now⟩ = (.ok {}, ⟨disk, now⟩) := by
    unfold readManifest
    rw [Script.run_bind, Script.run_kindOf,
      hdir.inspect_join_of_none isFileName_manifestFile hnone]
    rfl
  -- The one file that may be there is the index, which every store owns.
  have hintact : IsIntact ⟨dir, policy, {}⟩ disk := by
    refine ⟨hdir, fun name hname => ?_, fun c hc => absurd hc List.not_mem_nil⟩
    rw [owns_iff Manifest.isSound_empty]
    exact Or.inr (Or.inl (h.eq_of_isSome name hname))
  unfold openAt
  rw [Script.run_bind, Script.run_createDirectories_of_isLocated hdir]
  dsimp only
  rw [Script.run_bind, hread]
  exact run_checkOwnership_eq_ok_iff.mpr ⟨rfl, rfl, hintact⟩

end Opening

section Changing

variable {last : Store} {stub : Stub} {other : Disk} {now : Instant} {w : List String}

/-- Writing a file of a directory changes nothing outside of it. -/
theorem get?_of_write_join {file : String} {content : Content} (hdir : disk.IsLocated dir)
    (hfile : IsFileName file) (hwrite : disk.write (join dir file) content = .ok other)
    (hw : ¬way dir <+: w) : other.get? w = disk.get? w := by
  rcases hdir.get?_of_write_join hfile hwrite with ⟨_, _, hget⟩
  rw [hget, if_neg]
  rintro rfl
  exact hw (List.prefix_append _ _)

/-- A commit changes nothing outside of the directory of its store, whatever it answers. -/
theorem Commits.get?_of_not_isPrefix {answer : Except StoreError Outcome}
    (h : Commits store stub disk now answer last other) (hdir : disk.IsLocated store.dir)
    (hw : ¬way store.dir <+: w) : other.get? w = disk.get? w := by
  cases h with
  | refused => rfl
  | unchanged => rfl
  | written hupdates hwrite hsaves =>
    have hfile := isFileName_moduleFile hupdates.isIdentifier
    have hmodule := get?_of_write_join hdir hfile hwrite hw
    have hdir := hdir.of_write_join hfile hwrite
    -- All that is written lies in the directory: the module, the manifest and the index.
    cases hsaves with
    | unsaved => exact hmodule
    | unindexed _ hmanifest =>
      exact (get?_of_write_join hdir isFileName_manifestFile hmanifest hw).trans hmodule
    | saved hmanifest hindex =>
      have hsaved := get?_of_write_join hdir isFileName_manifestFile hmanifest hw
      have hdir := hdir.of_write_join isFileName_manifestFile hmanifest
      have hlast := get?_of_write_join hdir isFileName_indexFile hindex hw
      exact hlast.trans (hsaved.trans hmodule)

/-- Removing the directory of a store changes nothing outside of it, whatever it answers. -/
theorem get?_of_run_reset {answer : Except StoreError Unit}
    (h : store.reset.run world = (answer, after)) (hw : ¬way store.dir <+: w) :
    after.disk.get? w = world.disk.get? w := by
  unfold reset at h
  rw [Script.run_bind, Script.run_removeTree] at h
  cases h
  exact get?_removeTree world.disk store.dir hw

end Changing

/-- The states that operations on the stores in a directory lead to, whatever they answer. -/
inductive Leads (dir : String) (start : State) : State → Prop
  | refl : Leads dir start start
  | step {state next : State} {reply : Reply} (call : Call) (now : Instant)
      (before : Leads dir start state)
      (performed : state.perform dir now call = some (reply, next)) : Leads dir start next

namespace State

/-- What any operations keep of what was there before. An open store is one in the directory.
    Until the first store is opened, there are more directories at most, and one is opened only
    if the directory has nothing in it but what is called like the index. -/
structure Spares (dir : String) (disk : Disk) (state : State) : Prop where
  isLocated : ∀ store, state.store = some store → store.dir = dir ∧ state.disk.IsLocated dir
  get?_eq : ∀ w content, ¬way dir <+: w → disk.get? w = some (.file content) →
    state.disk.get? w = some (.file content)
  cases_opened : state.store = none ∧ disk.Grown state.disk dir ∨ disk.HoldsAtMost dir indexFile

variable {state next : State} {now : Instant} {reply : Reply}

theorem spares_start (dir : String) (disk : Disk) : Spares dir disk ⟨none, disk⟩ where
  isLocated store hstore := by cases hstore
  get?_eq w content _ hfile := hfile
  cases_opened := Or.inl ⟨rfl, Grown.refl disk dir⟩

theorem Spares.openWith {policy : IfExists} (h : state.Spares dir disk)
    (hnone : disk.get? (way dir ++ [manifestFile]) = none)
    (hperform : state.perform dir now (.openWith policy) = some (reply, next)) :
    next.Spares dir disk := by
  unfold perform at hperform
  dsimp only at hperform
  rcases hopen : (openAt dir policy).run ⟨state.disk, now⟩ with ⟨error | store, after⟩
  · have hgrown : state.disk.Grown after.disk dir := grown_of_run_openAt hopen
    rw [hopen] at hperform
    cases hperform
    -- The store could not be opened, but its directory may have been made.
    refine ⟨fun store hstore => (by cases hstore), fun w content hw hfile => ?_, ?_⟩
    · exact hgrown.get?_eq_file (h.get?_eq w content hw hfile)
    · exact h.cases_opened.imp_left fun ⟨_, hbefore⟩ => ⟨rfl, hbefore.trans hgrown⟩
  · have hgrown : state.disk.Grown after.disk dir := grown_of_run_openAt hopen
    rw [hopen] at hperform
    cases hperform
    -- The store is open now, so its directory is there and every file in it is its own.
    rcases of_run_openAt hopen with ⟨m, _, _, rfl, hintact⟩
    refine ⟨fun store hstore => ?_, fun w content hw hfile => ?_, Or.inr ?_⟩
    · cases hstore
      exact ⟨rfl, hintact.isLocated⟩
    · exact hgrown.get?_eq_file (h.get?_eq w content hw hfile)
    · rcases h.cases_opened with ⟨_, hbefore⟩ | hholds
      · -- This is the first store that is opened, so the manifest is still missing.
        have hmissing : ∀ content, state.disk.get? (way dir ++ [manifestFile]) ≠
            some (.file content) := by
          refine fun content => hbefore.get?_ne_file ?_
          rw [hnone]
          exact (Option.some_ne_none _).symm
        exact (eq_of_run_openAt_of_none hmissing hopen).2.2.of_grown hbefore
      · exact hholds

/-- What is kept when an open store has left all alone outside of its directory. -/
theorem Spares.of_store {store : Store} (h : state.Spares dir disk)
    (hstore : state.store = some store)
    (hget : ∀ w, ¬way dir <+: w → next.disk.get? w = state.disk.get? w)
    (hlocated : ∀ last, next.store = some last → last.dir = dir ∧ next.disk.IsLocated dir) :
    next.Spares dir disk where
  isLocated := hlocated
  get?_eq w content hw hfile := by rw [hget w hw, h.get?_eq w content hw hfile]
  cases_opened := by
    refine Or.inr (h.cases_opened.resolve_left fun ⟨hnone, _⟩ => ?_)
    rw [hstore] at hnone
    contradiction

theorem Spares.of_commits {store last : Store} {stub : Stub} {other : Disk}
    {answer : Except StoreError Outcome} (h : state.Spares dir disk)
    (hstore : state.store = some store)
    (hcommits : Commits store stub state.disk now answer last other) :
    Spares dir disk ⟨some last, other⟩ := by
  rcases h.isLocated store hstore with ⟨rfl, hdir⟩
  refine h.of_store hstore (fun w hw => hcommits.get?_of_not_isPrefix hdir hw) fun store hlast => ?_
  cases hlast
  have hlocated := hcommits.isLocated hdir
  rw [hcommits.dir_eq.1] at hlocated
  exact ⟨hcommits.dir_eq.1, hlocated⟩

theorem Spares.commit {stub : Stub} (h : state.Spares dir disk)
    (hperform : state.perform dir now (.commit stub) = some (reply, next)) :
    next.Spares dir disk := by
  rcases Option.map_eq_some_iff.mp hperform with ⟨store, hstore, heq⟩
  rcases exists_run_commit store stub state.disk now with ⟨answer, last, other, hrun, hcommits⟩
  rw [hrun] at heq
  have hnext : next = ⟨some last, other⟩ := by
    cases answer <;> exact (congrArg Prod.snd heq).symm
  rw [hnext]
  exact h.of_commits hstore hcommits

theorem Spares.commitValue {s : Strategies} {className : String} {v : Value}
    (h : state.Spares dir disk)
    (hperform : state.perform dir now (.commitValue s className v) = some (reply, next)) :
    next.Spares dir disk := by
  rcases Option.map_eq_some_iff.mp hperform with ⟨store, hstore, heq⟩
  unfold Store.commitValue at heq
  -- A value without declarations has nothing to be stored, and the disk stays as it is.
  cases hstub : Stub.ofValue s className v with
  | error error =>
    rw [hstub] at heq
    have hnext : next = ⟨some store, state.disk⟩ := (congrArg Prod.snd heq).symm
    rw [hnext, ← hstore]
    exact h
  | ok stub =>
    rw [hstub] at heq
    dsimp only at heq
    rcases exists_run_commit store stub state.disk now with ⟨answer, last, other, hrun, hcommits⟩
    rw [hrun] at heq
    have hnext : next = ⟨some last, other⟩ := by
      cases answer <;> exact (congrArg Prod.snd heq).symm
    rw [hnext]
    exact h.of_commits hstore hcommits

theorem Spares.reset (h : state.Spares dir disk)
    (hperform : state.perform dir now .reset = some (reply, next)) : next.Spares dir disk := by
  rcases Option.map_eq_some_iff.mp hperform with ⟨store, hstore, heq⟩
  rcases h.isLocated store hstore with ⟨rfl, _⟩
  rcases hrun : store.reset.run ⟨state.disk, now⟩ with ⟨answer, after⟩
  rw [hrun] at heq
  have hnext : next = ⟨none, after.disk⟩ := by
    rcases answer with _ | _ <;> exact (congrArg Prod.snd heq).symm
  rw [hnext]
  exact h.of_store hstore (fun w hw => get?_of_run_reset hrun hw) fun last hlast => by cases hlast

/-- Whatever an operation answers, it leaves alone what was there before. -/
theorem Spares.perform {call : Call} (h : state.Spares dir disk)
    (hnone : disk.get? (way dir ++ [manifestFile]) = none)
    (hperform : state.perform dir now call = some (reply, next)) : next.Spares dir disk := by
  cases call with
  | openWith policy => exact h.openWith hnone hperform
  | commit stub => exact h.commit hperform
  | commitValue s className v => exact h.commitValue hperform
  | reset => exact h.reset hperform

/-- A file that was there before is still the same, unless it is at the index or below it. -/
theorem Spares.get?_of_isFileAt (h : state.Spares dir disk) {w : List String} {content : Content}
    (hfile : disk.IsFileAt w content) :
    state.disk.get? w = some (.file content) ∨ way dir ++ [indexFile] <+: w := by
  rcases h.cases_opened with ⟨_, hgrown⟩ | hholds
  · exact Or.inl (hgrown.get?_eq_file hfile.get?_eq)
  · exact (hholds.cases_of_isFileAt hfile).imp_left fun hw => h.get?_eq w content hw hfile.get?_eq

end State

/-- All operations leave alone what was there before them. -/
theorem Leads.spares {disk : Disk} {state : State}
    (hnone : disk.get? (way dir ++ [manifestFile]) = none) (h : Leads dir ⟨none, disk⟩ state) :
    state.Spares dir disk := by
  induction h with
  | refl => exact State.spares_start dir disk
  | step call now _ performed ih => exact ih.perform hnone performed

/-- A directory without a manifest is opened only if there is nothing in it, or nothing but what
    is called like the index, and one that is there is opened then. Whatever is done with the
    stores that are opened, and whatever fails, no file is deleted or overwritten that was there
    before, unless it is at the index or below it. -/
theorem spares_files {disk : Disk} (hnone : disk.get? (way dir ++ [manifestFile]) = none) :
    (∀ policy now store after, (openAt dir policy).run ⟨disk, now⟩ = (.ok store, after) →
      store = ⟨dir, policy, {}⟩ ∧
        ∀ name, (disk.get? (way dir ++ [name])).isSome = true → name = indexFile) ∧
    (disk.IsLocated dir →
      (∀ name, (disk.get? (way dir ++ [name])).isSome = true → name = indexFile) →
      ∀ policy now, (openAt dir policy).run ⟨disk, now⟩ = (.ok ⟨dir, policy, {}⟩, ⟨disk, now⟩)) ∧
    ∀ state, Leads dir ⟨none, disk⟩ state → ∀ w content, disk.IsFileAt w content →
      state.disk.get? w = some (.file content) ∨ way dir ++ [indexFile] <+: w := by
  have hmissing : ∀ content, disk.get? (way dir ++ [manifestFile]) ≠ some (.file content) := by
    intro content
    rw [hnone]
    exact (Option.some_ne_none _).symm
  refine ⟨fun policy now store after hopen => ?_, fun hdir honly policy now => ?_,
    fun state hleads w content hfile => ?_⟩
  · rcases eq_of_run_openAt_of_none hmissing hopen with ⟨hstore, _, hholds⟩
    exact ⟨hstore, hholds.eq_of_isSome⟩
  · refine run_openAt_of_holdsAtMost hdir hnone ⟨fun content hfile => ?_, honly⟩ policy now
    rw [hdir.get?_of_isPrefix (List.prefix_refl _)] at hfile
    cases hfile
  · exact (hleads.spares hnone).get?_of_isFileAt hfile

/-- A file next to the directory, which a path through another directory leads to. It is still
    there when a store has been opened, has got a class and has been reset. -/
theorem spares_files_stubs :
    let disk : Disk := ⟨[(["notes.txt"], .file (.text "notes")), (["old"], .directory),
      (["old", "A.pyi"], .file (.text "A = str\n"))]⟩
    disk.get? (way "stubs" ++ [manifestFile]) = none ∧
      disk.IsFileAt ["notes.txt"] (.text "notes") ∧
      ∃ state, Leads "stubs" ⟨none, disk⟩ state ∧ state.store = none ∧
        (state.disk.get? ["notes.txt"] = some (.file (.text "notes")) ∨
          way "stubs" ++ [indexFile] <+: ["notes.txt"]) := by
  intro disk
  have hnone : disk.get? (way "stubs" ++ [manifestFile]) = none := by decide
  have hfile : disk.IsFileAt ["notes.txt"] (.text "notes") := ⟨"old/../notes.txt", by decide⟩
  have hopened : Leads "stubs" ⟨none, disk⟩
      ⟨some ⟨"stubs", .validate, {}⟩, ⟨disk.nodes ++ [(["stubs"], .directory)]⟩⟩ :=
    .step (.openWith .validate) ⟨0, 0, 0⟩ .refl
      (show _ = some (.opened, _) by decide +kernel)
  let m : Manifest := ⟨[("A", ⟨"A.pyi", 7, ⟨0, 0, 0⟩, ⟨0, 0, 0⟩⟩)]⟩
  have hcreated : Leads "stubs" ⟨none, disk⟩
      ⟨some ⟨"stubs", .validate, m⟩, ⟨disk.nodes ++ [(["stubs"], .directory),
        (["stubs", "A.pyi"], .file (.text "A = int\n")),
        (["stubs", "classes.json"], .file (.text m.json)),
        (["stubs", "__init__.pyi"], .file (.text (m.index header)))]⟩⟩ :=
    .step (.commit ⟨"A", "A = int\n", 7⟩) ⟨0, 0, 0⟩ hopened
      (show _ = some (.committed "A" .created, _) by decide +kernel)
  -- Taking the store away takes its directory, and the disk is the first one again.
  have hremoved : Leads "stubs" ⟨none, disk⟩ ⟨none, disk⟩ :=
    .step .reset ⟨0, 0, 0⟩ hcreated (show _ = some (.removed, _) by decide +kernel)
  exact ⟨hnone, hfile, _, hremoved, rfl, (spares_files hnone).2.2 _ hremoved _ _ hfile⟩

/-- A directory with nothing but a file of someone else that is called like the index is opened.
    The first commit overwrites this file, and a reset deletes it. -/
theorem openAt_overwrites_index :
    let disk : Disk := ⟨[(["stubs"], .directory),
      (["stubs", "__init__.pyi"], .file (.text "x = 1\n"))]⟩
    disk.get? (way "stubs" ++ [manifestFile]) = none ∧
      disk.readText "stubs/__init__.pyi" = .ok "x = 1\n" ∧
      ∃ store, (openAt "stubs" .validate).run ⟨disk, ⟨0, 0, 0⟩⟩ = (.ok store, ⟨disk, ⟨0, 0, 0⟩⟩) ∧
        (∃ last after, (store.commit ⟨"A", "A = int\n", 7⟩).run ⟨disk, ⟨0, 0, 0⟩⟩ =
            ((.ok .created, last), after) ∧
          after.disk.readText "stubs/__init__.pyi" = .ok last.index ∧ last.index ≠ "x = 1\n") ∧
        ∃ after, store.reset.run ⟨disk, ⟨0, 0, 0⟩⟩ = (.ok (), after) ∧
          after.disk.readText "stubs/__init__.pyi" = .error .notFound := by
  intro disk
  let m : Manifest := ⟨[("A", ⟨"A.pyi", 7, ⟨0, 0, 0⟩, ⟨0, 0, 0⟩⟩)]⟩
  have hcommit : ((commit ⟨"stubs", .validate, {}⟩ ⟨"A", "A = int\n", 7⟩).run
      ⟨disk, ⟨0, 0, 0⟩⟩).1 = (.ok .created, ⟨"stubs", .validate, m⟩) := by
    decide +kernel
  refine ⟨by decide, by decide, ⟨"stubs", .validate, {}⟩, by decide +kernel,
    ⟨⟨"stubs", .validate, m⟩, _, Prod.ext hcommit rfl, by decide +kernel, by decide +kernel⟩,
    ⟨_, Prod.ext (by decide) rfl, by decide⟩⟩

end Store

end TypeSketch
