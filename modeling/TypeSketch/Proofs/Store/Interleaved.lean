import Mathlib.Logic.Function.Basic
import TypeSketch.Proofs.Store.Faithful

/-!
# Stores That Share a Directory

Several stores that have been opened in one directory, and commits to them in any order. Each
store keeps the manifest that it has read when it was opened, and writes it with the classes
that it has created itself. So the manifest in the directory is that of the store that was
the last to create a class, while the modules of all of them are there.

If one store alone creates classes, the directory opens again with all of them. The modules
that another store has created are not in the manifest of the last one, and the directory is
refused because of them. Only the module of `__init__` goes unnoticed, as it is called like the
index.

## Main definitions

* `Disk.IsSettled`: A directory that opens with a manifest.
* `Store.Interleaved`: The stores and the directory after any commits.
* `Store.Shares`: What the commits keep.

## Theorems

* `Store.Shares.of_isWritten`, `Store.Shares.of_commits`: What one commit keeps.
* `Store.Interleaved.shares`: What all commits keep.
* `Store.Shares.isForeign_iff`: What a store finds in the directory that it does not own.
* `Store.Interleaved.run_openAt`: What opening the directory gives after the commits.
-/

namespace TypeSketch

open TypeSketch.Path

/-- A directory that opens with a sound manifest. -/
structure Disk.IsSettled (disk : Disk) (dir : String) (m : Manifest) : Prop where
  isSound : m.IsSound
  opens : ∀ policy now,
    (Store.openAt dir policy).run ⟨disk, now⟩ = (.ok ⟨dir, policy, m⟩, ⟨disk, now⟩)

theorem Disk.Stores.isSettled {disk : Disk} {dir : String} {m : Manifest}
    (h : disk.Stores dir m) (hdir : disk.IsLocated dir) (hsound : m.IsSound)
    (hread : m.classes ≠ [] → m.IsReadable) : disk.IsSettled dir m where
  isSound := hsound
  opens policy now := Store.run_openAt_of_stores h hdir hsound hread policy now

namespace Store

open Disk

variable {ι : Type} [DecidableEq ι]

/-- What a commit adds to the classes that have been created. -/
def creation (i : ι) (className : String) : Except StoreError Outcome → List (ι × String)
  | .ok .created => [(i, className)]
  | _ => []

/-- Stores that have been opened in a directory with some manifest, and then committed to in any
    order: the classes that have been created, each with its store, the stores and the disk. The
    classes are new and different, no file operation fails, and every manifest that is written
    can be read again. -/
inductive Interleaved (dir : String) (m : Manifest) (disk : Disk) :
    List (ι × String) → (ι → Store) → Disk → Prop
  | opened {stores : ι → Store}
      (hopen : ∀ i, ∃ policy now,
        (openAt dir policy).run ⟨disk, now⟩ = (.ok (stores i), ⟨disk, now⟩)) :
      Interleaved dir m disk [] stores disk
  | committed {created : List (ι × String)} {stores : ι → Store} {i : ι} {stub : Stub}
      {answer : Except StoreError Outcome} {last : Store} {world after : World}
      (before : Interleaved dir m disk created stores world.disk)
      (hnew : stub.className ∉ m.classes.map (·.1))
      (hother : stub.className ∉ created.map (·.2))
      (hrun : ((stores i).commit stub).run world = ((answer, last), after))
      (hregular : ¬IsFault answer)
      (hreadable : answer = .ok .created → last.manifest.IsReadable) :
      Interleaved dir m disk (created ++ creation i stub.className answer)
        (Function.update stores i last) after.disk

/-- The classes that a store has: those it was opened with, and those it has created. -/
def classesOf (m : Manifest) (created : List (ι × String)) (i : ι) : List String :=
  m.classes.map (·.1) ++ (created.filter (·.1 = i)).map (·.2)

/-- The classes of all stores. -/
def allClasses (m : Manifest) (created : List (ι × String)) : List String :=
  m.classes.map (·.1) ++ created.map (·.2)

/-- What the commits keep. Each store has its own classes, the directory has the modules of all
    of them, and the manifest is that of the store that was the last to create a class. -/
structure Shares (dir : String) (m : Manifest) (created : List (ι × String)) (stores : ι → Store)
    (disk : Disk) : Prop where
  dir_eq : ∀ i, (stores i).dir = dir
  isSound : ∀ i, (stores i).manifest.IsSound
  names_eq : ∀ i, (stores i).manifest.classes.map (·.1) = classesOf m created i
  isIdentifier : ∀ name ∈ allClasses m created, Naming.isIdentifier name = true
  isLocated : disk.IsLocated dir
  of_isSome : ∀ file, (disk.get? (way dir ++ [file])).isSome = true →
    file = manifestFile ∨ file = indexFile ∨ ∃ name ∈ allClasses m created, file = moduleFile name
  isFile : ∀ name ∈ allClasses m created,
    disk.inspect (join dir (moduleFile name)) = some .file
  isSettled : created = [] → disk.IsSettled dir m
  readText_last : ∀ c, created.getLast? = some c →
    disk.readText (join dir manifestFile) = .ok (stores c.1).manifest.json ∧
      (stores c.1).manifest.IsReadable
  nodup : (created.map (·.2)).Nodup
  not_mem : ∀ c ∈ created, c.2 ∉ m.classes.map (·.1)

section Steps

variable {dir : String} {m : Manifest} {created : List (ι × String)} {stores : ι → Store}
  {disk other : Disk} {i : ι} {stub : Stub} {now : Instant}

theorem mem_classesOf {name : String} : name ∈ classesOf m created i ↔
    name ∈ m.classes.map (·.1) ∨ (i, name) ∈ created := by
  rw [classesOf, List.mem_append, List.mem_map]
  simp

theorem classesOf_concat (m : Manifest) (created : List (ι × String)) (i k : ι) (name : String) :
    classesOf m (created ++ [(i, name)]) k =
      if k = i then classesOf m created k ++ [name] else classesOf m created k := by
  rw [classesOf, classesOf, List.filter_append, List.map_append]
  by_cases hk : k = i
  · subst hk
    simp
  · simp [hk, Ne.symm hk]

omit [DecidableEq ι] in
theorem mem_allClasses_concat {name other : String} :
    other ∈ allClasses m (created ++ [(i, name)]) ↔
      other = name ∨ other ∈ allClasses m created := by
  rw [allClasses, allClasses, List.map_append, ← List.append_assoc, List.mem_append, or_comm]
  simp

/-- Stores that have been opened in a settled directory have its manifest. -/
theorem Shares.opened (hsettled : disk.IsSettled dir m)
    (hopen : ∀ i, ∃ policy now,
      (openAt dir policy).run ⟨disk, now⟩ = (.ok (stores i), ⟨disk, now⟩)) :
    Shares dir m [] stores disk := by
  have hstores : ∀ i, (stores i).dir = dir ∧ (stores i).manifest = m := by
    intro i
    rcases hopen i with ⟨policy, now, hrun⟩
    rw [hsettled.opens policy now, Prod.mk.injEq, Except.ok.injEq] at hrun
    rw [← hrun.1]
    exact ⟨rfl, rfl⟩
  -- One store that opens tells what is in the directory, and they all open on the same disk.
  rcases of_run_openAt (hsettled.opens .validate ⟨0, 0, 0⟩) with ⟨_, _, _, _, hintact⟩
  have hnames : allClasses m ([] : List (ι × String)) = m.classes.map (·.1) := List.append_nil _
  -- No class has been created yet, so all classes are those of the manifest on the disk.
  constructor
  · exact fun i => (hstores i).1
  · exact fun i => (hstores i).2 ▸ hsettled.isSound
  · intro i
    rw [(hstores i).2, classesOf, List.filter_nil, List.map_nil, List.append_nil]
  · intro name hname
    rw [hnames] at hname
    rcases List.mem_map.mp hname with ⟨c, hc, rfl⟩
    exact hsettled.isSound.isIdentifier c hc
  · exact hintact.isLocated
  · intro file hfile
    rcases (owns_iff hsettled.isSound).mp (hintact.owns file hfile) with h | h | ⟨c, hc, h⟩
    · exact Or.inl h
    · exact Or.inr (Or.inl h)
    · exact Or.inr (Or.inr ⟨c.1, hnames ▸ List.mem_map_of_mem hc, h⟩)
  · intro name hname
    rw [hnames] at hname
    rcases List.mem_map.mp hname with ⟨c, hc, rfl⟩
    rw [← hsettled.isSound.file_eq c hc]
    exact hintact.isFile c hc
  · exact fun _ => hsettled
  · exact fun c hc => nomatch hc
  · exact List.nodup_nil
  · exact fun c hc => absurd hc List.not_mem_nil

section Created

/-! A store has created a class. What is kept of the stores depends on what the store has
remembered, and what is kept of the directory on the files that it has written. -/

variable {name text : String} {e : ManifestEntry}

/-- The store that has created the class is the only one that is another than before. -/
theorem update_cases (stores : ι → Store) (i : ι) (store : Store) (k : ι) :
    (k = i ∧ Function.update stores i store k = store) ∨
      k ≠ i ∧ Function.update stores i store k = stores k := by
  by_cases hk : k = i
  · exact Or.inl ⟨hk, by rw [hk, Function.update_self]⟩
  · exact Or.inr ⟨hk, Function.update_of_ne hk _ _⟩

section Stores

variable (h : Shares dir m created stores disk) (i : ι) (name : String) (e : ManifestEntry)

include h

theorem Shares.dir_eq_remember (k : ι) :
    (Function.update stores i ((stores i).remember name e) k).dir = dir := by
  rcases update_cases stores i ((stores i).remember name e) k with ⟨_, heq⟩ | ⟨_, heq⟩ <;> rw [heq]
  · exact h.dir_eq i
  · exact h.dir_eq k

variable {name e}

theorem Shares.isSound_remember (hclass : Naming.isIdentifier name = true)
    (hfile : e.file = moduleFile name) (k : ι) :
    (Function.update stores i ((stores i).remember name e) k).manifest.IsSound := by
  rcases update_cases stores i ((stores i).remember name e) k with ⟨_, heq⟩ | ⟨_, heq⟩ <;> rw [heq]
  · exact (h.isSound i).set hclass hfile
  · exact h.isSound k

variable {i}

theorem Shares.names_eq_remember (hentry : (stores i).manifest.entry? name = none) (k : ι) :
    (Function.update stores i ((stores i).remember name e) k).manifest.classes.map (·.1) =
      classesOf m (created ++ [(i, name)]) k := by
  rw [classesOf_concat]
  rcases update_cases stores i ((stores i).remember name e) k with ⟨rfl, heq⟩ | ⟨hk, heq⟩ <;> rw [heq]
  · rw [if_pos rfl, ← h.names_eq]
    exact Manifest.names_set_of_entry?_eq_none hentry e
  · rw [if_neg hk, h.names_eq]

end Stores

theorem Shares.isIdentifier_concat (h : Shares dir m created stores disk)
    (hclass : Naming.isIdentifier name = true) :
    ∀ n ∈ allClasses m (created ++ [(i, name)]), Naming.isIdentifier n = true := by
  intro n hn
  rcases mem_allClasses_concat.mp hn with rfl | hn
  · exact hclass
  · exact h.isIdentifier n hn

section Files

variable {manifest : Manifest} (h : Shares dir m created stores disk)
  (hclass : Naming.isIdentifier name = true)
  (hwritten : disk.IsWritten dir manifest (moduleFile name) text other)

include h hclass hwritten

theorem Shares.of_isSome_written {file : String} (hsome : (other.get? (way dir ++ [file])).isSome = true) :
    file = manifestFile ∨ file = indexFile ∨
      ∃ n ∈ allClasses m (created ++ [(i, name)]), file = moduleFile n := by
  -- A file is there now if it was there before or is one of the three that have been written.
  rw [hwritten.isSome_get?_iff h.isLocated (isFileName_moduleFile hclass)] at hsome
  simp only [List.cons.injEq, and_true] at hsome
  rcases hsome with hmanifest | hindex | hmodule | hold
  · exact Or.inl hmanifest
  · exact Or.inr (Or.inl hindex)
  · exact Or.inr (Or.inr ⟨name, mem_allClasses_concat.mpr (Or.inl rfl), hmodule⟩)
  · refine (h.of_isSome file hold).imp_right (Or.imp_right ?_)
    rintro ⟨n, hn, heq⟩
    exact ⟨n, mem_allClasses_concat.mpr (Or.inr hn), heq⟩

theorem Shares.isFile_written :
    ∀ n ∈ allClasses m (created ++ [(i, name)]),
      other.inspect (join dir (moduleFile n)) = some .file := by
  have hfileName := isFileName_moduleFile hclass
  intro n hn
  rcases mem_allClasses_concat.mp hn with rfl | hn
  · exact hwritten.inspect_join h.isLocated hfileName hfileName (Or.inl rfl)
  · exact hwritten.inspect_join h.isLocated hfileName
      (isFileName_moduleFile (h.isIdentifier n hn)) (Or.inr (h.isFile n hn))

theorem Shares.readText_written : other.readText (join dir manifestFile) = .ok manifest.json := by
  have htext := hwritten.readText_join h.isLocated (isFileName_moduleFile hclass) isFileName_manifestFile
  rwa [if_neg (by decide), if_pos rfl] at htext

end Files

theorem Shares.nodup_concat (h : Shares dir m created stores disk)
    (hother : name ∉ created.map (·.2)) : ((created ++ [(i, name)]).map (·.2)).Nodup := by
  rw [List.map_append, List.map_singleton]
  refine List.nodup_append.mpr ⟨h.nodup, List.nodup_singleton _, fun a ha b hb heq => ?_⟩
  rw [heq, List.mem_singleton.mp hb] at ha
  exact hother ha

theorem Shares.not_mem_concat (h : Shares dir m created stores disk)
    (hnew : name ∉ m.classes.map (·.1)) :
    ∀ c ∈ created ++ [(i, name)], c.2 ∉ m.classes.map (·.1) := by
  intro c hc
  rcases List.mem_append.mp hc with hc | hc
  · exact h.not_mem c hc
  · rw [List.mem_singleton.mp hc]
    exact hnew

/-- What is kept when a store has created a class. -/
theorem Shares.of_isWritten (h : Shares dir m created stores disk)
    (hnew : name ∉ m.classes.map (·.1)) (hother : name ∉ created.map (·.2))
    (hclass : Naming.isIdentifier name = true) (hfile : e.file = moduleFile name)
    (hentry : (stores i).manifest.entry? name = none)
    (hwritten : disk.IsWritten dir ((stores i).manifest.set name e) (moduleFile name) text other)
    (hreadable : ((stores i).manifest.set name e).IsReadable) :
    Shares dir m (created ++ [(i, name)])
      (Function.update stores i ((stores i).remember name e)) other where
  dir_eq := h.dir_eq_remember i name e
  isSound := h.isSound_remember i hclass hfile
  names_eq := h.names_eq_remember hentry
  isIdentifier := h.isIdentifier_concat hclass
  isLocated := hwritten.isLocated h.isLocated (isFileName_moduleFile hclass)
  of_isSome _ := h.of_isSome_written hclass hwritten
  isFile := h.isFile_written hclass hwritten
  isSettled hnil := absurd hnil (List.append_ne_nil_of_right_ne_nil _ (List.cons_ne_nil _ _))
  readText_last := by
    intro c hc
    -- The last class is the one that has just been created, so the manifest is that of its store.
    rw [List.getLast?_concat, Option.some.injEq] at hc
    subst hc
    rw [Function.update_self]
    exact ⟨h.readText_written hclass hwritten, hreadable⟩
  nodup := h.nodup_concat hother
  not_mem := h.not_mem_concat hnew

end Created

/-- What is kept by a commit of a new class, whatever it does. -/
theorem Shares.of_commits {answer : Except StoreError Outcome} {last : Store}
    (h : Shares dir m created stores disk) (hnew : stub.className ∉ m.classes.map (·.1))
    (hother : stub.className ∉ created.map (·.2))
    (hcommits : Commits (stores i) stub disk now answer last other) (hregular : ¬IsFault answer)
    (hreadable : answer = .ok .created → last.manifest.IsReadable) :
    Shares dir m (created ++ creation i stub.className answer) (Function.update stores i last)
      other := by
  -- The store does not have the class, as it has neither been opened with it nor created it.
  have habsent : ∀ e, (stores i).manifest.entry? stub.className ≠ some e := by
    intro e hentry
    have hmem : stub.className ∈ (stores i).manifest.classes.map (·.1) :=
      List.mem_map_of_mem (Manifest.mem_of_entry?_eq_some hentry)
    rw [h.names_eq, mem_classesOf] at hmem
    rcases hmem with hmem | hmem
    · exact hnew hmem
    · exact hother (List.mem_map_of_mem hmem)
  -- What is left is a class that is new to the store, or a commit that changes nothing.
  cases hcommits with
  | refused =>
    rw [creation, List.append_nil, Function.update_eq_self]
    · exact h
    · exact fun heq => nomatch heq
  | unchanged hold => exact absurd hold (habsent _)
  | written hupdates hwrite hsaves =>
    cases hsaves with
    | unsaved error => exact absurd ⟨_, error, rfl⟩ hregular
    | unindexed error => exact absurd ⟨_, error, rfl⟩ hregular
    | saved hmanifest hindex =>
      cases hupdates with
      | overwritten _ hold => exact absurd hold (habsent _)
      | created hclass hentry =>
        rw [creation]
        have hwritten : disk.IsWritten (stores i).dir ((stores i).manifest.set stub.className
            ⟨moduleFile stub.className, stub.digest, now, now⟩) (moduleFile stub.className)
            stub.source other := ⟨_, _, hwrite, hmanifest, hindex⟩
        rw [h.dir_eq] at hwritten
        exact h.of_isWritten hnew hother hclass rfl hentry hwritten (hreadable rfl)

end Steps

section Runs

variable {dir : String} {m : Manifest} {created : List (ι × String)} {stores : ι → Store}
  {disk last : Disk}

/-- What all commits keep. -/
theorem Interleaved.shares (hsettled : disk.IsSettled dir m)
    (h : Interleaved dir m disk created stores last) : Shares dir m created stores last := by
  induction h with
  | opened hopen => exact Shares.opened hsettled hopen
  | committed _ hnew hother hrun hregular hreadable ih =>
    exact ih.of_commits hnew hother (commits_of_run hrun) hregular hreadable

/-- What a store does not own are the modules of the classes that the others have created. -/
theorem Shares.isForeign_iff (h : Shares dir m created stores last) (i : ι) (policy : IfExists)
    {file : String} :
    ((last.get? (way dir ++ [file])).isSome = true ∧
      owns ⟨dir, policy, (stores i).manifest⟩ file = false) ↔
    ∃ c ∈ created, c.1 ≠ i ∧ c.2 ≠ "__init__" ∧ file = moduleFile c.2 := by
  have howns := @owns_iff ⟨dir, policy, (stores i).manifest⟩ (h.isSound i) file
  have hclasses : (∃ k ∈ (stores i).manifest.classes, file = moduleFile k.1) ↔
      ∃ name ∈ classesOf m created i, file = moduleFile name := by
    rw [← h.names_eq]
    simp
  rw [← Bool.not_eq_true, howns, hclasses]
  constructor
  · rintro ⟨hfile, hforeign⟩
    -- Every file there is accounted for, and what the store itself has is not foreign to it.
    rcases h.of_isSome file hfile with hmanifest | hindex | ⟨name, hname, hmodule⟩
    · exact absurd (Or.inl hmanifest) hforeign
    · exact absurd (Or.inr (Or.inl hindex)) hforeign
    · rcases List.mem_append.mp hname with hold | hcreated
      · exact absurd (Or.inr (Or.inr ⟨name, mem_classesOf.mpr (Or.inl hold), hmodule⟩)) hforeign
      · rcases List.mem_map.mp hcreated with ⟨c, hc, rfl⟩
        refine ⟨c, hc, fun heq => ?_, fun hinit => ?_, hmodule⟩
        · have hown : c.2 ∈ classesOf m created i := mem_classesOf.mpr (Or.inr (heq ▸ hc))
          exact hforeign (Or.inr (Or.inr ⟨c.2, hown, hmodule⟩))
        · exact hforeign (Or.inr (Or.inl (hmodule.trans (moduleFile_eq_indexFile_iff.mpr hinit))))
  · rintro ⟨c, hc, hne, hinit, rfl⟩
    -- The module of such a class has been written, and it is still there.
    have hmem : c.2 ∈ allClasses m created :=
      List.mem_append_right _ (List.mem_map_of_mem hc)
    have hfileName := isFileName_moduleFile (h.isIdentifier _ hmem)
    rcases (h.isLocated.inspect_join_iff hfileName).mp (h.isFile _ hmem) with ⟨_, content, hget⟩
    refine ⟨Option.isSome_of_eq_some hget, ?_⟩
    rintro (hmanifest | hindex | ⟨name, hname, heq⟩)
    · exact moduleFile_ne_manifestFile _ hmanifest
    · exact hinit (moduleFile_eq_indexFile_iff.mp hindex)
    · -- The class is neither an old one nor one that another store has created as well.
      obtain rfl := moduleFile_inj.mp heq
      rcases mem_classesOf.mp hname with hold | hcreated
      · exact h.not_mem c hc hold
      · have hsame := List.inj_on_of_nodup_map h.nodup hcreated hc rfl
        exact hne (congrArg Prod.fst hsame).symm

/-- After a class has been created, opening the directory is checking it with the manifest of the
    store that was the last to create one. -/
theorem Shares.run_openAt_eq (h : Shares dir m created stores last) {c : ι × String}
    (hlast : created.getLast? = some c) (policy : IfExists) (now : Instant) :
    (openAt dir policy).run ⟨last, now⟩ =
      (checkOwnership ⟨dir, policy, (stores c.1).manifest⟩).run ⟨last, now⟩ := by
  rcases h.readText_last c hlast with ⟨hmanifest, hreadable⟩
  unfold openAt
  rw [Script.run_bind, Script.run_createDirectories_of_isLocated h.isLocated]
  dsimp only
  rw [Script.run_bind, run_readManifest_of_text h.isLocated hmanifest hreadable]

/-- If nothing is foreign, the directory opens with the classes of the store that was the last to
    create one. -/
theorem Shares.run_openAt_last (h : Shares dir m created stores last) {c : ι × String}
    (hlast : created.getLast? = some c)
    (halone : ∀ c' ∈ created, c'.1 ≠ c.1 → c'.2 = "__init__") (policy : IfExists)
    (now : Instant) :
    (openAt dir policy).run ⟨last, now⟩ =
      (.ok ⟨dir, policy, (stores c.1).manifest⟩, ⟨last, now⟩) := by
  rw [h.run_openAt_eq hlast]
  refine run_checkOwnership_eq_ok_iff.mpr ⟨rfl, rfl, h.isLocated, fun name hname => ?_,
    fun k hk => ?_⟩
  -- A foreign file would be the module of a class that another store has created.
  · by_contra hforeign
    rw [Bool.not_eq_true] at hforeign
    rcases (h.isForeign_iff c.1 policy).mp ⟨hname, hforeign⟩ with ⟨c', hc', hne, hinit, _⟩
    exact hinit (halone c' hc' hne)
  · have hmem : k.1 ∈ classesOf m created c.1 := by
      rw [← h.names_eq]
      exact List.mem_map_of_mem hk
    have hall : k.1 ∈ allClasses m created := by
      rcases mem_classesOf.mp hmem with hold | hcreated
      · exact List.mem_append_left _ hold
      · exact List.mem_append_right _ (List.mem_map_of_mem hcreated)
    rw [(h.isSound c.1).file_eq k hk]
    exact h.isFile k.1 hall

/-- If something is foreign, the directory is refused. -/
theorem Shares.exists_run_openAt_of_foreign (h : Shares dir m created stores last)
    {c : ι × String} (hlast : created.getLast? = some c)
    (hforeign : ∃ c' ∈ created, c'.1 ≠ c.1 ∧ c'.2 ≠ "__init__") (policy : IfExists)
    (now : Instant) :
    ∃ files, (openAt dir policy).run ⟨last, now⟩ =
        (.error (.foreignFiles dir files), ⟨last, now⟩) ∧
      ∀ file, file ∈ files ↔
        ∃ c' ∈ created, c'.1 ≠ c.1 ∧ c'.2 ≠ "__init__" ∧ file = moduleFile c'.2 := by
  rcases hforeign with ⟨c', hc', hother, hinit⟩
  rcases (h.isForeign_iff c.1 policy).mpr ⟨c', hc', hother, hinit, rfl⟩ with ⟨hthere, howned⟩
  rcases @exists_run_checkOwnership_of_foreign last ⟨dir, policy, (stores c.1).manifest⟩
    h.isLocated _ hthere howned now with ⟨files, hrun, hfiles⟩
  exact ⟨files, (h.run_openAt_eq hlast policy now).trans hrun,
    fun file => (hfiles file).trans (h.isForeign_iff c.1 policy)⟩

/-- What opening the directory gives after any commits of new and different classes. If one store
    has created all of them, it gives all of them. If not, it gives the classes of the store that
    was the last to create one, provided that the others have created none but `__init__`, and
    else it fails because of the modules that the others have created. -/
theorem Interleaved.run_openAt (hsettled : disk.IsSettled dir m)
    (h : Interleaved dir m disk created stores last) (policy : IfExists) (now : Instant) :
    ((∀ c ∈ created, ∀ c' ∈ created, c.1 = c'.1) → ∃ store,
      (openAt dir policy).run ⟨last, now⟩ = (.ok store, ⟨last, now⟩) ∧
        store.manifest.classes.map (·.1) = m.classes.map (·.1) ++ created.map (·.2)) ∧
    ∀ c, created.getLast? = some c →
      ((∀ c' ∈ created, c'.1 ≠ c.1 → c'.2 = "__init__") → ∃ store,
        (openAt dir policy).run ⟨last, now⟩ = (.ok store, ⟨last, now⟩) ∧
          store.manifest.classes.map (·.1) =
            m.classes.map (·.1) ++ (created.filter (·.1 = c.1)).map (·.2)) ∧
      ((∃ c' ∈ created, c'.1 ≠ c.1 ∧ c'.2 ≠ "__init__") → ∃ files,
        (openAt dir policy).run ⟨last, now⟩ = (.error (.foreignFiles dir files), ⟨last, now⟩) ∧
          ∀ file, file ∈ files ↔
            ∃ c' ∈ created, c'.1 ≠ c.1 ∧ c'.2 ≠ "__init__" ∧ file = moduleFile c'.2) := by
  have hshares := h.shares hsettled
  constructor
  · intro hone
    -- If all classes are from one store, it is the one that has written last.
    cases hlast : created.getLast? with
    | none =>
      have hnil : created = [] := List.getLast?_eq_none_iff.mp hlast
      refine ⟨_, (hshares.isSettled hnil).opens policy now, ?_⟩
      rw [hnil, List.map_nil, List.append_nil]
    | some c =>
      have hc := List.mem_of_getLast? hlast
      have halone : ∀ c' ∈ created, c'.1 ≠ c.1 → c'.2 = "__init__" :=
        fun c' hc' hne => absurd (hone c' hc' c hc) hne
      have hall : created.filter (·.1 = c.1) = created :=
        List.filter_eq_self.mpr fun c' hc' => decide_eq_true (hone c' hc' c hc)
      refine ⟨_, hshares.run_openAt_last hlast halone policy now, ?_⟩
      rw [hshares.names_eq, classesOf, hall]
  · intro c hlast
    exact ⟨fun halone => ⟨_, hshares.run_openAt_last hlast halone policy now, hshares.names_eq c.1⟩,
      fun hforeign => hshares.exists_run_openAt_of_foreign hlast hforeign policy now⟩

/-- An empty directory is settled. -/
theorem isSettled_stubs : Disk.IsSettled ⟨[(["stubs"], .directory)]⟩ "stubs" {} := by
  have hway : way "stubs" = ["stubs"] := by decide
  have hvacant : IsVacant ⟨[(["stubs"], .directory)]⟩ "stubs" := by
    intro rest hrest
    rw [hway, get?_of_ne_nil (List.append_ne_nil_of_right_ne_nil _ hrest), lookup_cons_ite,
      if_neg (by simpa using hrest)]
    rfl
  exact hvacant.stores.isSettled rfl Manifest.isSound_empty fun hne => absurd rfl hne

/-- Two stores are opened in an empty directory, and one of them creates a class. -/
theorem interleaved_stubs (a : Manifest)
    (ha : a = ⟨[("A", ⟨"A.pyi", 7, ⟨0, 0, 0⟩, ⟨0, 0, 0⟩⟩)]⟩) :
    Interleaved "stubs" {} ⟨[(["stubs"], .directory)]⟩ [(true, "A")]
      (Function.update (fun _ => ⟨"stubs", .validate, {}⟩) true ⟨"stubs", .validate, a⟩)
      ⟨[(["stubs"], .directory), (["stubs", "A.pyi"], .file (.text "A = int\n")),
        (["stubs", "classes.json"], .file (.text a.json)),
        (["stubs", "__init__.pyi"], .file (.text (a.index header)))]⟩ := by
  subst ha
  have hopened : Interleaved "stubs" {} ⟨[(["stubs"], .directory)]⟩ []
      (fun _ : Bool => ⟨"stubs", .validate, {}⟩) ⟨[(["stubs"], .directory)]⟩ :=
    .opened fun _ => ⟨.validate, ⟨0, 0, 0⟩, by decide +kernel⟩
  exact @Interleaved.committed Bool _ _ _ _ _ _ true ⟨"A", "A = int\n", 7⟩ (.ok .created) _
    ⟨_, ⟨0, 0, 0⟩⟩ ⟨_, ⟨0, 0, 0⟩⟩ hopened (by simp) (by simp) (by decide +kernel)
    (by rintro ⟨_, _, h⟩; cases h) (fun _ => by unfold Manifest.IsReadable; decide +kernel)

/-- If the other store creates no class, the directory opens with the one of the first. -/
theorem Interleaved.run_openAt_one :
    ∃ disk stores last, disk.IsSettled "stubs" {} ∧
      Interleaved "stubs" {} disk [(true, "A")] stores last ∧ ∀ policy now, ∃ store,
        (openAt "stubs" policy).run ⟨last, now⟩ = (.ok store, ⟨last, now⟩) ∧
          store.manifest.classes.map (·.1) = ["A"] := by
  have hfirst := interleaved_stubs _ rfl
  exact ⟨_, _, _, isSettled_stubs, hfirst, fun policy now =>
    (hfirst.run_openAt isSettled_stubs policy now).1 (by decide)⟩

/-- If the other store creates a class as well, the directory is refused: the manifest is that of
    the second store and does not list the class of the first. -/
theorem Interleaved.run_openAt_both :
    ∃ disk stores last, disk.IsSettled "stubs" {} ∧
      Interleaved "stubs" {} disk [(true, "A"), (false, "B")] stores last ∧
      ((openAt "stubs" .validate).run ⟨last, ⟨0, 0, 0⟩⟩).1 =
        .error (.foreignFiles "stubs" ["A.pyi"]) := by
  let a : Manifest := ⟨[("A", ⟨"A.pyi", 7, ⟨0, 0, 0⟩, ⟨0, 0, 0⟩⟩)]⟩
  let b : Manifest := ⟨[("B", ⟨"B.pyi", 8, ⟨0, 0, 0⟩, ⟨0, 0, 0⟩⟩)]⟩
  let last : Disk := ⟨[(["stubs"], .directory), (["stubs", "A.pyi"], .file (.text "A = int\n")),
    (["stubs", "classes.json"], .file (.text b.json)),
    (["stubs", "__init__.pyi"], .file (.text (b.index header))),
    (["stubs", "B.pyi"], .file (.text "B = str\n"))]⟩
  have hboth : Interleaved "stubs" {} ⟨[(["stubs"], .directory)]⟩ [(true, "A"), (false, "B")] _ last :=
    @Interleaved.committed Bool _ _ _ _ _ _ false ⟨"B", "B = str\n", 8⟩ (.ok .created)
      ⟨"stubs", .validate, b⟩ ⟨_, ⟨0, 0, 0⟩⟩ ⟨last, ⟨0, 0, 0⟩⟩ (interleaved_stubs a rfl) (by simp)
      (by simp) (by decide +kernel) (by rintro ⟨_, _, h⟩; cases h)
      (fun _ => by unfold Manifest.IsReadable; decide +kernel)
  exact ⟨_, _, _, isSettled_stubs, hboth, by decide +kernel⟩

end Runs

end Store

end TypeSketch
