import TypeSketch.Command.Run
import TypeSketch.Proofs.Command.ClassNames
import TypeSketch.Proofs.Store.Faithful

/-!
# What a Request to Store Leaves

Documents are committed one after another, each to the class that it is named for. Where
classes are overwritten and nothing fails, a commit puts the module of its document in the
directory and leaves those of other classes alone. So a module stays until the next document
with the name of its class, and in the end each class has the module of the last one.

Documents that lose their modules in this way are those of files whose stems are the same in
upper camel case, up to digits behind. A file that is read twice loses nothing: the second
time its documents have the modules that are there.

## Main definitions

* `Store.IsOverwriting`: A store that overwrites the classes in a directory.

## Theorems

* `Store.IsOverwriting.commitValue`: What one commit leaves.
* `StoreRequest.readText_of_run_commitAll`: What the commits leave of one among them.
* `StoreRequest.modules_of_run`: What a request leaves.
-/

namespace TypeSketch

open TypeSketch.Path Disk

namespace Store

variable {store last : Store} {dir className : String} {s : Strategies} {v : Value}
  {outcome : Outcome} {world after : World}

/-- A store that overwrites the classes in a directory that is there. -/
structure IsOverwriting (dir : String) (store : Store) (disk : Disk) : Prop where
  dir_eq : store.dir = dir
  ifExists_eq : store.ifExists = .overwrite
  isLocated : disk.IsLocated dir

/-- A commit that does not fail puts the module of its class in the directory and leaves those
    of other classes alone. -/
theorem IsOverwriting.commitValue (h : IsOverwriting dir store world.disk)
    (hindex : className ≠ "__init__")
    (hrun : (store.commitValue s className v).run world = ((.ok outcome, last), after)) :
    IsOverwriting dir last after.disk ∧
      Naming.isIdentifier className = true ∧
      (∃ stub, Stub.ofValue s className v = .ok stub ∧
        after.disk.readText (join dir (moduleFile className)) = .ok stub.source) ∧
      ∀ name, Naming.isIdentifier name = true → name ≠ className → name ≠ "__init__" →
        after.disk.readText (join dir (moduleFile name)) =
          world.disk.readText (join dir (moduleFile name)) := by
  rcases h with ⟨rfl, hpolicy, hdir⟩
  unfold Store.commitValue at hrun
  cases hstub : Stub.ofValue s className v with
  | error error =>
    rw [hstub] at hrun
    cases hrun
  | ok stub =>
    rw [hstub] at hrun
    dsimp only at hrun
    -- The stub bears the name of the class, so the module of the class is the one that is written.
    obtain rfl := Stub.className_of_ofValue hstub
    -- With overwriting, a commit that succeeds has written the module, whatever was there before.
    have hcommits := commits_of_run hrun
    rcases hcommits.dir_eq with ⟨hsame, hkeeps⟩
    have hlocated := hcommits.isLocated hdir
    have hne := ne_unchanged_of_run_commit hpolicy hrun
    have hholds := hcommits.holds hdir hne hindex
    rcases hcommits.exists_isWritten hne with ⟨_, hupdates, _, _⟩
    refine ⟨⟨hsame, hkeeps.trans hpolicy, hsame ▸ hlocated⟩, hupdates.isIdentifier,
      ⟨stub, rfl, ?_⟩, ?_⟩
    · rw [← hsame]
      exact hholds.readText_module
    · exact fun name hname hne hother => hcommits.readText_of_ne hdir hname hne hother

end Store

namespace StoreRequest

variable {s : Strategies} {store : Store} {dir className log text : String} {d : Document}
  {named before rest : List (String × Document)} {failures : Nat} {world after : World}

/-- Failures are counted, and none is forgotten. -/
theorem failures_le_commitAll :
    failures ≤ ((commitAll s store failures log named).run world).1.1 := by
  induction named generalizing store failures log world with
  | nil => exact Nat.le_refl failures
  | cons c rest ih =>
    rcases c with ⟨className, d⟩
    rw [commitAll, Script.run_bind]
    rcases (store.commitValue s className d.value).run world with ⟨⟨outcome, last⟩, mid⟩
    dsimp only
    refine Nat.le_trans ?_ ih
    split
    · exact Nat.le_refl failures
    · exact Nat.le_succ failures

/-- Where no commit has failed, the first has not, and none of the others has. -/
theorem of_run_commitAll_cons
    (h : (commitAll s store 0 log ((className, d) :: rest)).run world = ((0, text), after)) :
    ∃ outcome last mid log,
      (store.commitValue s className d.value).run world = ((.ok outcome, last), mid) ∧
      (commitAll s last 0 log rest).run mid = ((0, text), after) := by
  rw [commitAll, Script.run_bind] at h
  rcases hcommit : (store.commitValue s className d.value).run world with
    ⟨⟨error | outcome, last⟩, mid⟩ <;> rw [hcommit] at h
  · -- A failure is counted, and the count never goes back.
    change (commitAll s last 1 (log ++ lineOf className d (.error error)) rest).run mid = _ at h
    have hle := @failures_le_commitAll s last (log ++ lineOf className d (.error error)) rest 1 mid
    rw [h] at hle
    exact absurd hle (Nat.not_succ_le_zero 0)
  · exact ⟨outcome, last, mid, _, rfl, h⟩

/-- A module stays if all that is committed later for its class is of the same value. -/
theorem readText_commitAll_of_forall {stub : Stub} (h : Store.IsOverwriting dir store world.disk)
    (hrun : (commitAll s store 0 log named).run world = ((0, text), after))
    (hnames : ∀ c ∈ named, c.1 ≠ "__init__")
    (hclass : Naming.isIdentifier className = true) (hindex : className ≠ "__init__")
    (hstub : Stub.ofValue s className d.value = .ok stub)
    (hsame : ∀ c ∈ named, c.1 = className → c.2.value = d.value)
    (hread : world.disk.readText (join dir (Store.moduleFile className)) = .ok stub.source) :
    after.disk.readText (join dir (Store.moduleFile className)) = .ok stub.source := by
  induction named generalizing store log world with
  | nil =>
    cases hrun
    exact hread
  | cons c rest ih =>
    rcases c with ⟨name, other⟩
    rcases of_run_commitAll_cons hrun with ⟨outcome, last, mid, log, hcommit, hrest⟩
    rcases h.commitValue (hnames _ List.mem_cons_self) hcommit with ⟨hlast, _, hmodule, hothers⟩
    refine ih hlast hrest (fun c hc => hnames c (List.mem_cons_of_mem _ hc))
      (fun c hc => hsame c (List.mem_cons_of_mem _ hc)) ?_
    -- A later document either has the name, and then also the value, or it leaves the module alone.
    by_cases hname : name = className
    · -- The same value is committed again, and its module is the same.
      subst hname
      rcases hmodule with ⟨again, hagain, hread⟩
      have hvalue : other.value = d.value := hsame _ List.mem_cons_self rfl
      rw [hvalue, hstub, Except.ok.injEq] at hagain
      rwa [hagain]
    · rw [hothers className hclass (Ne.symm hname) hindex]
      exact hread

/-- Of a document among others, the module is there in the end if all that is committed later
    for its class is of the same value. -/
theorem readText_of_run_commitAll (h : Store.IsOverwriting dir store world.disk)
    (hrun : (commitAll s store 0 log (before ++ (className, d) :: rest)).run world =
      ((0, text), after))
    (hnames : ∀ c ∈ before ++ (className, d) :: rest, c.1 ≠ "__init__")
    (hsame : ∀ c ∈ rest, c.1 = className → c.2.value = d.value) :
    ∃ stub, Stub.ofValue s className d.value = .ok stub ∧
      after.disk.readText (join dir (Store.moduleFile className)) = .ok stub.source := by
  induction before generalizing store log world with
  | nil =>
    rcases of_run_commitAll_cons hrun with ⟨outcome, last, mid, log, hcommit, hrest⟩
    have hindex := hnames _ List.mem_cons_self
    rcases h.commitValue hindex hcommit with ⟨hlast, hclass, ⟨stub, hstub, hread⟩, _⟩
    have hlater := fun c hc => hnames c (List.mem_cons_of_mem _ hc)
    exact ⟨stub, hstub,
      readText_commitAll_of_forall hlast hrest hlater hclass hindex hstub hsame hread⟩
  | cons c before ih =>
    rcases c with ⟨name, other⟩
    rcases of_run_commitAll_cons hrun with ⟨outcome, last, mid, log, hcommit, hrest⟩
    have hlast := (h.commitValue (hnames _ List.mem_cons_self) hcommit).1
    exact ih hlast hrest fun c hc => hnames c (List.mem_cons_of_mem _ hc)

section Requests

variable {request : StoreRequest} {documents : List Document} {report : Report}
  {resolved loaded : World}

/-- A request that reports success has opened its directory and committed every document to the
    class that it is named for. -/
theorem exists_run_commitAll (hname : request.className = none)
    (hresolve : request.strategies.resolve.run world = (.ok s, resolved))
    (hload : request.input.load.run resolved = (.ok documents, loaded))
    (hrun : request.run.run world = (report, after)) (hok : report.result = .ok ()) :
    ∃ store opened log, (Store.openAt request.dir request.ifExists).run loaded =
        (.ok store, opened) ∧
      (commitAll s store 0 "" (documents.map fun d => (d.className documents, d))).run opened =
        ((0, log), after) := by
  have hprepare : request.prepare.run world =
      (.ok (s, documents.map fun d => (d.className documents, d)), loaded) := by
    unfold prepare
    rw [Script.run_bind, hresolve]
    dsimp only
    rw [Script.run_bind, hload, hname]
    rfl
  -- The run prepares, opens the store and commits. Each of these steps would have ended it with an
  -- error.
  unfold run at hrun
  rw [Script.run_bind, hprepare] at hrun
  dsimp only at hrun
  rw [Script.run_bind] at hrun
  rcases hopen : (Store.openAt request.dir request.ifExists).run loaded with
    ⟨error | store, opened⟩ <;> rw [hopen] at hrun
  · cases hrun
    cases hok
  · dsimp only at hrun
    rw [Script.run_bind] at hrun
    rcases hall : (commitAll s store 0 "" (documents.map fun d => (d.className documents, d))).run
      opened with ⟨⟨failures, log⟩, last⟩
    rw [hall] at hrun
    cases hrun
    dsimp only at hok
    split at hok
    · next hzero => exact ⟨store, opened, log, rfl, by rw [hall, hzero]⟩
    · contradiction

/-- Documents with one class name are one document that has been read twice, or they are of files
    whose stems are the same in upper camel case, up to digits behind. When a request that
    overwrites classes reports success, the module of every document is in the directory, unless
    there is a later document with its class name that is of another file. -/
theorem modules_of_run (hname : request.className = none)
    (hresolve : request.strategies.resolve.run world = (.ok s, resolved))
    (hload : request.input.load.run resolved = (.ok documents, loaded)) :
    (∀ d ∈ documents, ∀ d' ∈ documents, d.className documents = d'.className documents →
      (d.sharesSource d' = true ∧ d.index = d'.index ∧ d'.value = d.value) ∨
      d.sharesSource d' = false ∧ ∃ number number',
        Document.IsNumberedAs (d.className documents) number d.source ∧
        Document.IsNumberedAs (d.className documents) number' d'.source) ∧
    (request.ifExists = .overwrite → ∀ report after, request.run.run world = (report, after) →
      report.result = .ok () → ∀ before d rest, documents = before ++ d :: rest →
        (∀ d' ∈ rest, d'.className documents = d.className documents →
          d.sharesSource d' = true) →
        ∃ stub, Stub.ofValue s (d.className documents) d.value = .ok stub ∧
          after.disk.readText (join request.dir (Store.moduleFile (d.className documents))) =
            .ok stub.source) := by
  have hcases : ∀ d ∈ documents, ∀ d' ∈ documents,
      d.className documents = d'.className documents → d.sharesSource d' = true →
        d.index = d'.index ∧ d'.value = d.value := by
    intro d hd d' hd' heq hshared
    have hindex := Document.index_eq_of_className_eq hd hd' hshared heq
    exact ⟨hindex, InputOptions.value_eq_of_mem_load hload hd hd' hshared hindex⟩
  -- Documents of one name either come from one file, and then they are one document, or each of
  -- their files has that name.
  constructor
  · intro d hd d' hd' heq
    rcases Document.cases_of_className_eq hd hd' heq with ⟨hshared, _⟩ | hother
    · exact Or.inl ⟨hshared, hcases d hd d' hd' heq hshared⟩
    · exact Or.inr hother
  · intro hpolicy report after hrun hok before d rest hsplit hlast
    rcases exists_run_commitAll hname hresolve hload hrun hok with ⟨store, opened, log, hopen, hall⟩
    rcases Store.of_run_openAt hopen with ⟨m, _, _, rfl, hintact⟩
    -- What is committed last under a name stays, and whatever follows under that name has the same
    -- value.
    have hstore : Store.IsOverwriting request.dir ⟨request.dir, request.ifExists, m⟩ opened.disk :=
      ⟨rfl, hpolicy, hintact.isLocated⟩
    have hnamed : documents.map (fun d => (d.className documents, d)) =
        before.map (fun d => (d.className documents, d)) ++
          (d.className documents, d) :: rest.map (fun d => (d.className documents, d)) := by
      -- The list of all documents also says how each is called, so only the list that is gone
      -- through is split.
      conv_lhs => rw [congrArg (List.map fun d => (Document.className documents d, d)) hsplit]
      rw [List.map_append, List.map_cons]
    rw [hnamed] at hall
    refine readText_of_run_commitAll hstore hall (fun c hc => ?_) fun c hc heq => ?_
    · rw [← hnamed] at hc
      rcases List.mem_map.mp hc with ⟨d', _, rfl⟩
      exact Document.className_ne_init documents d'
    · rcases List.mem_map.mp hc with ⟨d', hd', rfl⟩
      have hmem : d ∈ documents := hsplit ▸ List.mem_append_right _ List.mem_cons_self
      have hmem' : d' ∈ documents :=
        hsplit ▸ List.mem_append_right _ (List.mem_cons_of_mem _ hd')
      exact (hcases d hmem d' hmem' heq.symm (hlast d' hd' heq)).2

/-- Two documents of different names have their modules. -/
theorem modules_of_run_two :
    ∃ (request : StoreRequest) (world after : World) (documents : List Document) (report : Report),
      request.className = none ∧ request.strategies.resolve.run world = (.ok {}, world) ∧
      request.input.load.run world = (.ok documents, world) ∧ request.ifExists = .overwrite ∧
      request.run.run world = (report, after) ∧ report.result = .ok () ∧
      documents.map (·.className documents) = ["X", "Y"] ∧
      ∀ d ∈ documents, ∃ stub, Stub.ofValue {} (d.className documents) d.value = .ok stub ∧
        after.disk.readText (join request.dir (Store.moduleFile (d.className documents))) =
          .ok stub.source := by
  let request : StoreRequest :=
    { input := { inputs := ["a/x.json", "b/y.json"] }, dir := "stubs", ifExists := .overwrite }
  let world : World := ⟨⟨[(["a"], .directory), (["a", "x.json"], .file (.text "1")),
    (["b"], .directory), (["b", "y.json"], .file (.text "\"s\""))]⟩, ⟨0, 0, 0⟩⟩
  -- What the run loads is evaluated, and the theorem is applied to it.
  have hnames : ((request.input.load.run world).1.toOption.map fun documents =>
      documents.map (·.className documents)) = some ["X", "Y"] := by decide +kernel
  have hworld : (request.input.load.run world).2 = world := by decide +kernel
  have hok : (request.run.run world).1.result = .ok () := by decide +kernel
  have hrun : request.run.run world = ((request.run.run world).1, (request.run.run world).2) := rfl
  rcases hload : request.input.load.run world with ⟨_ | documents, loaded⟩ <;>
    rw [hload] at hnames hworld
  · cases hnames
  · dsimp only at hworld
    rw [hworld] at hload
    have hnames : documents.map (·.className documents) = ["X", "Y"] := Option.some.inj hnames
    have hmodules := (modules_of_run rfl rfl hload).2 rfl _ _ hrun hok
    refine ⟨request, world, _, documents, _, rfl, rfl, hload, rfl, hrun, hok, hnames, ?_⟩
    intro d hd
    rcases List.append_of_mem hd with ⟨before, rest, hsplit⟩
    refine hmodules before d rest hsplit fun d' hd' heq => ?_
    -- The names are different, so nothing that comes later has the name of the document.
    have hnodup : (documents.map (·.className documents)).Nodup := by
      rw [hnames]
      decide
    rw [hsplit, List.map_append, List.map_cons, ← hsplit] at hnodup
    have hnot := (List.nodup_cons.mp (List.nodup_append.mp hnodup).2.1).1
    exact absurd (heq ▸ List.mem_map_of_mem hd') hnot

/-- Of two files in different directories that are called alike, the module of the first one is
    replaced, and the request reports success. -/
theorem modules_of_run_replaced :
    ∃ (request : StoreRequest) (world after : World) (documents : List Document) (report : Report),
      request.className = none ∧ request.strategies.resolve.run world = (.ok {}, world) ∧
      request.input.load.run world = (.ok documents, world) ∧ request.ifExists = .overwrite ∧
      request.run.run world = (report, after) ∧ report.result = .ok () ∧
      documents.map (·.source) = ["a/x.json", "b/x.json"] ∧
      documents.map (·.className documents) = ["X", "X"] ∧
      documents.map (fun d => (Stub.ofValue {} (d.className documents) d.value).map (·.source)) =
        [.ok (header ++ "\nX = int\n"), .ok (header ++ "\nX = str\n")] ∧
      after.disk.readText "stubs/X.pyi" = .ok (header ++ "\nX = str\n") := by
  let request : StoreRequest :=
    { input := { inputs := ["a/x.json", "b/x.json"] }, dir := "stubs", ifExists := .overwrite }
  let world : World := ⟨⟨[(["a"], .directory), (["a", "x.json"], .file (.text "1")),
    (["b"], .directory), (["b", "x.json"], .file (.text "\"s\""))]⟩, ⟨0, 0, 0⟩⟩
  have hdocuments : ((request.input.load.run world).1.toOption.map fun documents =>
      (documents.map (·.source), documents.map (·.className documents),
        documents.map fun d => (Stub.ofValue {} (d.className documents) d.value).map (·.source))) =
      some (["a/x.json", "b/x.json"], ["X", "X"],
        [.ok (header ++ "\nX = int\n"), .ok (header ++ "\nX = str\n")]) := by
    decide +kernel
  have hworld : (request.input.load.run world).2 = world := by decide +kernel
  have hrun : request.run.run world = ((request.run.run world).1, (request.run.run world).2) := rfl
  -- The run is evaluated as a whole, and what it has loaded is read off the result.
  rcases hload : request.input.load.run world with ⟨_ | documents, loaded⟩ <;>
    rw [hload] at hdocuments hworld
  · cases hdocuments
  -- Both modules have one name, and what is in it at the end is the second one.
  · dsimp only at hworld
    rw [hworld] at hload
    have hdocuments := Option.some.inj hdocuments
    rw [Prod.mk.injEq, Prod.mk.injEq] at hdocuments
    rcases hdocuments with ⟨hsources, hnames, hstubs⟩
    exact ⟨request, world, _, documents, _, rfl, rfl, hload, rfl, hrun, by decide +kernel,
      hsources, hnames, hstubs, by decide +kernel⟩

end Requests

end StoreRequest

end TypeSketch
