import Mathlib.Data.List.Induction
import TypeSketch.Files.Disk
import TypeSketch.Proofs.Files.Paths
import TypeSketch.Proofs.Lists.Tables

/-!
# Ways in a Directory Tree

What a path leads to, and what the operations on a directory tree change. Where a path
leads does not depend on the tree: each name goes on from the way so far, and two points go
back. The tree decides only whether one gets there, and one gets to a directory exactly when
there is a directory behind every name on the path. So a tree that keeps its directories
keeps the directory that a path leads to.

## Main definitions

* `Path.wayFrom`, `Path.way`: Where names and paths lead.
* `Disk.Along`: A property of all nodes behind the names of a path.
* `Disk.IsLocated`: The path leads to a directory.
* `Disk.IsPassable`: No file and no name that is too long is on the path.

## Theorems

* `Disk.get?_put`, `Disk.get?_remove`: What is in a changed tree.
* `Disk.follow_concat`: The last name of a path.
* `Disk.follow_eq_directory_iff`: When one gets to a directory.
* `Disk.IsLocated.mono`: Directories that are still there.
* `Disk.IsLocated.locateNode_join`: What a file of a directory is.
-/

namespace TypeSketch

namespace Path

/-- Where a name leads from a way. -/
def goOn (way : List String) (name : String) : List String :=
  if name = ".." then way.dropLast else way ++ [name]

/-- Where names lead from a way. -/
def wayFrom (way names : List String) : List String := names.foldl goOn way

/-- Where a path leads. -/
def way (path : String) : List String := wayFrom [] (names path)

theorem wayFrom_cons (way : List String) (name : String) (rest : List String) :
    wayFrom way (name :: rest) = wayFrom (goOn way name) rest := rfl

theorem wayFrom_concat (way names : List String) (name : String) :
    wayFrom way (names ++ [name]) = goOn (wayFrom way names) name := by
  rw [wayFrom, List.foldl_append]
  rfl

/-- Without two points on it, a path leads where its names say. -/
theorem wayFrom_of_not_mem {names : List String} (h : ".." ∉ names) (way : List String) :
    wayFrom way names = way ++ names := by
  induction names generalizing way with
  | nil => rw [List.append_nil]; rfl
  | cons name rest ih =>
    rw [List.mem_cons, not_or] at h
    rw [wayFrom_cons, goOn, if_neg (Ne.symm h.1), ih h.2, List.append_assoc]
    rfl

end Path

namespace Disk

open TypeSketch.Path

variable {disk other : Disk} {w : List String}

section Nodes

variable {way : List String}

theorem get?_of_ne_nil (h : way ≠ []) : disk.get? way = disk.nodes.lookup way := if_neg h

/-- What is at the end of a way after the node at another has been replaced. -/
theorem lookup_replace (nodes : List (List String × Node)) (w : List String) (node : Node)
    (way : List String) :
    (nodes.map fun (v, n) => if v = w then (v, node) else (v, n)).lookup way =
      if way = w then (nodes.lookup way).map fun _ => node else nodes.lookup way := by
  induction nodes with
  | nil => simp
  | cons entry rest ih =>
    rcases entry with ⟨v, n⟩
    rw [List.map_cons, lookup_cons_ite, lookup_cons_ite, ih]
    -- The entry in front is the replaced one, or it is passed by on both sides.
    by_cases hv : v = w
    · subst hv
      rw [if_pos rfl]
      by_cases hway : way = v
      · rw [if_pos hway, if_pos hway, if_pos hway]
        rfl
      · rw [if_neg hway, if_neg hway, if_neg hway, if_neg hway]
    · rw [if_neg hv]
      by_cases hway : way = v
      · subst hway
        rw [if_pos rfl, if_neg hv, if_pos rfl]
      · rw [if_neg hway, if_neg hway]

/-- What is at the end of a way after a node has been put somewhere below the root. -/
theorem get?_put (disk : Disk) (hw : w ≠ []) (node : Node) (way : List String) :
    (disk.put w node).get? way = if way = w then some node else disk.get? way := by
  by_cases hnil : way = []
  · subst hnil
    rw [if_neg (Ne.symm hw)]
    rfl
  · rw [get?_of_ne_nil hnil, get?_of_ne_nil hnil, put]
    -- An entry that is there is replaced where it is, and a new one comes last, so lookups of
    -- others find the same.
    by_cases hsome : (disk.nodes.lookup w).isSome = true
    · rw [if_pos hsome, lookup_replace]
      by_cases heq : way = w
      · rcases Option.isSome_iff_exists.mp hsome with ⟨n, hn⟩
        rw [if_pos heq, if_pos heq, heq, hn]
        rfl
      · rw [if_neg heq, if_neg heq]
    · rw [if_neg hsome, List.lookup_append]
      rw [Option.not_isSome_iff_eq_none] at hsome
      by_cases heq : way = w
      · rw [if_pos heq, heq, hsome]
        simp
      · rw [if_neg heq, lookup_cons_ite, if_neg heq]
        exact Option.or_none

/-- What is at the end of a way after a node and all below it have been removed. -/
theorem get?_remove (disk : Disk) (w : List String) (hnil : way ≠ []) :
    (disk.remove w).get? way = if w <+: way then none else disk.get? way := by
  rw [get?_of_ne_nil hnil, get?_of_ne_nil hnil]
  refine (lookup_filter (fun other => !w.isPrefixOf other) disk.nodes way).trans ?_
  by_cases hbelow : w <+: way
  · rw [if_pos hbelow, List.isPrefixOf_iff_prefix.mpr hbelow]
    rfl
  · rw [if_neg hbelow, Bool.eq_false_iff.mpr fun h => hbelow (List.isPrefixOf_iff_prefix.mp h)]
    rfl

/-- The names in the directory at the end of a way are those that go on from it. -/
theorem mem_namesBelow {name : String} :
    name ∈ (disk.nodes.filterMap fun (v, _) => nameBelow? way v) ↔
      (disk.get? (way ++ [name])).isSome = true := by
  -- A path lies right below another one if it is that one with a name behind it.
  have hbelow : ∀ v : List String, nameBelow? way v = some name ↔ v = way ++ [name] := by
    intro v
    unfold nameBelow?
    constructor
    · intro h
      split at h
      · next hdrop =>
        rcases List.getLast?_eq_some_iff.mp h with ⟨before, rfl⟩
        rw [List.dropLast_concat] at hdrop
        rw [hdrop]
      · contradiction
    · rintro rfl
      rw [List.dropLast_concat, if_pos rfl, List.getLast?_concat]
  rw [get?_of_ne_nil (List.append_ne_nil_of_right_ne_nil _ (List.cons_ne_nil _ _))]
  -- The first entry for a path is the one that counts, but any entry makes the path there.
  generalize disk.nodes = nodes
  induction nodes with
  | nil => simp
  | cons entry rest ih =>
    rcases entry with ⟨v, n⟩
    rw [lookup_cons_ite, List.mem_filterMap, List.exists_mem_cons_iff, ← List.mem_filterMap, hbelow]
    by_cases heq : way ++ [name] = v
    · simp [heq]
    · rw [if_neg heq]
      refine Iff.trans ?_ ih
      simp [Ne.symm heq]

end Nodes

section Follow

variable {way : List String}

/-- What comes behind the last directory of a path. -/
theorem follow_concat (disk : Disk) (way ns : List String) (name : String) :
    disk.follow way (ns ++ [name]) =
      match disk.follow way ns with
      | .error error => .error error
      | .ok (.found w .directory) => disk.follow w [name]
      | .ok (.found _ (.file _)) => .error .notDirectory
      | .ok (.free _) => .error .notFound := by
  induction ns generalizing way with
  | nil => rfl
  | cons first rest ih =>
    -- A name that ended the path no longer ends it with another behind it.
    rw [List.cons_append, follow.eq_2, follow.eq_2]
    by_cases hup : first = ".."
    · rw [if_pos hup, if_pos hup, ih]
    · rw [if_neg hup, if_neg hup]
      by_cases hlong : 255 < first.utf8ByteSize
      · rw [if_pos hlong, if_pos hlong]
      · rw [if_neg hlong, if_neg hlong]
        have hrest : (rest ++ [name]).isEmpty = false := by simp
        rw [hrest]
        cases disk.get? (way ++ [first]) with
        | none => cases rest <;> rfl
        | some node =>
          cases node with
          | directory => exact ih _
          | file content => cases rest <;> rfl

/-- All nodes behind the names of a path have a property, and no name is too long. -/
def Along (P : Option Node → Prop) (disk : Disk) (way ns : List String) : Prop :=
  ∀ before name after, ns = before ++ name :: after → name ≠ ".." →
    name.utf8ByteSize ≤ 255 ∧ P (disk.get? (wayFrom way before ++ [name]))

theorem Along.mono {P Q : Option Node → Prop} {ns : List String} (h : Along P disk way ns)
    (hPQ : ∀ v, P (disk.get? v) → Q (other.get? v)) : Along Q other way ns :=
  fun before name after hns hup =>
    ⟨(h before name after hns hup).1, hPQ _ (h before name after hns hup).2⟩

theorem Along.of_append {P : Option Node → Prop} {ns ms : List String}
    (h : Along P disk way (ns ++ ms)) : Along P disk way ns := by
  intro before name after hns
  exact h before name (after ++ ms) (by rw [hns, List.append_assoc]; rfl)

theorem along_concat {P : Option Node → Prop} {ns : List String} {name : String} :
    Along P disk way (ns ++ [name]) ↔ Along P disk way ns ∧
      (name ≠ ".." → name.utf8ByteSize ≤ 255 ∧ P (disk.get? (wayFrom way ns ++ [name]))) := by
  constructor
  · exact fun h => ⟨h.of_append, h ns name [] rfl⟩
  · rintro ⟨hns, hname⟩ before last after heq
    rcases List.eq_nil_or_concat after with rfl | ⟨between, final, rfl⟩
    · rcases List.append_inj' heq rfl with ⟨rfl, hlast⟩
      rw [List.cons.injEq] at hlast
      exact hlast.1 ▸ hname
    · rw [List.concat_eq_append, ← List.cons_append, ← List.append_assoc] at heq
      exact hns before last between (List.append_inj' heq rfl).1

/-- A last name leads to a directory. -/
theorem follow_singleton_eq_directory_iff {name : String} :
    disk.follow way [name] = .ok (.found w .directory) ↔ w = goOn way name ∧
      (name ≠ ".." → name.utf8ByteSize ≤ 255 ∧ disk.get? (way ++ [name]) = some .directory) := by
  rw [follow.eq_2, goOn]
  -- The step up has no entry of its own to look at.
  by_cases hup : name = ".."
  · rw [if_pos hup, if_pos hup, follow.eq_1]
    simp [hup, eq_comm]
  · rw [if_neg hup, if_neg hup]
    by_cases hlong : 255 < name.utf8ByteSize
    · rw [if_pos hlong]
      simp [hup, Nat.not_le.mpr hlong]
    · rw [if_neg hlong]
      cases disk.get? (way ++ [name]) with
      | none => simp [hup]
      | some node =>
        cases node with
        | directory => simp [hup, Nat.not_lt.mp hlong, follow.eq_1, eq_comm]
        | file content => simp [hup]

/-- One gets to a directory if there is one behind every name. -/
theorem follow_eq_directory_iff {ns : List String} :
    disk.follow way ns = .ok (.found w .directory) ↔
      w = wayFrom way ns ∧ Along (· = some .directory) disk way ns := by
  -- From the end: the way back from two points is known only when one has got there.
  induction ns using List.reverseRecOn generalizing w with
  | nil =>
    rw [follow.eq_1]
    simp [Along, wayFrom, eq_comm]
  | append_singleton ns name ih =>
    rw [follow_concat, along_concat, wayFrom_concat]
    constructor
    · intro h
      split at h
      · contradiction
      · next v hv =>
        rw [follow_singleton_eq_directory_iff] at h
        rcases ih.mp hv with ⟨rfl, halong⟩
        exact ⟨h.1, halong, h.2⟩
      · contradiction
      · contradiction
    · rintro ⟨rfl, halong, hname⟩
      rw [ih.mpr ⟨rfl, halong⟩]
      exact follow_singleton_eq_directory_iff.mpr ⟨rfl, hname⟩

/-- One gets to a free place behind a directory. -/
theorem exists_of_follow_eq_free {ns : List String} (h : disk.follow way ns = .ok (.free w)) :
    ∃ before name, ns = before ++ [name] ∧
      disk.follow way before = .ok (.found (wayFrom way before) .directory) ∧
      name ≠ ".." ∧ name.utf8ByteSize ≤ 255 ∧ w = wayFrom way ns ∧ w ≠ [] ∧ disk.get? w = none := by
  rcases List.eq_nil_or_concat ns with rfl | ⟨before, name, rfl⟩
  · rw [follow.eq_1] at h
    cases h
  · rw [List.concat_eq_append] at h ⊢
    rw [follow_concat] at h
    refine ⟨before, name, rfl, ?_⟩
    -- All names but the last one have to be followed to a directory. There the last one is free.
    split at h
    · contradiction
    · next v hv =>
      rcases follow_eq_directory_iff.mp hv with ⟨rfl, _⟩
      rw [follow.eq_2] at h
      split at h
      · rw [follow.eq_1] at h
        cases h
      -- The last name is not the one that leads up, and it is not too long to be made.
      · next hup =>
        split at h
        · contradiction
        · next hlong =>
          rw [wayFrom_concat, goOn, if_neg hup]
          cases hget : disk.get? (wayFrom way before ++ [name]) with
          | none =>
            simp [hget] at h
            subst h
            simp [hv, hup, hget, Nat.not_lt.mp hlong]
          | some node => cases node <;> simp [hget, follow.eq_1] at h
    · contradiction
    · contradiction

end Follow

section Located

variable {path : String}

/-- The path leads to a directory. -/
def IsLocated (disk : Disk) (path : String) : Prop :=
  disk.locate path = .ok (.found (way path) .directory)

/-- No file and no name that is too long is on the path. -/
def IsPassable (disk : Disk) (path : String) : Prop :=
  path ≠ "" ∧ Along (fun node => ∀ content, node ≠ some (.file content)) disk [] (names path)

theorem locate_of_ne_empty (h : path ≠ "") :
    disk.locate path = disk.follow [] (names path) :=
  if_neg h

theorem isLocated_iff : disk.IsLocated path ↔
    path ≠ "" ∧ Along (· = some .directory) disk [] (names path) := by
  unfold IsLocated locate
  by_cases hempty : path = ""
  · simp [hempty]
  · rw [if_neg hempty, follow_eq_directory_iff]
    simp [hempty, way]

theorem IsLocated.ne_empty (h : disk.IsLocated path) : path ≠ "" := (isLocated_iff.mp h).1

/-- A directory that one gets to is the one the path leads to. -/
theorem isLocated_of_locate (h : disk.locate path = .ok (.found w .directory)) :
    disk.IsLocated path := by
  have hempty : path ≠ "" := by
    rintro rfl
    contradiction
  rw [locate_of_ne_empty hempty] at h
  exact isLocated_iff.mpr ⟨hempty, (follow_eq_directory_iff.mp h).2⟩

/-- A tree that keeps its directories keeps the one the path leads to. -/
theorem IsLocated.mono (h : disk.IsLocated path)
    (hkept : ∀ v, disk.get? v = some .directory → other.get? v = some .directory) :
    other.IsLocated path := by
  rcases isLocated_iff.mp h with ⟨hempty, halong⟩
  exact isLocated_iff.mpr ⟨hempty, halong.mono hkept⟩

theorem IsLocated.isPassable (h : disk.IsLocated path) : disk.IsPassable path := by
  rcases isLocated_iff.mp h with ⟨hempty, halong⟩
  refine ⟨hempty, halong.mono fun v hv content => ?_⟩
  rw [hv]
  exact fun hfile => Node.noConfusion (Option.some.inj hfile)

/-- A tree without new files is as passable as before. -/
theorem IsPassable.mono (h : disk.IsPassable path)
    (hfiles : ∀ v content, other.get? v = some (.file content) →
      disk.get? v = some (.file content)) :
    other.IsPassable path :=
  ⟨h.1, h.2.mono fun v hv content hfile => hv content (hfiles v content hfile)⟩

theorem IsLocated.locateNode (h : disk.IsLocated path) :
    disk.locateNode path = .ok (.found (way path) .directory) := by
  rw [Disk.locateNode, h]

theorem locate_of_locateNode {place : Place} (h : disk.locateNode path = .ok place) :
    disk.locate path = .ok place := by
  unfold Disk.locateNode at h
  split at h
  · next hlocate =>
    split at h
    · contradiction
    · rw [hlocate, h]
  · exact h

/-- A node that is a directory is one that the path leads to. -/
theorem isLocated_of_locateNode (h : disk.locateNode path = .ok (.found w .directory)) :
    disk.IsLocated path :=
  isLocated_of_locate (locate_of_locateNode h)

/-- The names in a directory that is there. -/
theorem IsLocated.listDirectory (h : disk.IsLocated path) : disk.listDirectory path =
    .ok (disk.nodes.filterMap fun e => nameBelow? (way path) e.1) := by
  rw [Disk.listDirectory, h.locateNode]

theorem isLocated_of_listDirectory {names : List String}
    (h : disk.listDirectory path = .ok names) : disk.IsLocated path := by
  unfold Disk.listDirectory at h
  split at h
  · contradiction
  · contradiction
  · contradiction
  · next hnode => exact isLocated_of_locateNode hnode

theorem inspect_of_locate_eq_free (h : disk.locate path = .ok (.free w)) :
    disk.inspect path = none := by
  rw [inspect, Disk.locateNode, h]

/-- On a passable path one can only miss a directory. -/
theorem locate_cases_of_isPassable (h : disk.IsPassable path) :
    disk.IsLocated path ∨ (∃ w, disk.locate path = .ok (.free w)) ∨
      disk.locate path = .error .notFound := by
  rcases h with ⟨hempty, halong⟩
  rw [isLocated_iff, locate_of_ne_empty hempty, and_iff_right hempty]
  generalize names path = ns at halong
  induction ns using List.reverseRecOn with
  | nil => exact Or.inl fun before name after hns => by simp at hns
  | append_singleton ns name ih =>
    rw [along_concat] at halong
    rw [follow_concat, along_concat]
    -- In a directory the next name is found, is free or is missing. Behind a free or missing name
    -- everything is missing.
    rcases ih halong.1 with hdir | ⟨w, hfree⟩ | hmissing
    · rw [follow_eq_directory_iff.mpr ⟨rfl, hdir⟩]
      by_cases hup : name = ".."
      · exact Or.inl ⟨hdir, fun hne => absurd hup hne⟩
      · rcases halong.2 hup with ⟨hshort, hfile⟩
        cases hget : disk.get? (wayFrom [] ns ++ [name]) with
        | none => simp [follow, hup, Nat.not_lt.mpr hshort, hget]
        | some node =>
          cases node with
          | directory => exact Or.inl ⟨hdir, fun _ => ⟨hshort, rfl⟩⟩
          | file content => exact absurd hget (hfile content)
    · rw [hfree]
      exact Or.inr (Or.inr rfl)
    · rw [hmissing]
      exact Or.inr (Or.inr rfl)

/-- A text is read where the path leads to a file with it. -/
theorem locate_of_readText {text : String} (h : disk.readText path = .ok text) :
    ∃ w, disk.locate path = .ok (.found w (.file (.text text))) := by
  unfold readText at h
  split at h
  · contradiction
  · contradiction
  · contradiction
  · next w s hnode =>
    cases h
    exact ⟨w, locate_of_locateNode hnode⟩
  · contradiction

/-- What is read at two paths is the same if the names on them are. -/
theorem readText_inj_of_names_eq {other text text' : String} (h : disk.readText path = .ok text)
    (h' : disk.readText other = .ok text') (hnames : names path = names other) : text = text' := by
  rcases locate_of_readText h with ⟨w, hlocate⟩
  rcases locate_of_readText h' with ⟨w', hlocate'⟩
  have hempty : path ≠ "" := by
    rintro rfl
    cases hlocate
  have hempty' : other ≠ "" := by
    rintro rfl
    cases hlocate'
  rw [locate_of_ne_empty hempty, hnames, ← locate_of_ne_empty hempty', hlocate'] at hlocate
  cases hlocate
  rfl

end Located

section Files

variable {dir file : String} (h : disk.IsLocated dir) (hfile : IsFileName file)

include h hfile

/-- What a file of a directory is. -/
theorem IsLocated.locateNode_join : disk.locateNode (join dir file) =
    if 255 < file.utf8ByteSize then .error .nameTooLong
    else match disk.get? (way dir ++ [file]) with
      | some node => .ok (.found (way dir ++ [file]) node)
      | none => .ok (.free (way dir ++ [file])) := by
  have hlocate : disk.locate (join dir file) = disk.follow (way dir) [file] := by
    rw [locate_of_ne_empty (join_ne_empty hfile), names_join hfile, follow_concat,
      ← locate_of_ne_empty h.ne_empty, h]
  -- The path does not end as one of a directory, so a file at its end counts as found.
  rw [Disk.locateNode, hlocate, follow.eq_2, if_neg hfile.ne_points]
  by_cases hlong : 255 < file.utf8ByteSize
  · rw [if_pos hlong, if_pos hlong]
  · rw [if_neg hlong, if_neg hlong]
    cases disk.get? (way dir ++ [file]) with
    | none => rfl
    | some node =>
      cases node with
      | directory => rfl
      | file content => simp [endsAsDirectory_join hfile]

theorem IsLocated.readText_join_iff {text : String} : disk.readText (join dir file) = .ok text ↔
    file.utf8ByteSize ≤ 255 ∧ disk.get? (way dir ++ [file]) = some (.file (.text text)) := by
  rw [readText, h.locateNode_join hfile]
  by_cases hlong : 255 < file.utf8ByteSize
  · simp [hlong, Nat.not_le.mpr hlong]
  · rw [if_neg hlong]
    rcases disk.get? (way dir ++ [file]) with _ | ⟨⟨_ | _⟩⟩ | _ <;>
      simp [Nat.not_lt.mp hlong]

theorem IsLocated.inspect_join_iff : disk.inspect (join dir file) = some .file ↔
    file.utf8ByteSize ≤ 255 ∧ ∃ content, disk.get? (way dir ++ [file]) = some (.file content) := by
  rw [inspect, h.locateNode_join hfile]
  by_cases hlong : 255 < file.utf8ByteSize
  · simp [hlong, Nat.not_le.mpr hlong]
  · rw [if_neg hlong]
    rcases disk.get? (way dir ++ [file]) with _ | ⟨content⟩ | _ <;> simp [Nat.not_lt.mp hlong]

/-- A file that can be read is a file. -/
theorem IsLocated.inspect_join {text : String} (hread : disk.readText (join dir file) = .ok text) :
    disk.inspect (join dir file) = some .file := by
  rcases (h.readText_join_iff hfile).mp hread with ⟨hshort, hget⟩
  exact (h.inspect_join_iff hfile).mpr ⟨hshort, _, hget⟩

/-- Where nothing is, nothing is found. -/
theorem IsLocated.inspect_join_of_none (hget : disk.get? (way dir ++ [file]) = none) :
    disk.inspect (join dir file) = none := by
  rw [inspect, h.locateNode_join hfile, hget]
  by_cases hlong : 255 < file.utf8ByteSize
  · rw [if_pos hlong]
  · rw [if_neg hlong]

/-- What is in the tree after a file of a directory has been written. -/
theorem IsLocated.get?_of_write_join {content : Content}
    (hwrite : disk.write (join dir file) content = .ok other) :
    file.utf8ByteSize ≤ 255 ∧ disk.get? (way dir ++ [file]) ≠ some .directory ∧
      ∀ v, other.get? v = if v = way dir ++ [file] then some (.file content) else disk.get? v := by
  have hne : way dir ++ [file] ≠ [] := List.append_ne_nil_of_right_ne_nil _ (List.cons_ne_nil _ _)
  rw [write, h.locateNode_join hfile] at hwrite
  by_cases hlong : 255 < file.utf8ByteSize
  · rw [if_pos hlong] at hwrite
    contradiction
  · rw [if_neg hlong] at hwrite
    rcases hget : disk.get? (way dir ++ [file]) with _ | ⟨_ | _⟩ <;>
      simp [hget, endsAsDirectory_join hfile] at hwrite <;>
      simp [Nat.not_lt.mp hlong, ← hwrite, get?_put disk hne]

/-- A directory is still there when a file of it has been written. -/
theorem IsLocated.of_write_join {content : Content}
    (hwrite : disk.write (join dir file) content = .ok other) : other.IsLocated dir := by
  rcases h.get?_of_write_join hfile hwrite with ⟨_, hplace, hget⟩
  refine h.mono fun v hv => ?_
  rw [hget, if_neg]
  · exact hv
  · rintro rfl
    exact hplace hv

/-- What is read from a directory after a file of it has been written. -/
theorem IsLocated.readText_of_write_join {text read : String}
    (hwrite : disk.write (join dir file) (.text text) = .ok other) (hread : IsFileName read) :
    other.readText (join dir read) =
      if read = file then .ok text else disk.readText (join dir read) := by
  rcases h.get?_of_write_join hfile hwrite with ⟨hshort, _, hget⟩
  have hother := h.of_write_join hfile hwrite
  by_cases heq : read = file
  · rw [if_pos heq, heq, hother.readText_join_iff hfile, hget, if_pos rfl]
    exact ⟨hshort, rfl⟩
  · have hne : way dir ++ [read] ≠ way dir ++ [file] := fun h =>
      heq (List.cons.inj (List.append_cancel_left h)).1
    rw [if_neg heq, readText, readText, hother.locateNode_join hread, h.locateNode_join hread, hget,
      if_neg hne]

/-- What is a file of a directory after one has been written. -/
theorem IsLocated.inspect_of_write_join {content : Content} {name : String}
    (hwrite : disk.write (join dir file) content = .ok other) (hname : IsFileName name) :
    other.inspect (join dir name) =
      if name = file then some .file else disk.inspect (join dir name) := by
  rcases h.get?_of_write_join hfile hwrite with ⟨hshort, _, hget⟩
  have hother := h.of_write_join hfile hwrite
  by_cases heq : name = file
  · rw [if_pos heq, heq, hother.inspect_join_iff hfile, hget, if_pos rfl]
    exact ⟨hshort, content, rfl⟩
  · have hne : way dir ++ [name] ≠ way dir ++ [file] := fun h =>
      heq (List.cons.inj (List.append_cancel_left h)).1
    rw [if_neg heq, inspect, inspect, hother.locateNode_join hname, h.locateNode_join hname, hget,
      if_neg hne]

end Files

end Disk

end TypeSketch
