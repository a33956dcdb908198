import Mathlib.Data.List.Nodup
import TypeSketch.Proofs.Files.Paths
import TypeSketch.Proofs.Names.Identifiers
import TypeSketch.Store.Basic

/-!
# Files of a Manifest

Which files a store with a manifest has in its directory: none before its first class, and
then the manifest, the index and a module for each class. A class is an identifier, so its
module has a name that stands for a file, and it stays in its place when it is set again.

## Main definitions

* `Manifest.files`: The files of a store with this manifest.
* `Manifest.IsSound`: What holds of every manifest that a store has made.

## Theorems

* `Manifest.mem_files_set`: The files after an entry has been set.
* `Manifest.entry?_set`: The entries after one has been set.
* `Manifest.IsSound.set`: Setting an entry keeps a manifest sound.
* `Manifest.IsSound.exists_index`: The index lists the classes in ascending order.
-/

namespace TypeSketch

namespace Json

theorem mem_setNamed {α : Type} {members : List (String × α)} {name : String} {a : α}
    {member : String × α} (h : member ∈ setNamed members name a) :
    member = (name, a) ∨ member ∈ members := by
  induction members with
  | nil => exact Or.inl (List.mem_singleton.mp h)
  | cons first rest ih =>
    rcases first with ⟨n, b⟩
    rw [setNamed] at h
    split at h
    · next heq =>
      rw [heq, List.mem_cons] at h
      exact h.imp_right (List.mem_cons_of_mem _)
    · rcases List.mem_cons.mp h with heq | hmem
      · exact Or.inr (heq ▸ List.mem_cons_self)
      · exact (ih hmem).imp_right (List.mem_cons_of_mem _)

/-- A name that is there keeps its place, and another comes last. -/
theorem map_fst_setNamed {α : Type} (members : List (String × α)) (name : String) (a : α) :
    (setNamed members name a).map (·.1) =
      if name ∈ members.map (·.1) then members.map (·.1) else members.map (·.1) ++ [name] := by
  induction members with
  | nil => rfl
  | cons first rest ih =>
    rcases first with ⟨n, b⟩
    rw [setNamed, List.map_cons]
    by_cases heq : n = name
    · rw [if_pos heq, if_pos (heq ▸ List.mem_cons_self)]
      rfl
    · rw [if_neg heq, List.map_cons, ih]
      -- The name stands behind the first one, or nowhere.
      by_cases hmem : name ∈ rest.map (·.1)
      · rw [if_pos hmem, if_pos (List.mem_cons_of_mem n hmem)]
      · have hcons : name ∉ n :: rest.map (·.1) := fun h =>
          (List.mem_cons.mp h).elim (fun h => heq h.symm) hmem
        rw [if_neg hmem, if_neg hcons]
        rfl

/-- What is found under a name after a member has been set. -/
theorem lookup_setNamed {α : Type} (members : List (String × α)) (name : String) (a : α)
    (other : String) :
    (setNamed members name a).lookup other =
      if other = name then some a else members.lookup other := by
  induction members with
  | nil => rw [setNamed, lookup_cons_ite]
  | cons first rest ih =>
    rcases first with ⟨n, b⟩
    rw [setNamed]
    -- The first member of that name is replaced, and the ones before it keep their place.
    by_cases hn : n = name
    · rw [if_pos hn, lookup_cons_ite, lookup_cons_ite, hn]
      by_cases heq : other = name
      · rw [if_pos heq, if_pos heq]
      · rw [if_neg heq, if_neg heq, if_neg heq]
    · rw [if_neg hn, lookup_cons_ite, lookup_cons_ite, ih]
      by_cases heq : other = n
      · rw [if_pos heq, if_pos heq, if_neg (heq ▸ hn)]
      · rw [if_neg heq, if_neg heq]

end Json

namespace Store

theorem isFileName_manifestFile : Path.IsFileName manifestFile :=
  ⟨by decide, by decide, by decide, by decide⟩

theorem isFileName_indexFile : Path.IsFileName indexFile :=
  ⟨by decide, by decide, by decide, by decide⟩

/-- The module of a class has a name that stands for a file. -/
theorem isFileName_moduleFile {className : String} (h : Naming.isIdentifier className = true) :
    Path.IsFileName (moduleFile className) := by
  have htoList : (moduleFile className).toList = className.toList ++ ".pyi".toList :=
    String.toList_append
  -- The texts that stand for no file are shorter than what the name ends in.
  have hlength (file : String) (hfile : file.toList.length < 4) : moduleFile className ≠ file := by
    rintro rfl
    rw [htoList, List.length_append] at hfile
    exact absurd hfile (Nat.not_lt.mpr (Nat.le_add_left 4 _))
  rcases Naming.isIdentifier_iff.mp h with ⟨⟨c, rest, hclass, hfirst⟩, hcontinues, _⟩
  refine ⟨fun hmem => ?_, hlength "" (by decide), hlength "." (by decide), hlength ".." (by decide)⟩
  rw [Naming.Continues, hclass, List.tail_cons] at hcontinues
  rw [htoList, hclass, List.mem_append, List.mem_cons] at hmem
  rcases hmem with (rfl | hrest) | hsuffix
  · rcases hfirst with hunderscore | hstart
    · exact absurd hunderscore (by decide)
    · exact absurd hstart (by decide)
  · exact absurd (hcontinues '/' hrest) (by decide)
  · exact absurd hsuffix (by decide)

/-- Different classes have different modules. -/
theorem moduleFile_inj {className other : String} :
    moduleFile className = moduleFile other ↔ className = other := by
  refine ⟨fun h => ?_, fun h => congrArg moduleFile h⟩
  have htoList := congrArg String.toList h
  rw [moduleFile, moduleFile, String.toList_append, String.toList_append] at htoList
  exact String.toList_inj.mp (List.append_cancel_right htoList)

/-- No module is called like the manifest. -/
theorem moduleFile_ne_manifestFile (className : String) : moduleFile className ≠ manifestFile := by
  intro h
  have hlast := congrArg (·.toList.getLast?) h
  rw [moduleFile, String.toList_append, List.getLast?_append_of_ne_nil _ (by decide)] at hlast
  exact absurd hlast (by decide)

/-- One class has a module that is called like the index. -/
theorem moduleFile_eq_indexFile_iff {className : String} :
    moduleFile className = indexFile ↔ className = "__init__" := by
  have hindex : indexFile = moduleFile "__init__" := by decide
  rw [hindex, moduleFile_inj]

end Store

namespace Manifest

open Store

/-- The files of a store with this manifest. -/
def files (m : Manifest) : List String :=
  if m.classes = [] then []
  else manifestFile :: indexFile :: m.classes.map fun c => moduleFile c.1

/-- The classes are different identifiers, and each entry names the module of its class. -/
structure IsSound (m : Manifest) : Prop where
  nodup : (m.classes.map (·.1)).Nodup
  isIdentifier : ∀ c ∈ m.classes, Naming.isIdentifier c.1 = true
  file_eq : ∀ c ∈ m.classes, c.2.file = moduleFile c.1

variable {m : Manifest} {file className : String} {e : ManifestEntry}

section Files

theorem mem_files : file ∈ m.files ↔ m.classes ≠ [] ∧
    (file = manifestFile ∨ file = indexFile ∨ ∃ c ∈ m.classes, file = moduleFile c.1) := by
  unfold files
  split
  · next hnil => simp [hnil]
  · next hne => simp [hne, eq_comm]

theorem set_classes_ne_nil (m : Manifest) (className : String) (e : ManifestEntry) :
    (m.set className e).classes ≠ [] := by
  intro hnil
  have hkeys := Json.map_fst_setNamed m.classes className e
  change (m.set className e).classes.map (·.1) = _ at hkeys
  rw [hnil] at hkeys
  split at hkeys
  · next hmem =>
    rw [← hkeys] at hmem
    exact List.not_mem_nil hmem
  · exact List.append_ne_nil_of_right_ne_nil _ (List.cons_ne_nil _ _) hkeys.symm

/-- The names of the classes after an entry has been set. -/
theorem mem_names_set {name : String} :
    name ∈ (m.set className e).classes.map (·.1) ↔
      name = className ∨ name ∈ m.classes.map (·.1) := by
  change name ∈ (Json.setNamed m.classes className e).map (·.1) ↔ _
  rw [Json.map_fst_setNamed]
  split
  · next hmem => exact ⟨Or.inr, fun h => h.elim (fun heq => heq ▸ hmem) id⟩
  · rw [List.mem_append, List.mem_singleton, or_comm]

/-- The files after an entry has been set. -/
theorem mem_files_set : file ∈ (m.set className e).files ↔
    file = manifestFile ∨ file = indexFile ∨ file = moduleFile className ∨ file ∈ m.files := by
  have hmodule (classes : List (String × ManifestEntry)) :
      (∃ c ∈ classes, file = moduleFile c.1) ↔
        ∃ name ∈ classes.map (·.1), file = moduleFile name := by
    simp
  -- The files are told by the names of the classes, and these are the old ones and the new one.
  rw [mem_files, mem_files, and_iff_right (set_classes_ne_nil m className e), hmodule, hmodule]
  constructor
  · rintro (hfile | hfile | ⟨name, hname, hfile⟩)
    · exact Or.inl hfile
    · exact Or.inr (Or.inl hfile)
    · rcases mem_names_set.mp hname with rfl | hmem
      · exact Or.inr (Or.inr (Or.inl hfile))
      -- A manifest with a class in it is not empty, so it has files of its own.
      · refine Or.inr (Or.inr (Or.inr ⟨fun hnil => ?_, Or.inr (Or.inr ⟨name, hmem, hfile⟩)⟩))
        rw [hnil] at hmem
        exact List.not_mem_nil hmem
  · rintro (hfile | hfile | hfile | ⟨_, hfile | hfile | ⟨name, hname, hfile⟩⟩)
    · exact Or.inl hfile
    · exact Or.inr (Or.inl hfile)
    · exact Or.inr (Or.inr ⟨className, mem_names_set.mpr (Or.inl rfl), hfile⟩)
    · exact Or.inl hfile
    · exact Or.inr (Or.inl hfile)
    · exact Or.inr (Or.inr ⟨name, mem_names_set.mpr (Or.inr hname), hfile⟩)

theorem IsSound.isFileName (h : m.IsSound) (hfile : file ∈ m.files) : Path.IsFileName file := by
  rcases (mem_files.mp hfile).2 with rfl | rfl | ⟨c, hc, rfl⟩
  · exact isFileName_manifestFile
  · exact isFileName_indexFile
  · exact isFileName_moduleFile (h.isIdentifier c hc)

end Files

section Soundness

theorem isSound_empty : IsSound {} := ⟨List.nodup_nil, by simp, by simp⟩

theorem IsSound.set (h : m.IsSound) (hclass : Naming.isIdentifier className = true)
    (hfile : e.file = moduleFile className) : (m.set className e).IsSound := by
  constructor
  · change ((Json.setNamed m.classes className e).map (·.1)).Nodup
    rw [Json.map_fst_setNamed]
    -- A class that is there keeps its place, and a new one comes last.
    split
    · exact h.nodup
    · next hnew =>
      refine List.nodup_append.mpr
        ⟨h.nodup, List.nodup_singleton _, fun name hname other hother => ?_⟩
      rw [List.mem_singleton.mp hother]
      exact fun heq => hnew (heq ▸ hname)
  · intro c hc
    rcases Json.mem_setNamed hc with rfl | hmem
    · exact hclass
    · exact h.isIdentifier c hmem
  · intro c hc
    rcases Json.mem_setNamed hc with rfl | hmem
    · exact hfile
    · exact h.file_eq c hmem

theorem not_mem_of_entry?_eq_none (h : m.entry? className = none) :
    className ∉ m.classes.map (·.1) := by
  intro hmem
  rcases List.mem_map.mp hmem with ⟨c, hc, rfl⟩
  exact bne_iff_ne.mp (List.lookup_eq_none_iff.mp h c hc) rfl

theorem mem_of_entry?_eq_some (h : m.entry? className = some e) : (className, e) ∈ m.classes :=
  mem_of_lookup_eq_some h

theorem names_set_of_entry?_eq_none (h : m.entry? className = none) (e : ManifestEntry) :
    (m.set className e).classes.map (·.1) = m.classes.map (·.1) ++ [className] :=
  (Json.map_fst_setNamed m.classes className e).trans (if_neg (not_mem_of_entry?_eq_none h))

theorem names_set_of_mem {old : ManifestEntry} (h : (className, old) ∈ m.classes)
    (e : ManifestEntry) :
    (m.set className e).classes.map (·.1) = m.classes.map (·.1) :=
  (Json.map_fst_setNamed m.classes className e).trans (if_pos (List.mem_map_of_mem h))

/-- The index lists the classes in ascending order. -/
theorem IsSound.exists_index (h : m.IsSound) (header : String) :
    ∃ names : List String, names.Perm (m.classes.map (·.1)) ∧ names.Pairwise (· < ·) ∧
      m.index header = header ++ "\n" ++
        String.join (names.map fun name => "from ." ++ name ++ " import " ++ name ++ "\n") ++
        "\n__all__ = [" ++
        ", ".intercalate (names.map fun name => "\"" ++ name ++ "\"") ++ "]\n" := by
  have hperm := List.mergeSort_perm (m.classes.map (·.1)) fun a b => decide (a ≤ b)
  refine ⟨_, hperm, ?_, rfl⟩
  have hsorted := @List.pairwise_mergeSort _ (fun a b : String => decide (a ≤ b))
    (fun a b c hab hbc => by
      rw [decide_eq_true_eq] at *
      exact String.le_trans hab hbc)
    (fun a b => by
      rw [Bool.or_eq_true, decide_eq_true_eq, decide_eq_true_eq]
      exact String.le_total a b)
    (m.classes.map (·.1))
  refine (hsorted.and (hperm.nodup_iff.mpr h.nodup)).imp fun ⟨hle, hne⟩ => ?_
  exact String.not_le.mp fun hge => hne (String.le_antisymm (of_decide_eq_true hle) hge)

end Soundness

/-- The entry of a class after one has been set. -/
theorem entry?_set (m : Manifest) (className : String) (e : ManifestEntry) (other : String) :
    entry? (m.set className e) other = if other = className then some e else m.entry? other :=
  Json.lookup_setNamed m.classes className e other

end Manifest

end TypeSketch
