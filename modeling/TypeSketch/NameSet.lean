/-!
# Sets of Names

A finite set of names as the list of its members in ascending order. The order is
that of the code points, which is also that of the bytes in UTF-8. The list is
strictly ascending by construction, so two sets with the same members are equal,
and printing a set never needs a sort.

## Main definitions

* `NameSet`: A set of names.
* `NameSet.insert`, `NameSet.union`, `NameSet.ofList`: Building sets.
* `NameSet.symmetricDifference`: The names that are in one of two sets only.

## Theorems

* `NameSet.mem_insert`, `NameSet.mem_ofList`, `NameSet.mem_union`,
  `NameSet.mem_symmetricDifference`: The members of what is built.
* `NameSet.ext_mem`: Sets with the same members are equal.
-/

namespace TypeSketch

/-- A set of names, as its members in ascending order. -/
structure NameSet where
  names : List String
  ascending : names.Pairwise (· < ·)
deriving Repr, DecidableEq

namespace NameSet

instance : Membership String NameSet := ⟨fun s name => name ∈ s.names⟩

/-- The names with one more, at its place. -/
def insertName (name : String) : List String → List String
  | [] => [name]
  | first :: rest =>
    if name < first then name :: first :: rest
    else if name = first then first :: rest
    else first :: insertName name rest

theorem mem_insertName {name other : String} {names : List String} :
    other ∈ insertName name names ↔ other = name ∨ other ∈ names := by
  induction names with
  | nil => simp [insertName]
  | cons first rest ih =>
    rw [insertName]
    split
    · simp
    · split
      · next h => simp [h]
      · simp [ih, or_left_comm]

theorem ascending_insertName {name : String} {names : List String}
    (h : names.Pairwise (· < ·)) : (insertName name names).Pairwise (· < ·) := by
  induction names with
  | nil => simp [insertName]
  | cons first rest ih =>
    obtain ⟨hfirst, hrest⟩ := List.pairwise_cons.mp h
    rw [insertName]
    split
    · next hlt =>
      refine List.pairwise_cons.mpr ⟨fun other hother => ?_, h⟩
      rcases List.mem_cons.mp hother with rfl | hmem
      · exact hlt
      · exact String.lt_trans hlt (hfirst other hmem)
    · next hge =>
      split
      · exact h
      · next hne =>
        refine List.pairwise_cons.mpr ⟨fun other hother => ?_, ih hrest⟩
        rcases mem_insertName.mp hother with rfl | hmem
        · exact Std.lt_of_le_of_ne (String.not_lt.mp hge) (fun heq => hne heq.symm)
        · exact hfirst other hmem

/-- The set without members. -/
def empty : NameSet := ⟨[], .nil⟩

instance : EmptyCollection NameSet := ⟨empty⟩

instance : Inhabited NameSet := ⟨empty⟩

/-- The set with one more member. -/
def insert (s : NameSet) (name : String) : NameSet :=
  ⟨insertName name s.names, ascending_insertName s.ascending⟩

theorem mem_insert {s : NameSet} {name other : String} :
    other ∈ s.insert name ↔ other = name ∨ other ∈ s :=
  mem_insertName

theorem not_mem_empty (name : String) : name ∉ empty := List.not_mem_nil

/-- The set with the names of a list as well. -/
def insertAll (s : NameSet) (names : List String) : NameSet :=
  names.foldl insert s

theorem mem_insertAll {s : NameSet} {names : List String} {other : String} :
    other ∈ s.insertAll names ↔ other ∈ names ∨ other ∈ s := by
  induction names generalizing s with
  | nil => simp [insertAll]
  | cons first rest ih =>
    have hstep : s.insertAll (first :: rest) = (s.insert first).insertAll rest := rfl
    rw [hstep, ih, mem_insert, List.mem_cons, or_left_comm, or_assoc]

/-- The set of the names of a list. -/
def ofList (names : List String) : NameSet :=
  empty.insertAll names

theorem mem_ofList {names : List String} {other : String} :
    other ∈ ofList names ↔ other ∈ names := by
  rw [ofList, mem_insertAll, or_iff_left (not_mem_empty other)]

/-- The members of either set. -/
def union (s t : NameSet) : NameSet :=
  s.insertAll t.names

theorem mem_union {s t : NameSet} {other : String} : other ∈ s.union t ↔ other ∈ t ∨ other ∈ s :=
  mem_insertAll

def contains (s : NameSet) (name : String) : Bool :=
  s.names.contains name

theorem contains_iff {s : NameSet} {name : String} : s.contains name = true ↔ name ∈ s :=
  List.contains_iff_mem

theorem contains_eq_false_iff {s : NameSet} {name : String} :
    s.contains name = false ↔ name ∉ s := by
  rw [← contains_iff, Bool.not_eq_true]

/-- The set without a name. -/
def erase (s : NameSet) (name : String) : NameSet :=
  ⟨s.names.filter (· ≠ name), s.ascending.filter _⟩

/-- The names that are members of one of the two sets only. -/
def symmetricDifference (s t : NameSet) : List String :=
  s.names.filter (!t.contains ·) ++ t.names.filter (!s.contains ·)

theorem mem_symmetricDifference {s t : NameSet} {name : String} :
    name ∈ s.symmetricDifference t ↔ (name ∈ s ∧ name ∉ t) ∨ (name ∈ t ∧ name ∉ s) := by
  simp only [symmetricDifference, List.mem_append, List.mem_filter, Bool.not_eq_true',
    contains_eq_false_iff]
  rfl

/-- Sets with the same members are equal: an ascending list is determined by what is
    in it. -/
theorem ext_mem {s t : NameSet} (h : ∀ name, name ∈ s ↔ name ∈ t) : s = t := by
  obtain ⟨ns, hs⟩ := s
  obtain ⟨ms, ht⟩ := t
  have hperm : ns.Perm ms :=
    (List.perm_ext_iff_of_nodup (hs.imp String.ne_of_lt) (ht.imp String.ne_of_lt)).mpr h
  have heq : ns = ms := hperm.eq_of_pairwise
    (fun _ _ _ _ hab hba => absurd (String.lt_trans hab hba) (String.lt_irrefl _)) hs ht
  subst heq
  rfl

end NameSet

end TypeSketch
