import TypeSketch.Proofs.Lists.FirstOccurrences
import TypeSketch.Proofs.Tree.Siblings

/-!
# Numbers of Siblings

Which number an element of a sequence gets. The table of the names given so far holds the
digests of the elements gone through that are called so, in the order in which they first
appear. It only grows, and at its end, so the place of a digest among those of its name is
the same in all later tables. Hence the numbers can be read off the elements as a whole: an
element has the place of its digest among those that are called as it is.

Which digests are called so does not depend on the order of the elements, and so neither do
the numbers that are given under a name. Which digest gets which number does.

## Main definitions

* `TypeTree.given`: The digests in a table under a name.
* `TypeTree.withOrdinal`: A node with its number, and `TypeTree.ordinalName` its name.
* `TypeTree.digestsCalled`: The digests of the elements of a name.
* `TypeTree.IsLedger`: What the last table says of the elements.

## Theorems

* `TypeTree.ordinal_spec`: One step of numbering.
* `TypeTree.forall₂_isNumberedBy`: The number of each element.
* `TypeTree.exists_ledger`: All elements are numbered by one table.
* `TypeTree.mergeSimilar_eq_self`: Elements that cannot be merged.
* `TypeTree.dropRepeated_eq_firstsBy`, `TypeTree.nodup_dropRepeated`: No digest is left twice.
-/

namespace TypeSketch

namespace TypeTree

/-- The digests that a name has been given to. -/
def given (name : String) : NamedDigests → List UInt64
  | [] => []
  | (other, digests) :: rest => if other = name then digests else given name rest

/-- A name with a number behind it, from the second one on. -/
def ordinalName (name : String) (i : Nat) : String :=
  if i = 0 then name else name ++ toString (i + 1)

/-- A node with its number. -/
def withOrdinal (t : TypeTree) (i : Nat) : TypeTree :=
  if i = 0 then t else t.rename (t.name ++ toString (i + 1))

theorem name_withOrdinal (t : TypeTree) (i : Nat) :
    (t.withOrdinal i).name = ordinalName t.name i := by
  unfold withOrdinal ordinalName
  split
  · rfl
  · rw [name_rename]

theorem shape_withOrdinal (t : TypeTree) (i : Nat) : (t.withOrdinal i).shape = t.shape := by
  unfold withOrdinal
  split
  · rfl
  · rw [shape_rename]

theorem digest_withOrdinal (t : TypeTree) (i : Nat) : (t.withOrdinal i).digest = t.digest :=
  congrArg Shape.digest (shape_withOrdinal t i)

theorem isAliased_withOrdinal (s : Strategies) (t : TypeTree) (i : Nat) :
    (t.withOrdinal i).isAliased s = t.isAliased s := by
  unfold withOrdinal
  split
  · rfl
  · rw [isAliased_rename]

section Ordinals

/-- One step of numbering where the name is that of the first row: the others stay as they
    are. -/
theorem ordinal_spec_first (name : String) (digest : UInt64) (digests : List UInt64)
    (rest : NamedDigests) :
    (∀ other, given other (ordinal name digest ((name, digests) :: rest)).2 =
      if other = name ∧ digest ∉ digests then digests ++ [digest]
      else given other ((name, digests) :: rest)) ∧
    (ordinal name digest ((name, digests) :: rest)).1 =
      (given name (ordinal name digest ((name, digests) :: rest)).2).idxOf digest := by
  -- A new digest goes to the end of the list, and one that is there keeps its place.
  cases hplace : digests.idxOf? digest with
  | none =>
    -- The number is the length of the list, which is where the digest stands from now on.
    have hfresh : digest ∉ digests := List.idxOf?_eq_none_iff.mp hplace
    have hordinal : ordinal name digest ((name, digests) :: rest) =
        (digests.length, (name, digests ++ [digest]) :: rest) := by
      rw [ordinal, if_pos rfl, hplace]
    rw [hordinal]
    refine ⟨fun other => ?_, ?_⟩
    · by_cases heq : other = name
      · rw [if_pos ⟨heq, hfresh⟩, given, if_pos heq.symm]
      · rw [if_neg fun h => heq h.1, given, given, if_neg (Ne.symm heq), if_neg (Ne.symm heq)]
    · rw [given, if_pos rfl, List.idxOf_append_of_notMem hfresh, List.idxOf_cons_self, Nat.add_zero]
  | some i =>
    have hmem : digest ∈ digests := by
      by_contra hfresh
      rw [List.idxOf?_eq_none_iff.mpr hfresh] at hplace
      contradiction
    have hordinal : ordinal name digest ((name, digests) :: rest) = (i, (name, digests) :: rest) := by
      rw [ordinal, if_pos rfl, hplace]
    rw [hordinal]
    refine ⟨fun other => (if_neg fun h => h.2 hmem).symm, ?_⟩
    rw [given, if_pos rfl, List.idxOf_eq_getD_idxOf?, hplace, Option.getD_some]

/-- One step of numbering: the digest is put behind the others of its name, unless it is
    among them, and its number is its place there. -/
theorem ordinal_spec (name : String) (digest : UInt64) (table : NamedDigests) :
    (∀ other, given other (ordinal name digest table).2 =
      if other = name ∧ digest ∉ given name table then given name table ++ [digest]
      else given other table) ∧
    (ordinal name digest table).1 = (given name (ordinal name digest table).2).idxOf digest := by
  induction table with
  | nil =>
    refine ⟨fun other => ?_, ?_⟩
    · by_cases heq : other = name
      · rw [if_pos ⟨heq, List.not_mem_nil⟩]
        exact if_pos heq.symm
      · rw [if_neg fun h => heq h.1]
        exact if_neg (Ne.symm heq)
    · rw [ordinal, given, if_pos rfl, List.idxOf_cons_self]
  | cons first rest ih =>
    rcases first with ⟨known, digests⟩
    -- The first entry is the one of the name, or it is passed over.
    by_cases hknown : known = name
    · subst hknown
      have hgiven : given known ((known, digests) :: rest) = digests := if_pos rfl
      rw [hgiven]
      exact ordinal_spec_first known digest digests rest
    · have hgiven : given name ((known, digests) :: rest) = given name rest := if_neg hknown
      have hordinal : ordinal name digest ((known, digests) :: rest) =
          ((ordinal name digest rest).1, (known, digests) :: (ordinal name digest rest).2) := by
        rw [ordinal, if_neg hknown]
      rw [hordinal, hgiven]
      refine ⟨fun other => ?_, ?_⟩
      -- The entry that was passed over is asked for, or one of the rest.
      · rw [given, given]
        by_cases heq : known = other
        · rw [if_pos heq, if_pos heq, if_neg]
          exact fun h => hknown (heq.trans h.1)
        · rw [if_neg heq, if_neg heq, ih.1]
      · rw [given, if_neg hknown]
        exact ih.2

/-- The digests of the elements that get a declaration and have a name, each at its first
    appearance. -/
def digestsCalled (s : Strategies) (trees : List TypeTree) (name : String) : List UInt64 :=
  (firstsBy digest (trees.filter fun t => t.isAliased s && t.name = name)).map digest

section Called

variable {s : Strategies} {trees : List TypeTree} {t : TypeTree}

theorem mem_digestsCalled {name : String} {digest : UInt64} : digest ∈ digestsCalled s trees name ↔
    ∃ t ∈ trees, t.isAliased s = true ∧ t.name = name ∧ t.digest = digest := by
  rw [digestsCalled, mem_map_firstsBy]
  simp only [List.mem_map, List.mem_filter, Bool.and_eq_true, decide_eq_true_eq, and_assoc]

theorem nodup_digestsCalled (s : Strategies) (trees : List TypeTree) (name : String) :
    (digestsCalled s trees name).Nodup :=
  nodup_map_firstsBy digest _

theorem digestsCalled_concat_of_not_isAliased (h : ¬t.isAliased s = true) (name : String) :
    digestsCalled s (trees ++ [t]) name = digestsCalled s trees name := by
  rw [digestsCalled, List.filter_append, List.filter_cons_of_neg, List.filter_nil, List.append_nil,
    digestsCalled]
  rw [Bool.and_eq_true]
  exact fun hboth => h hboth.1

/-- One more element puts its digest behind the others of its name, unless it is among them. -/
theorem digestsCalled_concat_of_isAliased (h : t.isAliased s = true) (name : String) :
    digestsCalled s (trees ++ [t]) name =
      if name = t.name ∧ t.digest ∉ digestsCalled s trees t.name then
        digestsCalled s trees t.name ++ [t.digest]
      else digestsCalled s trees name := by
  by_cases hname : name = t.name
  · rw [hname, digestsCalled, List.filter_append, List.filter_cons_of_pos (by simpa using h),
      List.filter_nil, firstsBy_concat]
    by_cases hknown : t.digest ∈ digestsCalled s trees t.name
    · rw [if_pos (mem_map_firstsBy.mp hknown), if_neg fun hfresh => hfresh.2 hknown, digestsCalled]
    · rw [if_neg fun hmem => hknown (mem_map_firstsBy.mpr hmem), if_pos ⟨rfl, hknown⟩,
        List.map_append, digestsCalled]
      rfl
  · rw [if_neg fun hfresh => hname hfresh.1, digestsCalled, List.filter_append,
      List.filter_cons_of_neg, List.filter_nil, List.append_nil, digestsCalled]
    rw [Bool.and_eq_true, decide_eq_true_eq]
    exact fun hboth => hname hboth.2.symm

theorem exists_digestsCalled_append (s : Strategies) (trees more : List TypeTree) (name : String) :
    ∃ rest, digestsCalled s (trees ++ more) name = digestsCalled s trees name ++ rest := by
  rw [digestsCalled, List.filter_append, firstsBy_append, List.map_append, digestsCalled]
  exact ⟨_, rfl⟩

end Called

/-- An element gets the place of its digest in a table of names, if it is numbered at all. -/
def IsNumberedBy (s : Strategies) (table : String → List UInt64) (t u : TypeTree) : Prop :=
  u = if t.isAliased s then t.withOrdinal ((table t.name).idxOf t.digest) else t

/-- What the last table says of the elements: under a name it has the digests of those that
    are called so and get a declaration, each of them once. -/
structure IsLedger (s : Strategies) (trees : List TypeTree) (table : String → List UInt64) :
    Prop where
  nodup : ∀ name, (table name).Nodup
  mem_iff : ∀ name digest, digest ∈ table name ↔
    ∃ t ∈ trees, t.isAliased s = true ∧ t.name = name ∧ t.digest = digest

/-- The elements behind others are numbered by the digests that are called so among all of them,
    if the table has those of the others. -/
theorem forall₂_isNumberedBy_disambiguateFrom (s : Strategies) (table : NamedDigests)
    (before trees : List TypeTree) (h : ∀ name, given name table = digestsCalled s before name) :
    List.Forall₂ (IsNumberedBy s (digestsCalled s (before ++ trees))) trees
      (disambiguateFrom s table trees) := by
  -- The induction is on the trees that are left, with a table for those before them.
  induction trees generalizing before table with
  | nil => exact List.Forall₂.nil
  | cons t rest ih =>
    rw [List.append_cons]
    by_cases haliased : t.isAliased s = true
    · have hnext : ∀ name, given name (ordinal t.name t.digest table).2 =
          digestsCalled s (before ++ [t]) name := by
        intro name
        rw [(ordinal_spec t.name t.digest table).1, digestsCalled_concat_of_isAliased haliased,
          h t.name, h name]
      -- The digest has its place already, and at the end it has the same one.
      have hmem : t.digest ∈ digestsCalled s (before ++ [t]) t.name :=
        mem_digestsCalled.mpr ⟨t, List.mem_append_right _ List.mem_cons_self, haliased, rfl, rfl⟩
      have hplace : (digestsCalled s (before ++ [t] ++ rest) t.name).idxOf t.digest =
          (ordinal t.name t.digest table).1 := by
        rcases exists_digestsCalled_append s (before ++ [t]) rest t.name with ⟨more, hmore⟩
        rw [hmore, List.idxOf_append_of_mem hmem, ← hnext, (ordinal_spec t.name t.digest table).2]
      rw [disambiguateFrom, if_pos haliased]
      refine List.Forall₂.cons ?_ (ih _ _ hnext)
      rw [IsNumberedBy, if_pos haliased, hplace]
      rfl
    · rw [disambiguateFrom, if_neg haliased]
      refine List.Forall₂.cons ?_ (ih _ _ fun name => ?_)
      · rw [IsNumberedBy, if_neg haliased]
      · rw [h name, digestsCalled_concat_of_not_isAliased haliased]

/-- An element is numbered by the digests that are called as it is. -/
theorem forall₂_isNumberedBy (s : Strategies) (trees : List TypeTree) :
    List.Forall₂ (IsNumberedBy s (digestsCalled s trees)) trees (disambiguate s trees) :=
  forall₂_isNumberedBy_disambiguateFrom s [] [] trees fun _ => rfl

/-- All elements are numbered by one table. -/
theorem exists_ledger (s : Strategies) (trees : List TypeTree) :
    ∃ table, IsLedger s trees table ∧
      List.Forall₂ (IsNumberedBy s table) trees (disambiguate s trees) :=
  ⟨digestsCalled s trees, ⟨nodup_digestsCalled s trees, fun _ _ => mem_digestsCalled⟩,
    forall₂_isNumberedBy s trees⟩

end Ordinals

section Merging

variable {s : Strategies} {similarity : Nat} {trees : List TypeTree}

theorem dropSeen_eq_firstsBy (seen : List UInt64) (trees : List TypeTree) :
    dropSeen seen trees = firstsBy digest (trees.filter (·.digest ∉ seen)) := by
  induction trees generalizing seen with
  | nil => rfl
  | cons t rest ih =>
    rw [dropSeen]
    by_cases hseen : t.digest ∈ seen
    · rw [if_pos (List.contains_iff_mem.mpr hseen), ih, List.filter_cons_of_neg (by simpa using hseen)]
    · rw [if_neg fun hmem => hseen (List.contains_iff_mem.mp hmem), ih,
        List.filter_cons_of_pos (by simpa using hseen), firstsBy_cons, List.filter_filter]
      simp only [List.mem_cons, not_or, Bool.decide_and]

/-- The elements of which one is left for each digest are the first ones. -/
theorem dropRepeated_eq_firstsBy (trees : List TypeTree) :
    dropRepeated trees = firstsBy digest trees := by
  rw [dropRepeated, dropSeen_eq_firstsBy, List.filter_eq_self.mpr]
  simp

/-- No digest is left twice. -/
theorem nodup_dropRepeated (trees : List TypeTree) : ((dropRepeated trees).map digest).Nodup := by
  rw [dropRepeated_eq_firstsBy]
  exact nodup_map_firstsBy digest trees

theorem dropSeen_eq_self {seen : List UInt64} (hnodup : (trees.map digest).Nodup)
    (hfresh : ∀ t ∈ trees, t.digest ∉ seen) : dropSeen seen trees = trees := by
  rw [dropSeen_eq_firstsBy, List.filter_eq_self.mpr fun t ht => decide_eq_true (hfresh t ht),
    firstsBy_eq_self hnodup]

/-- Elements of different digests stay as they are if none can be merged into another. -/
theorem mergeSimilar_eq_self (hnodup : (trees.map digest).Nodup)
    (hnone : ∀ t ∈ trees, ∀ u ∈ trees, t.digest ≠ u.digest → t.merge? similarity u = none) :
    mergeSimilar similarity trees = trees := by
  have hfold : ∀ rest kept : List TypeTree, trees = kept ++ rest →
      rest.foldl (fun kept t => place similarity t kept) kept = kept ++ rest := by
    intro rest
    induction rest with
    | nil => exact fun kept _ => (List.append_nil kept).symm
    | cons t rest ih =>
      intro kept htrees
      have ht : t ∈ trees := by
        rw [htrees]
        exact List.mem_append_right _ List.mem_cons_self
      -- A kept element is another one, so its digest is another one, too.
      have hkept : ∀ u ∈ kept, u.merge? similarity t = none := by
        intro u hu
        refine hnone u (by rw [htrees]; exact List.mem_append_left _ hu) t ht fun heq => ?_
        rw [htrees, List.map_append, List.nodup_append] at hnodup
        exact hnodup.2.2 u.digest (List.mem_map_of_mem hu) t.digest
          (List.mem_map_of_mem List.mem_cons_self) heq
      -- So the element is taken by none of them and goes to the end.
      have hplace : place similarity t kept = kept ++ [t] := by
        rcases place_cases similarity t kept with
          ⟨before, target, after, merged, hsplit, _, hm, _⟩ | ⟨_, hresult⟩
        · rw [← merge?_eq_some_iff, hkept target (by rw [hsplit]; simp)] at hm
          contradiction
        · exact hresult
      rw [List.foldl_cons, hplace, ih (kept ++ [t]) (by rw [htrees, List.append_assoc]; rfl),
        List.append_assoc]
      rfl
  rw [mergeSimilar, hfold trees [] rfl, List.nil_append]
  exact dropSeen_eq_self hnodup fun _ _ => List.not_mem_nil

end Merging

end TypeTree

end TypeSketch
