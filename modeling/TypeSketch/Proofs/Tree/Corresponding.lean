import TypeSketch.Proofs.Tree.Siblings

/-!
# Corresponding Siblings

The passes over the elements of a sequence in two runs, where the elements correspond one by
one. If no pass can tell an element from its partner, it does the same on both sides, and
what it leaves corresponds again.

Elements are dropped by their digests, and records are merged by digests and keys; names do
not matter there. They do where elements are numbered: two of them must have one name on
both sides or on none.

## Main definitions

* `TypeTree.IsCorrespondence`: A relation that no pass can tell.

## Theorems

* `TypeTree.forall₂_mergeSimilar`: Dropping and merging.
* `TypeTree.IsCorrespondence.forall₂_arrange`: All passes.
-/

namespace TypeSketch

namespace TypeTree

section Merging

variable {R : TypeTree → TypeTree → Prop} {similarity : Nat}

theorem forall₂_dropSeen (hdigest : ∀ t u, R t u → t.digest = u.digest) {seen : List UInt64}
    {ts us : List TypeTree} (h : List.Forall₂ R ts us) :
    List.Forall₂ R (dropSeen seen ts) (dropSeen seen us) := by
  induction h generalizing seen with
  | nil => exact List.Forall₂.nil
  | cons htu _ ih =>
    rw [dropSeen, dropSeen, hdigest _ _ htu]
    split
    · exact ih
    · exact List.Forall₂.cons htu ih

variable (hmerge : ∀ a a' b b', R a a' → R b b' →
  Option.Rel R (a.merge? similarity b) (a'.merge? similarity b'))

include hmerge

theorem forall₂_place {t u : TypeTree} (htu : R t u) {kept kept' : List TypeTree}
    (h : List.Forall₂ R kept kept') :
    List.Forall₂ R (place similarity t kept) (place similarity u kept') := by
  induction h with
  | nil => exact List.Forall₂.cons htu List.Forall₂.nil
  | @cons a b rest rest' hab hrest ih =>
    rw [place, place]
    have hboth := hmerge a b t u hab htu
    generalize a.merge? similarity t = m, b.merge? similarity u = m' at hboth
    cases hboth with
    | some hmm' => exact List.Forall₂.cons hmm' hrest
    | none => exact List.Forall₂.cons hab ih

theorem forall₂_mergeSimilar (hdigest : ∀ t u, R t u → t.digest = u.digest) {ts us : List TypeTree}
    (h : List.Forall₂ R ts us) :
    List.Forall₂ R (mergeSimilar similarity ts) (mergeSimilar similarity us) := by
  -- The fold begins with any corresponding elements kept so far.
  have hfold : ∀ {kept kept' : List TypeTree}, List.Forall₂ R kept kept' →
      List.Forall₂ R (ts.foldl (fun kept t => place similarity t kept) kept)
        (us.foldl (fun kept t => place similarity t kept) kept') := by
    induction h with
    | nil => exact fun hkept => hkept
    | cons htu _ ih => exact fun hkept => ih (forall₂_place hmerge htu hkept)
  exact forall₂_dropSeen hdigest (hfold List.Forall₂.nil)

end Merging

/-- The trees of two runs correspond so that no pass over siblings can tell them. Which names
    correspond is left open, as long as different ones never correspond to one. -/
structure IsCorrespondence (s : Strategies) (SameName : String → String → Prop)
    (R : TypeTree → TypeTree → Prop) : Prop where
  digest_eq : ∀ t u, R t u → t.digest = u.digest
  isAliased_eq : ∀ t u, R t u → t.isAliased s = u.isAliased s
  sameName : ∀ t u, R t u → SameName t.name u.name
  name_eq_iff : ∀ n n' m m', SameName n n' → SameName m m' → (n = m ↔ n' = m')
  merge? : ∀ a a' b b', R a a' → R b b' →
    Option.Rel R (a.merge? s.similarity b) (a'.merge? s.similarity b')
  number : ∀ t u i, R t u → t.isAliased s = true →
    R (t.rename (t.name ++ toString (i + 1))) (u.rename (u.name ++ toString (i + 1)))

section Numbering

variable {s : Strategies} {SameName : String → String → Prop} {R : TypeTree → TypeTree → Prop}

/-- The number of a digest is the same in two tables whose rows correspond, and so they do
    with the digest in them. -/
theorem ordinal_related
    (hnames : ∀ n n' m m', SameName n n' → SameName m m' → (n = m ↔ n' = m'))
    {name name' : String} (hname : SameName name name') (digest : UInt64) {table table' : NamedDigests}
    (h : List.Forall₂ (fun r r' => SameName r.1 r'.1 ∧ r.2 = r'.2) table table') :
    (ordinal name digest table).1 = (ordinal name' digest table').1 ∧
      List.Forall₂ (fun r r' => SameName r.1 r'.1 ∧ r.2 = r'.2)
        (ordinal name digest table).2 (ordinal name' digest table').2 := by
  -- Names are looked up by being equal, and equal names correspond to equal names.
  induction h with
  | nil => exact ⟨rfl, List.Forall₂.cons ⟨hname, rfl⟩ List.Forall₂.nil⟩
  | @cons r r' rest rest' hr hrest ih =>
    rcases r with ⟨other, digests⟩
    rcases r' with ⟨other', digests'⟩
    rcases hr with ⟨hother, hdigests⟩
    change digests = digests' at hdigests
    subst hdigests
    rw [ordinal, ordinal]
    by_cases heq : other = name
    · rw [if_pos heq, if_pos ((hnames _ _ _ _ hother hname).mp heq)]
      cases digests.idxOf? digest with
      | some i => exact ⟨rfl, List.Forall₂.cons ⟨hother, rfl⟩ hrest⟩
      | none => exact ⟨rfl, List.Forall₂.cons ⟨hother, rfl⟩ hrest⟩
    · rw [if_neg heq, if_neg (mt (hnames _ _ _ _ hother hname).mpr heq)]
      exact ⟨ih.1, List.Forall₂.cons ⟨hother, rfl⟩ ih.2⟩

theorem IsCorrespondence.forall₂_disambiguate (hR : IsCorrespondence s SameName R)
    {ts us : List TypeTree} (h : List.Forall₂ R ts us) :
    List.Forall₂ R (disambiguate s ts) (disambiguate s us) := by
  -- The numbering goes on with any two tables that correspond.
  have hfrom : ∀ {table table' : NamedDigests},
      List.Forall₂ (fun r r' => SameName r.1 r'.1 ∧ r.2 = r'.2) table table' →
      List.Forall₂ R (disambiguateFrom s table ts) (disambiguateFrom s table' us) := by
    induction h with
    | nil => exact fun _ => List.Forall₂.nil
    | @cons t u _ _ htu _ ih =>
      intro table table' htable
      rw [disambiguateFrom, disambiguateFrom, ← hR.isAliased_eq t u htu, ← hR.digest_eq t u htu]
      split
      · next haliased =>
        have hordinal := ordinal_related hR.name_eq_iff (hR.sameName t u htu) t.digest htable
        dsimp only
        rw [← hordinal.1]
        refine List.Forall₂.cons ?_ (ih hordinal.2)
        split
        · exact htu
        · exact hR.number t u _ htu haliased
      · exact List.Forall₂.cons htu (ih htable)
  exact hfrom List.Forall₂.nil

/-- Corresponding elements are arranged alike. -/
theorem IsCorrespondence.forall₂_arrange (hR : IsCorrespondence s SameName R) (kind : ElementKind)
    {ts us : List TypeTree} (h : List.Forall₂ R ts us) :
    List.Forall₂ R (arrange s kind ts) (arrange s kind us) := by
  unfold arrange
  split
  · exact hR.forall₂_disambiguate h
  · exact hR.forall₂_disambiguate
      (forall₂_mergeSimilar hR.merge? hR.digest_eq (forall₂_dropSeen hR.digest_eq h))

end Numbering

end TypeTree

end TypeSketch
