import Mathlib.Data.Char
import TypeSketch.Proofs.Shape.Stream
import TypeSketch.Tree.Basic

/-!
# Canonical Lists of Shapes

The list that stands for a set of shapes is determined by which shapes are in it. Its
order is that of the keys, as words in a dictionary. A code tells all shapes apart and a
key ends with it, so no two shapes share a place in the order, whatever their digests are.

## Theorems

* `Shape.delimited_code`: A code can be read with anything behind it.
* `Shape.key_injective`: A key determines the shape.
* `Shape.canonical_eq_iff`: Lists that stand for one set.
* `TypeTree.unorderedShapes_congr`: The shapes of children, as a set.
-/

namespace TypeSketch

namespace Shape

section Codes

theorem delimited_textCode : Delimited textCode := by
  intro s t x y h
  rw [textCode, textCode, List.cons_append, List.cons_append, List.cons.injEq] at h
  have hlength : (s.toList.map Char.toNat).length = (t.toList.map Char.toNat).length := by
    rw [List.length_map, List.length_map, String.length_toList, String.length_toList, h.1]
  rcases List.append_inj h.2 hlength with ⟨hchars, hrest⟩
  refine ⟨String.toList_inj.mp ?_, hrest⟩
  exact List.map_injective_iff.mpr (fun _ _ => Char.toNat_inj.mp) hchars

theorem delimited_flag : Delimited fun flag : Bool => [if flag then 1 else 0] :=
  delimited_of_length (fun _ => rfl) fun a b h => by
    cases a <;> cases b <;> first | rfl | contradiction

theorem delimited_formCode : Delimited formCode := by
  intro f g x y h
  -- Forms of two kinds start with two numbers.
  cases f <;> cases g <;> first | (rw [formCode, formCode] at h; injection h; contradiction) | skip
  case scalar.scalar r r' =>
    rcases delimited_textCode (List.cons.inj h).2 with ⟨rfl, hrest⟩
    exact ⟨rfl, hrest⟩
  case record.record fields fields' =>
    have hbehind := (List.cons.inj h).2
    rcases List.cons.inj hbehind with ⟨hlength, hfields⟩
    rcases (delimited_textCode.pair delimited_flag).flatMap_append_inj hlength hfields with
      ⟨rfl, hrest⟩
    exact ⟨rfl, hrest⟩
  case mapping.mapping keyTypes keyTypes' =>
    have hbehind := (List.cons.inj h).2
    rcases List.cons.inj hbehind with ⟨hlength, hkeys⟩
    rcases delimited_textCode.flatMap_append_inj hlength hkeys with ⟨rfl, hrest⟩
    exact ⟨rfl, hrest⟩
  case set.set frozen frozen' =>
    rcases delimited_flag (List.cons.inj h).2 with ⟨rfl, hrest⟩
    exact ⟨rfl, hrest⟩
  all_goals exact ⟨rfl, (List.cons.inj h).2⟩

theorem partsCode_eq_flatMap (parts : List Shape) : partsCode parts = parts.flatMap code := by
  induction parts with
  | nil => rfl
  | cons part rest ih => rw [partsCode, ih, List.flatMap_cons]

/-- A code can be read with anything behind it. -/
theorem delimited_code : Delimited code := by
  intro a
  induction a with
  | node form parts ih =>
    rintro ⟨form', parts'⟩ x y h
    rw [code, code, List.append_assoc, List.append_assoc] at h
    rcases delimited_formCode h with ⟨rfl, hparts⟩
    rcases List.cons.inj hparts with ⟨hlength, hbehind⟩
    rw [partsCode_eq_flatMap, partsCode_eq_flatMap] at hbehind
    rcases flatMap_append_inj_of_mem (fun part hpart b _ _ hcode => ih part hpart hcode) hlength
      hbehind with ⟨rfl, hrest⟩
    exact ⟨rfl, hrest⟩

theorem key_injective {a b : Shape} (h : a.key = b.key) : a = b :=
  (delimited_code (congrArg (· ++ []) (List.cons.inj h).2)).1

end Codes

section Order

theorem isAtMost_cons {a b : Nat} {as bs : List Nat} :
    isAtMost (a :: as) (b :: bs) = true ↔ a < b ∨ a = b ∧ isAtMost as bs = true := by
  rw [isAtMost, Bool.or_eq_true, Bool.and_eq_true, decide_eq_true_eq, decide_eq_true_eq]

theorem isAtMost_trans {as bs cs : List Nat} (h : isAtMost as bs = true)
    (h' : isAtMost bs cs = true) :
    isAtMost as cs = true := by
  induction as generalizing bs cs with
  | nil => rfl
  | cons a as ih =>
    cases bs with
    | nil => contradiction
    | cons b bs =>
      cases cs with
      | nil => contradiction
      | cons c cs =>
        rw [isAtMost_cons] at h h' ⊢
        rcases h with hab | ⟨rfl, hrest⟩
        · exact Or.inl (h'.elim (Nat.lt_trans hab) fun heq => heq.1 ▸ hab)
        · exact h'.imp_right fun heq => ⟨heq.1, ih hrest heq.2⟩

theorem isAtMost_total (as bs : List Nat) : (isAtMost as bs || isAtMost bs as) = true := by
  induction as generalizing bs with
  | nil => rfl
  | cons a as ih =>
    cases bs with
    | nil => rfl
    | cons b bs =>
      rw [Bool.or_eq_true, isAtMost_cons, isAtMost_cons]
      rcases Nat.lt_trichotomy a b with hab | rfl | hab
      · exact Or.inl (Or.inl hab)
      · exact ((Bool.or_eq_true _ _).mp (ih bs)).imp (fun h => Or.inr ⟨rfl, h⟩) fun h =>
          Or.inr ⟨rfl, h⟩
      · exact Or.inr (Or.inl hab)

theorem isAtMost_antisymm {as bs : List Nat} (h : isAtMost as bs = true)
    (h' : isAtMost bs as = true) :
    as = bs := by
  induction as generalizing bs with
  | nil =>
    cases bs with
    | nil => rfl
    | cons b bs => contradiction
  | cons a as ih =>
    cases bs with
    | nil => contradiction
    | cons b bs =>
      rw [isAtMost_cons] at h h'
      rcases h with hab | ⟨rfl, hrest⟩
      · exact absurd hab (h'.elim Nat.lt_asymm fun heq => heq.1 ▸ Nat.lt_irrefl _)
      · rw [ih hrest (h'.resolve_left (Nat.lt_irrefl _)).2]

end Order

section Canonical

variable {shapes others : List Shape}

theorem perm_canonical (shapes : List Shape) : (canonical shapes).Perm (distinct shapes) := by
  have hperm := (perm_sortBy (fun a b => isAtMost a.1 b.1)
    ((distinct shapes).map fun shape => (shape.key, shape))).map (·.2)
  rwa [List.map_map, show (·.2) ∘ (fun shape : Shape => (shape.key, shape)) = id from rfl,
    List.map_id] at hperm

theorem nodup_canonical (shapes : List Shape) : (canonical shapes).Nodup :=
  (perm_canonical shapes).nodup_iff.mpr (nodup_distinct shapes)

theorem ascending_canonical (shapes : List Shape) :
    (canonical shapes).Pairwise fun a b => isAtMost a.key b.key = true := by
  have hsorted := @pairwise_sortBy _ (fun a b : List Nat × Shape => isAtMost a.1 b.1)
    (fun _ _ _ => isAtMost_trans) (fun a b => isAtMost_total a.1 b.1)
    ((distinct shapes).map fun shape => (shape.key, shape))
  refine List.pairwise_map.mpr (hsorted.imp_of_mem fun {a b} ha hb hle => ?_)
  -- What is sorted comes with its key.
  have hkey : ∀ entry ∈ sortBy (fun a b => isAtMost a.1 b.1)
      ((distinct shapes).map fun shape => (shape.key, shape)), entry.1 = entry.2.key := by
    intro entry hentry
    rcases List.mem_map.mp (mem_sortBy.mp hentry) with ⟨shape, _, rfl⟩
    rfl
  rw [← hkey a ha, ← hkey b hb]
  exact hle

/-- Ascending lists of the same shapes are the same. -/
theorem eq_of_ascending (hperm : shapes.Perm others)
    (hshapes : shapes.Pairwise fun a b => isAtMost a.key b.key = true)
    (hothers : others.Pairwise fun a b => isAtMost a.key b.key = true) : shapes = others :=
  hperm.eq_of_pairwise (fun _ _ _ _ hab hba =>
    key_injective (isAtMost_antisymm hab hba)) hshapes hothers

/-- Two lists stand for one set if and only if the same shapes are in them. -/
theorem canonical_eq_iff : canonical shapes = canonical others ↔ ∀ a, a ∈ shapes ↔ a ∈ others := by
  constructor
  · intro h a
    rw [← mem_canonical, h, mem_canonical]
  · intro h
    have hperm : (canonical shapes).Perm (canonical others) := by
      refine (perm_canonical shapes).trans (List.Perm.trans ?_ (perm_canonical others).symm)
      refine (List.perm_ext_iff_of_nodup (nodup_distinct _) (nodup_distinct _)).mpr fun a => ?_
      rw [mem_distinct, mem_distinct, h]
    exact eq_of_ascending hperm (ascending_canonical shapes) (ascending_canonical others)

/-- The shapes that are left after absorption depend on the set of shapes only. -/
theorem absorbIntegers_congr (h : ∀ a, a ∈ shapes ↔ a ∈ others) (a : Shape) :
    a ∈ absorbIntegers shapes ↔ a ∈ absorbIntegers others := by
  simp only [mem_absorbIntegers, h]

end Canonical

end Shape

namespace TypeTree

/-- Where number and order of children do not matter, the shape is that of the set of their
    shapes. -/
theorem unorderedShapes_congr {trees others : List TypeTree}
    (h : ∀ a, a ∈ trees.map shape ↔ a ∈ others.map shape) :
    unorderedShapes trees = unorderedShapes others :=
  Shape.canonical_eq_iff.mpr (Shape.absorbIntegers_congr h)

end TypeTree

end TypeSketch
