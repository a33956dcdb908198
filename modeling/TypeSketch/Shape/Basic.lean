/-!
# Shapes

What a type tree is, up to the names and examples in it: two trees with one shape
stand for one type.

A shape is a form and the shapes of its parts. The parts of a record belong to its
fields, which are in ascending order of their names. The parts of a tuple of fixed
size are in the order of its positions. All other forms have a set of parts, and
`Shape.canonical` gives the list that stands for a set. A tuple of any size has the
same form as one of fixed size: it is the tuple of its distinct parts.

## Main definitions

* `Form`, `Shape`: Shapes.
* `Shape.scalar`, `Shape.isScalarNamed`: Shapes without parts.
* `Shape.same`: Equality of shapes, as a program.
* `Shape.distinct`: A list without repetitions.
* `Shape.sortBy`: A list in ascending order.

## Theorems

* `Shape.same_iff_eq`: The program decides equality.
* `Shape.mem_distinct`: Nothing gets lost with the repetitions.
* `Shape.perm_sortBy`, `Shape.pairwise_sortBy`: What sorting does.
* `Shape.map_sortBy`: Sorted lists and mapped lists.
-/

namespace TypeSketch

/-- The form of a shape, without its parts. A field of a record is its name and
    whether it is required. The keys of a mapping are names of types. -/
inductive Form where
  | scalar (rendered : String)
  | record (fields : List (String × Bool))
  | mapping (keyTypes : List String)
  | list
  | set (frozen : Bool)
  | iterator
  | tuple
deriving Repr, DecidableEq

/-- A form and the shapes of its parts. -/
inductive Shape where
  | node (form : Form) (parts : List Shape)
deriving Repr

namespace Shape

instance : Inhabited Shape := ⟨.node .list []⟩

/-- The shape of a scalar type. -/
def scalar (rendered : String) : Shape := .node (.scalar rendered) []

def form : Shape → Form
  | node form _ => form

def parts : Shape → List Shape
  | node _ parts => parts

/-- Whether a shape is that of the scalar type with this name. -/
def isScalarNamed (name : String) (shape : Shape) : Bool :=
  shape.form = .scalar name

mutual

/-- Equality of shapes. -/
def same : Shape → Shape → Bool
  | node f ps, node g qs => f = g && sameParts ps qs

def sameParts : List Shape → List Shape → Bool
  | [], [] => true
  | p :: ps, q :: qs => same p q && sameParts ps qs
  | _, _ => false

end

mutual

theorem same_iff_eq : ∀ {s t : Shape}, same s t = true ↔ s = t
  | node f ps, node g qs => by
    simp only [same, Bool.and_eq_true, decide_eq_true_eq, node.injEq]
    exact and_congr_right fun _ => sameParts_iff_eq

theorem sameParts_iff_eq : ∀ {ps qs : List Shape}, sameParts ps qs = true ↔ ps = qs
  | [], [] => by simp [sameParts]
  | [], _ :: _ => by simp [sameParts]
  | _ :: _, [] => by simp [sameParts]
  | p :: ps, q :: qs => by
    simp only [sameParts, Bool.and_eq_true, List.cons.injEq]
    exact and_congr same_iff_eq sameParts_iff_eq

end

instance : DecidableEq Shape := fun _ _ => decidable_of_iff _ same_iff_eq

section Distinct

variable {α : Type} [DecidableEq α]

/-- The items of a list, each once. -/
def distinct : List α → List α
  | [] => []
  | first :: rest => if rest.contains first then distinct rest else first :: distinct rest

theorem mem_distinct {items : List α} {a : α} : a ∈ distinct items ↔ a ∈ items := by
  induction items with
  | nil => rfl
  | cons first rest ih =>
    rw [distinct, List.mem_cons]
    split
    · next h =>
      rw [ih]
      refine ⟨Or.inr, fun hmem => hmem.elim (fun heq => ?_) id⟩
      rw [heq]
      exact List.contains_iff_mem.mp h
    · rw [List.mem_cons, ih]

end Distinct

section Sorting

variable {α β : Type} {le : α → α → Bool} {items : List α}

/-- An item put into a list before the first one that it may come before. -/
def insertBy (le : α → α → Bool) (a : α) : List α → List α
  | [] => [a]
  | first :: rest => if le a first then a :: first :: rest else first :: insertBy le a rest

/-- The items of a list in ascending order. Those that may come before each other stay in the
    order they come in. -/
def sortBy (le : α → α → Bool) : List α → List α
  | [] => []
  | first :: rest => insertBy le first (sortBy le rest)

theorem perm_insertBy (le : α → α → Bool) (a : α) (items : List α) :
    (insertBy le a items).Perm (a :: items) := by
  induction items with
  | nil => exact List.Perm.refl _
  | cons first rest ih =>
    rw [insertBy]
    split
    · exact List.Perm.refl _
    · exact (ih.cons first).trans (List.Perm.swap a first rest)

theorem perm_sortBy (le : α → α → Bool) (items : List α) : (sortBy le items).Perm items := by
  induction items with
  | nil => exact List.Perm.refl _
  | cons first rest ih => exact (perm_insertBy le first _).trans (ih.cons first)

theorem mem_sortBy {a : α} : a ∈ sortBy le items ↔ a ∈ items :=
  (perm_sortBy le items).mem_iff

theorem pairwise_insertBy (htrans : ∀ a b c, le a b = true → le b c = true → le a c = true)
    (htotal : ∀ a b, (le a b || le b a) = true) (a : α)
    (h : items.Pairwise fun a b => le a b = true) :
    (insertBy le a items).Pairwise fun a b => le a b = true := by
  induction items with
  | nil => exact List.pairwise_singleton _ _
  | cons first rest ih =>
    rcases List.pairwise_cons.mp h with ⟨hfirst, hrest⟩
    rw [insertBy]
    split
    · next hle =>
      refine List.pairwise_cons.mpr ⟨fun b hb => ?_, h⟩
      rcases List.mem_cons.mp hb with rfl | hb
      · exact hle
      · exact htrans _ _ _ hle (hfirst b hb)
    -- The item comes behind the first one, which is before all others.
    · next hnot =>
      refine List.pairwise_cons.mpr ⟨fun b hb => ?_, ih hrest⟩
      rcases List.mem_cons.mp ((perm_insertBy le a rest).mem_iff.mp hb) with rfl | hb
      · exact ((Bool.or_eq_true _ _).mp (htotal b first)).resolve_left hnot
      · exact hfirst b hb

theorem pairwise_sortBy (htrans : ∀ a b c, le a b = true → le b c = true → le a c = true)
    (htotal : ∀ a b, (le a b || le b a) = true) (items : List α) :
    (sortBy le items).Pairwise fun a b => le a b = true := by
  induction items with
  | nil => exact List.Pairwise.nil
  | cons first rest ih => exact pairwise_insertBy htrans htotal first ih

/-- Items can be exchanged before they are sorted if the order remains the same. -/
theorem map_sortBy {other : β → β → Bool} {f : α → β} (h : ∀ a b, other (f a) (f b) = le a b)
    (items : List α) : (sortBy le items).map f = sortBy other (items.map f) := by
  have hinsert : ∀ (a : α) (items : List α),
      (insertBy le a items).map f = insertBy other (f a) (items.map f) := by
    intro a items
    induction items with
    | nil => rfl
    | cons first rest ih =>
      rw [List.map_cons, insertBy, insertBy, h]
      split
      · rfl
      · rw [List.map_cons, ih]
  induction items with
  | nil => rfl
  | cons first rest ih => rw [sortBy, List.map_cons, sortBy, hinsert, ih]

end Sorting

end Shape

end TypeSketch
