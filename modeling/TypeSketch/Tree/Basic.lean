import TypeSketch.Naming
import TypeSketch.NameSet
import TypeSketch.Shape.Canonical
import TypeSketch.Strategies.Basic

/-!
# Type Trees

The type that is inferred from an example value. A node is a scalar type, a mapping
with a subtree for each key, or a sequence with a subtree for each of its element
types. It keeps its name, which it is declared under if it gets a declaration, the
example it was inferred from, its height and its shape.

Height and shape are kept in the nodes because siblings are compared again and
again while a tree is built. `TypeTree.ofFields` and `TypeTree.ofElements` compute
them from the children, and every operation on trees hands on what they compute. What
siblings are compared by is not the shape itself but its digest, so two shapes with one
digest pass for one.

A mapping is a record, declared field by field, or generic, spelled by the types of
its keys and values. The fields of a record that are missing in some of the
examples it was merged from are optional.

## Main definitions

* `ScalarType`, `RecordProfile`, `MappingForm`, `ElementKind`: What kinds of nodes
  there are.
* `TypeTree`: The trees.
* `TypeTree.digest`: What nodes are compared by.
* `TypeTree.shapeOfFields`, `TypeTree.shapeOfElements`: The shape of a node.
* `TypeTree.isAliased`: Whether a node gets a declaration of its own.
* `TypeTree.rename`: A node under another name.
-/

namespace TypeSketch

/-- A type without parts: how it is spelled and the symbol that it takes. -/
structure ScalarType where
  rendered : String
  symbol : Option String
deriving Repr, DecidableEq

/-- What a record has besides its fields: whether a key of it cannot name a field, the
    fields that may be missing, and its documentation. -/
structure RecordProfile where
  functional : Bool := false
  optionalFields : NameSet := ∅
  doc : Option String := none
deriving Repr, DecidableEq

/-- How a mapping is declared. -/
inductive MappingForm where
  | record (profile : RecordProfile)
  | generic
deriving Repr, DecidableEq

/-- What a sequence is spelled with. -/
inductive ElementKind where
  | list
  | set (frozen : Bool)
  | iterator
  | tuple (size : TupleSize)
deriving Repr, DecidableEq

/-- The type inferred from an example value. -/
inductive TypeTree where
  | scalar (name : String) (origin : Value) (type : ScalarType)
  | mapping (name : String) (origin : Value) (form : MappingForm) (height : Nat)
      (shape : Shape) (fields : List (Value × TypeTree))
  | sequence (name : String) (origin : Value) (kind : ElementKind) (height : Nat)
      (shape : Shape) (elements : List TypeTree)

namespace TypeTree

instance : Inhabited TypeTree := ⟨.scalar "" default ⟨"", none⟩⟩

/-- The name under which the node is declared, if it is. -/
def name : TypeTree → String
  | scalar name .. => name
  | mapping name .. => name
  | sequence name .. => name

/-- The value that the node was inferred from. -/
def exampleValue : TypeTree → Value
  | scalar _ v _ => v
  | mapping _ v .. => v
  | sequence _ v .. => v

/-- The number of containers on the longest way down. -/
def height : TypeTree → Nat
  | scalar .. => 0
  | mapping _ _ _ height .. => height
  | sequence _ _ _ height .. => height

/-- What the node is up to names and examples. -/
def shape : TypeTree → Shape
  | scalar _ _ type => .scalar type.rendered
  | mapping _ _ _ _ shape _ => shape
  | sequence _ _ _ _ shape _ => shape

/-- The digest of the shape. -/
def digest (t : TypeTree) : UInt64 :=
  t.shape.digest

/-- The fields of a mapping, in order. -/
def fields : TypeTree → List (Value × TypeTree)
  | mapping _ _ _ _ _ fields => fields
  | _ => []

/-- The subtrees, in order. -/
def children : TypeTree → List TypeTree
  | scalar .. => []
  | mapping _ _ _ _ _ fields => fields.map (·.2)
  | sequence _ _ _ _ _ elements => elements

/-- The subtree under a key. -/
def field? (t : TypeTree) (key : Value) : Option TypeTree :=
  Value.entry? t.fields key

/-- The height of a container with these children. -/
def heightAbove (children : List TypeTree) : Nat :=
  1 + (children.map height).foldl max 0

/-- The shapes of children whose number and order do not matter. -/
def unorderedShapes (children : List TypeTree) : List Shape :=
  Shape.canonical (Shape.absorbIntegers (children.map shape))

/-- The fields in ascending order of their names: the name, whether the field is
    required, and its shape. -/
def sortedFields (profile : RecordProfile) (fields : List (Value × TypeTree)) :
    List ((String × Bool) × Shape) :=
  let described := fields.map fun (key, child) =>
    ((key.keyText, !profile.optionalFields.contains key.keyText), child.shape)
  Shape.sortBy (fun a b => a.1.1 ≤ b.1.1) described

/-- The shape of a mapping. -/
def shapeOfFields (form : MappingForm) (fields : List (Value × TypeTree)) : Shape :=
  match form with
  | .record profile =>
    let sorted := sortedFields profile fields
    .node (.record (sorted.map (·.1))) (sorted.map (·.2))
  | .generic =>
    .node (.mapping (NameSet.ofList (fields.map (·.1.typeName))).names)
      (unorderedShapes (fields.map (·.2)))

/-- The shape of a sequence. Only a tuple of fixed size has its elements in order. -/
def shapeOfElements (kind : ElementKind) (elements : List TypeTree) : Shape :=
  match kind with
  | .list => .node .list (unorderedShapes elements)
  | .set frozen => .node (.set frozen) (unorderedShapes elements)
  | .iterator => .node .iterator (unorderedShapes elements)
  | .tuple .fixed => .node .tuple (elements.map shape)
  | .tuple .anySize => .node .tuple (unorderedShapes elements)

/-- The mapping with these fields. -/
def ofFields (name : String) (v : Value) (form : MappingForm)
    (fields : List (Value × TypeTree)) : TypeTree :=
  .mapping name v form (heightAbove (fields.map (·.2))) (shapeOfFields form fields) fields

/-- The sequence with these elements. -/
def ofElements (name : String) (v : Value) (kind : ElementKind) (elements : List TypeTree) :
    TypeTree :=
  .sequence name v kind (heightAbove elements) (shapeOfElements kind elements) elements

/-- Whether the node gets a declaration of its own: records always, scalars never, and
    other containers from a height on. -/
def isAliased (s : Strategies) : TypeTree → Bool
  | scalar .. => false
  | mapping _ _ (.record _) .. => true
  | mapping _ _ .generic height .. => s.aliasHeight ≤ height
  | sequence _ _ _ height .. => s.aliasHeight ≤ height

/-- The name of a part of the node. -/
def childName (t : TypeTree) (key : ChildKey) : String :=
  Naming.childName t.name key

mutual

/-- The node under another name. The names of the parts that start with the old name
    follow; where one does not, it and all below it keep theirs. -/
def rename (newName : String) : TypeTree → TypeTree
  | scalar _ v type => scalar newName v type
  | mapping oldName v form height shape fields =>
    mapping newName v form height shape (renameFields oldName newName fields)
  | sequence oldName v kind height shape elements =>
    sequence newName v kind height shape (renameElements oldName newName elements)

def renameFields (oldName newName : String) : List (Value × TypeTree) → List (Value × TypeTree)
  | [] => []
  | (key, child) :: rest =>
    (key,
      match Naming.dropStart? oldName child.name with
      | some suffix => rename (newName ++ suffix) child
      | none => child) :: renameFields oldName newName rest

def renameElements (oldName newName : String) : List TypeTree → List TypeTree
  | [] => []
  | child :: rest =>
    (match Naming.dropStart? oldName child.name with
      | some suffix => rename (newName ++ suffix) child
      | none => child) :: renameElements oldName newName rest

end

end TypeTree

end TypeSketch
