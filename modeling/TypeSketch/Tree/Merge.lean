import TypeSketch.Tree.Basic

/-!
# Merging Records

Two records that share enough fields, with one digest for each shared field, become
one record with the fields of both. A field that one of the two lacks is optional
in the result, and what was optional stays so.

The fields of the first record come first, and the new ones of the second follow in
their order, under names that start with the name of the first.

## Main definitions

* `TypeTree.sharedFields`: The pairs of subtrees under the keys of both records.
* `TypeTree.areSimilar`: Whether two lists of fields may be merged.
* `TypeTree.merge?`: The record of two similar ones.
-/

namespace TypeSketch

namespace TypeTree

/-- The subtrees under the keys that both lists of fields have. -/
def sharedFields (left right : List (Value × TypeTree)) : List (TypeTree × TypeTree) :=
  left.filterMap fun (key, child) => (Value.entry? right key).map (child, ·)

/-- Whether the fields that both lists have make up `similarity` percent of all fields
    at least, and have one digest in both. -/
def areSimilar (similarity : Nat) (left right : List (Value × TypeTree)) : Bool :=
  let shared := sharedFields left right
  let all := left.length + right.length - shared.length
  shared.all (fun (a, b) => a.digest = b.digest) && 0 < all &&
    similarity * all ≤ shared.length * 100

/-- The profile of a record merged from two. -/
def mergeProfiles (ours theirs : RecordProfile) (ourNames theirNames : NameSet) :
    RecordProfile where
  functional := ours.functional || theirs.functional
  optionalFields :=
    (ours.optionalFields.union theirs.optionalFields).insertAll
      (ourNames.symmetricDifference theirNames)
  doc := ours.doc.orElse fun _ => theirs.doc

/-- The names of fields. -/
def fieldNames (fields : List (Value × TypeTree)) : NameSet :=
  NameSet.ofList (fields.map (·.1.keyText))

/-- A child of a record as a child of a record of another name. -/
def adopt (oldParent newParent : String) (child : TypeTree) : TypeTree :=
  if oldParent = newParent then child
  else
    match Naming.dropStart? oldParent child.name with
    | some suffix => child.rename (newParent ++ suffix)
    | none => child

/-- The fields of the first list, and those of the second that the first lacks. -/
def mergeFields (ourName theirName : String) (ours theirs : List (Value × TypeTree)) :
    List (Value × TypeTree) :=
  theirs.foldl
    (fun fields (key, child) =>
      if (Value.entry? fields key).isSome then fields
      else fields ++ [(key, adopt theirName ourName child)])
    ours

/-- The record of two similar ones, under the name and the example of the first. -/
def merge? (similarity : Nat) : TypeTree → TypeTree → Option TypeTree
  | mapping name v (.record ours) height _ left,
    mapping theirName _ (.record theirs) theirHeight _ right =>
    if areSimilar similarity left right then
      let profile := mergeProfiles ours theirs (fieldNames left) (fieldNames right)
      let fields := mergeFields name theirName left right
      some (.mapping name v (.record profile) (max height theirHeight)
        (shapeOfFields (.record profile) fields) fields)
    else none
  | _, _ => none

end TypeTree

end TypeSketch
