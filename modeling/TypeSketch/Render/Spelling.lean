import TypeSketch.Declaration
import TypeSketch.Tree.Basic

/-!
# Spelling Types

How the types of a tree are written, and which symbols that takes. A spelling is a
type expression or a declaration together with the symbols that have to be imported
for it.

A node that gets a declaration is written as its name where it is used, and takes no
symbols there. The members of a union are told apart, ordered and absorbed by their
text, but all of them take their symbols, also those that another one takes in.

## Main definitions

* `Spelling`: Something written and the symbols it takes.
* `Spelling.distinctTypes`, `Spelling.union`: Several types as one.
* `TypeTree.spell`: The type expression of a node.
* `TypeTree.spellUse`: What stands where a node is used.
* `TypeTree.spellDeclaration`: The declaration of a node.
-/

namespace TypeSketch

/-- Something written, and the symbols that have to be imported for it. -/
structure Spelling (α : Type) where
  written : α
  symbols : List String
deriving Repr

namespace Spelling

/-- The types in ascending order of their texts, each text once. -/
def sortByText (types : List TypeExpr) : List TypeExpr :=
  let unique := types.foldl
    (fun kept type => if kept.any (·.text = type.text) then kept else kept ++ [type]) []
  unique.mergeSort fun a b => a.text ≤ b.text

/-- The types without `int`, if `float` is among them. -/
def absorbIntegers (types : List TypeExpr) : List TypeExpr :=
  if types.any (·.text = "float") then types.filter (·.text ≠ "int") else types

/-- Several types as they are listed: `Any`, if there are none. -/
def listed (types : List TypeExpr) : Spelling (List TypeExpr) :=
  if types.isEmpty then ⟨[.name "Any"], ["Any"]⟩ else ⟨types, []⟩

/-- Several types as the members of a union. -/
def distinctTypes (types : List TypeExpr) : Spelling (List TypeExpr) :=
  listed (absorbIntegers (sortByText types))

/-- Several types as one. -/
def union (types : List TypeExpr) : Spelling TypeExpr :=
  let members := distinctTypes types
  match members.written with
  | [single] => ⟨single, members.symbols⟩
  | several => ⟨.apply "Union" several, members.symbols ++ ["Union"]⟩

/-- A constructor applied to one argument. -/
def wrap (constructor : String) (argument : Spelling TypeExpr) : Spelling TypeExpr :=
  ⟨.apply constructor [argument.written], constructor :: argument.symbols⟩

end Spelling

namespace TypeTree

/-- The constructor of a list. -/
def listConstructor : ListStyle → String
  | .list => "List"
  | .sequence => "Sequence"

/-- The constructor of a generic mapping. -/
def mappingConstructor : DictStyle → String
  | .mapping => "Mapping"
  | .typedDict => "Dict"
  | .dict => "Dict"

/-- A sequence whose elements have these types. An empty example says nothing about
    the size of a tuple. -/
def spellSequence (s : Strategies) (kind : ElementKind) (elements : List (Spelling TypeExpr)) :
    Spelling TypeExpr :=
  let types := elements.map (·.written)
  let taken := elements.flatMap (·.symbols)
  let one := Spelling.union types
  let oneTaken : Spelling TypeExpr := ⟨one.written, taken ++ one.symbols⟩
  match kind with
  | .list => oneTaken.wrap (listConstructor s.listStyle)
  | .set false => oneTaken.wrap "Set"
  | .set true => oneTaken.wrap "FrozenSet"
  | .iterator => oneTaken.wrap "Iterator"
  | .tuple .fixed =>
    let all := Spelling.listed types
    let dots := if types.isEmpty then [TypeExpr.name "..."] else []
    ⟨.apply "Tuple" (all.written ++ dots), "Tuple" :: taken ++ all.symbols⟩
  | .tuple .anySize =>
    ⟨.apply "Tuple" [one.written, .name "..."], "Tuple" :: taken ++ one.symbols⟩

/-- A generic mapping with keys of these types and values of these. -/
def spellGeneric (s : Strategies) (keyTypes : List String) (values : List (Spelling TypeExpr)) :
    Spelling TypeExpr :=
  let constructor := mappingConstructor s.dictStyle
  let keys := Spelling.union (keyTypes.map .name)
  let value := Spelling.union (values.map (·.written))
  ⟨.apply constructor [keys.written, value.written],
    constructor :: keys.symbols ++ values.flatMap (·.symbols) ++ value.symbols⟩

mutual

/-- The type of a node, written out. Records are not written out: they always have a
    declaration. -/
def spell (s : Strategies) : TypeTree → Spelling TypeExpr
  | scalar _ _ type => ⟨.name type.rendered, type.symbol.toList⟩
  | mapping name _ (.record _) _ _ _ => ⟨.name name, []⟩
  | mapping _ _ .generic _ _ fields =>
    spellGeneric s (fields.map (·.1.typeName)) (spellFieldUses s fields)
  | sequence _ _ kind _ _ elements => spellSequence s kind (spellElementUses s elements)

/-- What stands where the fields of a mapping are used. -/
def spellFieldUses (s : Strategies) : List (Value × TypeTree) → List (Spelling TypeExpr)
  | [] => []
  | (_, child) :: rest =>
    (if child.isAliased s then ⟨.name child.name, []⟩ else spell s child) ::
      spellFieldUses s rest

/-- What stands where the elements of a sequence are used. -/
def spellElementUses (s : Strategies) : List TypeTree → List (Spelling TypeExpr)
  | [] => []
  | child :: rest =>
    (if child.isAliased s then ⟨.name child.name, []⟩ else spell s child) ::
      spellElementUses s rest

end

/-- What stands where a node is used. -/
def spellUse (s : Strategies) (t : TypeTree) : Spelling TypeExpr :=
  if t.isAliased s then ⟨.name t.name, []⟩ else t.spell s

/-- The type of a field of a record, with what says that it is read-only or may be
    missing. -/
def spellField (s : Strategies) (profile : RecordProfile) (key : Value) (t : TypeTree) :
    Spelling (String × TypeExpr) :=
  let type := t.spellUse s
  let type := if s.readOnly then type.wrap "ReadOnly" else type
  let type :=
    if profile.optionalFields.contains key.keyText then type.wrap "NotRequired" else type
  ⟨(key.keyText, type.written), type.symbols⟩

/-- The declaration of a node. -/
def spellDeclaration (s : Strategies) (t : TypeTree) : Spelling Declaration :=
  match t with
  | mapping name _ (.record profile) _ _ fields =>
    let spelled := fields.map fun (key, child) => spellField s profile key child
    let rows := spelled.map (·.written)
    ⟨if profile.functional then .functionalRecord name rows else .record name profile.doc rows,
      "TypedDict" :: spelled.flatMap (·.symbols)⟩
  | _ =>
    let type := t.spell s
    ⟨.aliasOf t.name type.written, type.symbols⟩

end TypeTree

end TypeSketch
