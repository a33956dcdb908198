import TypeSketch.Tree.Merge

/-!
# Siblings

What becomes of the elements of one sequence. Of elements with one digest the first
one stands for all; similar records are merged; and elements that would be declared
under one name with different digests are numbered.

Merging goes once through the elements and tries each record on those that have
been kept, in order. Two records can become alike by it, so elements with one digest
are dropped once more. In a tuple of fixed size every position keeps its element,
and the elements are only numbered.

## Main definitions

* `TypeTree.dropRepeated`: One element for each digest.
* `TypeTree.mergeSimilar`: Similar records merged.
* `TypeTree.disambiguate`: Numbered names.
* `TypeTree.arrange`: The elements of a sequence of a kind.
-/

namespace TypeSketch

namespace TypeTree

/-- The trees whose digest is not in `seen` and occurs for the first time. -/
def dropSeen (seen : List UInt64) : List TypeTree → List TypeTree
  | [] => []
  | t :: rest =>
    if seen.contains t.digest then dropSeen seen rest else t :: dropSeen (t.digest :: seen) rest

/-- The first tree of each digest. -/
def dropRepeated (trees : List TypeTree) : List TypeTree :=
  dropSeen [] trees

/-- The kept trees with one more: merged into the first of them that it can be merged
    into, or behind them. -/
def place (similarity : Nat) (t : TypeTree) : List TypeTree → List TypeTree
  | [] => [t]
  | target :: rest =>
    match target.merge? similarity t with
    | some merged => merged :: rest
    | none => target :: place similarity t rest

/-- The trees with similar records merged. -/
def mergeSimilar (similarity : Nat) (trees : List TypeTree) : List TypeTree :=
  dropRepeated (trees.foldl (fun kept t => place similarity t kept) [])

/-- The digests that each name has been given to, in order. -/
abbrev NamedDigests := List (String × List UInt64)

/-- The number of the digest among those of its name, from zero on, and the table with
    the digest in it. -/
def ordinal (name : String) (digest : UInt64) : NamedDigests → Nat × NamedDigests
  | [] => (0, [(name, [digest])])
  | (other, digests) :: rest =>
    if other = name then
      match digests.idxOf? digest with
      | some i => (i, (other, digests) :: rest)
      | none => (digests.length, (other, digests ++ [digest]) :: rest)
    else
      let (i, table) := ordinal name digest rest
      (i, (other, digests) :: table)

/-- The trees with the table of the names given so far: the first digest under a name
    keeps it, and each further one has its number behind it. -/
def disambiguateFrom (s : Strategies) (table : NamedDigests) : List TypeTree → List TypeTree
  | [] => []
  | t :: rest =>
    if t.isAliased s then
      let (i, table) := ordinal t.name t.digest table
      (if i = 0 then t else t.rename (t.name ++ toString (i + 1))) ::
        disambiguateFrom s table rest
    else t :: disambiguateFrom s table rest

/-- The trees with different names for different digests. -/
def disambiguate (s : Strategies) (trees : List TypeTree) : List TypeTree :=
  disambiguateFrom s [] trees

/-- The elements of a sequence of this kind, from the trees of its items. -/
def arrange (s : Strategies) (kind : ElementKind) (trees : List TypeTree) : List TypeTree :=
  match kind with
  | .tuple .fixed => disambiguate s trees
  | _ => disambiguate s (mergeSimilar s.similarity (dropRepeated trees))

end TypeTree

end TypeSketch
