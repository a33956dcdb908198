import TypeSketch.Proofs.Tree.Coherence

/-!
# Exchanged Subtrees

What becomes of a list of fields when all subtrees in it are exchanged for others of the same
shape, as renaming does, or forgetting the examples. Keys decide which field is found and
which one is new, and shapes decide whether two records are similar, so every operation on
the fields does the same before and after the exchange.

A merge is the one operation that does something to the subtrees: it adopts those of the
second record. So it commutes with an exchange if adoption does.

## Theorems

* `Value.entry?_map`, `Value.setEntry_map`: Looking up and setting an entry.
* `Inference.distinctFields_map`: What remains of fields whose keys may repeat.
* `TypeTree.areSimilar_map`: Similar records stay similar.
* `TypeTree.merge?_map`: The merge of records with exchanged subtrees.
-/

namespace TypeSketch

namespace Value

variable {α β : Type} (g : α → β) (entries : List (Value × α)) (key : Value)

theorem entry?_map : Value.entry? (entries.map fun e => (e.1, g e.2)) key =
    (Value.entry? entries key).map g := by
  rw [Value.entry?, Value.entry?, List.find?_map, Option.map_map, Option.map_map]
  rfl

theorem setEntry_map (x : α) :
    setEntry (entries.map fun e => (e.1, g e.2)) key (g x) =
      (setEntry entries key x).map fun e => (e.1, g e.2) := by
  induction entries with
  | nil => rfl
  | cons e rest ih =>
    rw [List.map_cons, setEntry, setEntry]
    split
    · rfl
    · rw [ih, List.map_cons]

end Value

namespace Inference

theorem distinctFields_map (g : TypeTree → TypeTree) (children : List (Value × TypeTree)) :
    distinctFields (children.map fun f => (f.1, g f.2)) =
      (distinctFields children).map fun f => (f.1, g f.2) := by
  -- The fold begins with any fields set so far, or the induction would not go through.
  have hfold : ∀ fields : List (Value × TypeTree),
      (children.map fun f => (f.1, g f.2)).foldl
        (fun fields f => Value.setEntry fields f.1 f.2) (fields.map fun f => (f.1, g f.2)) =
      (children.foldl (fun fields f => Value.setEntry fields f.1 f.2) fields).map
        fun f => (f.1, g f.2) := by
    induction children with
    | nil => exact fun fields => rfl
    | cons f rest ih =>
      intro fields
      rw [List.map_cons, List.foldl_cons, List.foldl_cons, Value.setEntry_map]
      exact ih _
  exact hfold []

end Inference

namespace TypeTree

variable {similarity : Nat} {g g' : TypeTree → TypeTree} {left right : List (Value × TypeTree)}

theorem sharedFields_map (g g' : TypeTree → TypeTree) (left right : List (Value × TypeTree)) :
    sharedFields (left.map fun f => (f.1, g f.2)) (right.map fun f => (f.1, g' f.2)) =
      (sharedFields left right).map fun pair => (g pair.1, g' pair.2) := by
  rw [sharedFields, sharedFields, List.filterMap_map, List.map_filterMap]
  refine List.filterMap_congr fun f _ => ?_
  dsimp only [Function.comp_apply]
  rw [Value.entry?_map, Option.map_map, Option.map_map]
  rfl

theorem areSimilar_map (hg : ∀ c, (g c).shape = c.shape) (hg' : ∀ c, (g' c).shape = c.shape) :
    areSimilar similarity (left.map fun f => (f.1, g f.2)) (right.map fun f => (f.1, g' f.2)) =
      areSimilar similarity left right := by
  have hdigest : ∀ c, (g c).digest = c.digest := fun c => congrArg Shape.digest (hg c)
  have hdigest' : ∀ c, (g' c).digest = c.digest := fun c => congrArg Shape.digest (hg' c)
  unfold areSimilar
  rw [sharedFields_map]
  simp only [List.length_map, List.all_map, Function.comp_def, hdigest, hdigest']

theorem fieldNames_map (g : TypeTree → TypeTree) (fields : List (Value × TypeTree)) :
    fieldNames (fields.map fun f => (f.1, g f.2)) = fieldNames fields := by
  rw [fieldNames, fieldNames, List.map_map]
  rfl

theorem mergeFields_cons (ourName theirName : String) (ours : List (Value × TypeTree))
    (f : Value × TypeTree) (rest : List (Value × TypeTree)) :
    mergeFields ourName theirName ours (f :: rest) = mergeFields ourName theirName
      (if (Value.entry? ours f.1).isSome then ours
        else ours ++ [(f.1, adopt theirName ourName f.2)]) rest :=
  rfl

/-- The fields of a merge, if it makes no difference whether a subtree is exchanged before it
    is adopted or after. -/
theorem mergeFields_map {ourName theirName ourName' theirName' : String}
    (hadopt : ∀ f ∈ right, adopt theirName' ourName' (g' f.2) = g (adopt theirName ourName f.2)) :
    mergeFields ourName' theirName' (left.map fun f => (f.1, g f.2))
        (right.map fun f => (f.1, g' f.2)) =
      (mergeFields ourName theirName left right).map fun f => (f.1, g f.2) := by
  induction right generalizing left with
  | nil => rfl
  | cons f rest ih =>
    have hrest := fun h hh => hadopt h (List.mem_cons_of_mem f hh)
    rw [List.map_cons, mergeFields_cons, mergeFields_cons, Value.entry?_map, Option.isSome_map]
    split
    · exact ih hrest
    · rw [hadopt f List.mem_cons_self, ← ih hrest, List.map_append]
      rfl

/-- A merge of records with exchanged subtrees is the merge of the records with its subtrees
    exchanged. How the root of a record is exchanged, with its name and its example, is left to
    `whole`. -/
theorem merge?_map {whole : TypeTree → TypeTree} {name name' theirName theirName' : String}
    {v v' w w' : Value} {ours theirs : RecordProfile} {height theirHeight : Nat}
    {shape theirShape : Shape}
    (hwhole : ∀ form height shape fields, whole (mapping name v form height shape fields) =
      mapping name' v' form height shape (fields.map fun f => (f.1, g f.2)))
    (hg : ∀ c, (g c).shape = c.shape) (hg' : ∀ c, (g' c).shape = c.shape)
    (hadopt : ∀ f ∈ right, adopt theirName' name' (g' f.2) = g (adopt theirName name f.2)) :
    (mapping name' v' (.record ours) height shape (left.map fun f => (f.1, g f.2))).merge? similarity
        (mapping theirName' w' (.record theirs) theirHeight theirShape
          (right.map fun f => (f.1, g' f.2))) =
      ((mapping name v (.record ours) height shape left).merge? similarity
        (mapping theirName w (.record theirs) theirHeight theirShape right)).map whole := by
  rw [merge?, merge?, areSimilar_map hg hg']
  split
  · dsimp only
    rw [Option.map_some, hwhole, fieldNames_map, fieldNames_map, mergeFields_map hadopt,
      shapeOfFields_map hg]
  · rfl

end TypeTree

end TypeSketch
