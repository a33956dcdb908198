import TypeSketch.Proofs.Names.ChildNames
import TypeSketch.Proofs.Render.Payloads
import TypeSketch.Proofs.Tree.Numbering

/-!
# Repeated Elements

An element of a sequence that has the digest of an earlier one adds nothing. The sequence may
be in other sequences and under keys, to any depth: the trees of the two examples are alike
without their examples, and so they have the same module and the same imports. Only the
places of a tuple of fixed size count.

The element is dropped before records are merged and names are numbered, so its own sequence
is arranged as without it, whatever its type is called. Around it no pass looks at examples,
and the keys and positions that the names are made of are the same on both sides.

## Main definitions

* `Inference.Repeats`: An example, and one with a repeated element more in it.

## Theorems

* `TypeTree.arrange_insert`: The repeated element is dropped.
* `Inference.elementKind?_ne_fixed_of_standard`: The sequences without fixed places.
* `Inference.repeats_of_sameKinds`: An element that repeats an earlier one with other payloads.
* `Inference.agrees_node_insert`, `Inference.agrees_node_of_repeats`: Trees that agree without
  their examples.
* `Inference.infer_eq_of_repeats`: Nothing that can be observed changes.
-/

namespace TypeSketch

namespace TypeTree

/-- A tree whose digest an earlier one has changes nothing in a sequence without fixed places. -/
theorem arrange_insert {s : Strategies} {kind : ElementKind} (hkind : kind ≠ .tuple .fixed)
    {before after : List TypeTree} {t u : TypeTree} (ht : t ∈ before) (hdigest : u.digest = t.digest) :
    arrange s kind (before ++ u :: after) = arrange s kind (before ++ after) := by
  have hknown : u.digest ∈ before.map digest := by
    rw [hdigest]
    exact List.mem_map_of_mem ht
  rw [arrange_of_ne_fixed hkind, arrange_of_ne_fixed hkind, dropRepeated_eq_firstsBy,
    firstsBy_insert hknown, dropRepeated_eq_firstsBy]

/-- What is made of a tree without regard to its examples is the same for attempts that are. -/
theorem bind_eq_of_map_forgetExamples {ε α : Type} {f : TypeTree → Except ε α}
    (hf : ∀ t u, EqUpToExamples t u → f t = f u) {x y : Except ε TypeTree}
    (h : x.map forgetExamples = y.map forgetExamples) : x.bind f = y.bind f := by
  cases x with
  | error e =>
    cases y with
    | error e' => exact congrArg _ (Except.error.inj h)
    | ok u => contradiction
  | ok t =>
    cases y with
    | error e' => contradiction
    | ok u => exact hf t u (Except.ok.inj h)

end TypeTree

namespace Inference

open TypeTree

variable {run : Inference} {name : String}

/-- The second example is the first one with one more element in some sequence of it, behind one
    with the same digest. The name is that of the node that the example gets. -/
inductive Repeats (run : Inference) : String → Value → Value → Prop
  | insert {name : String} {kind : SequenceKind} {before after : List Value} {item other : Value}
    {t u : TypeTree} (dropped : run.elementKind? kind ≠ some (.tuple .fixed))
    (item_mem : item ∈ before) (item_tree : run.child name (.element item) item = .ok t)
    (other_tree : run.child name (.element other) other = .ok u) (digest_eq : u.digest = t.digest) :
    Repeats run name (.sequence kind (before ++ after)) (.sequence kind (before ++ other :: after))
  | item {name : String} {kind : SequenceKind} {before after : List Value} {v w : Value}
    (inside : Repeats run (Naming.childName name (.element v)) v w) :
    Repeats run name (.sequence kind (before ++ v :: after)) (.sequence kind (before ++ w :: after))
  | entry {name : String} {before after : List (Value × Value)} {key v w : Value}
    (inside : Repeats run (Naming.childName name (.field key before.length)) v w) :
    Repeats run name (.mapping (before ++ (key, v) :: after)) (.mapping (before ++ (key, w) :: after))

/-- Without registrations only tuples have fixed places, and not where tuples have any size. -/
theorem elementKind?_ne_fixed_of_standard (hregistry : run.registry = .standard)
    {kind : SequenceKind} (h : kind ≠ .tuple ∨ run.strategies.tupleSize = .anySize) :
    run.elementKind? kind ≠ some (.tuple .fixed) := by
  rw [elementKind?, hregistry]
  intro heq
  cases kind with
  | tuple =>
    rw [h.resolve_left fun hne => hne rfl] at heq
    cases heq
  | list => cases heq
  | set => cases heq
  | frozenset => cases heq
  | iterator => cases heq

/-- An item that differs from an earlier one in the payloads of scalars is a repeated one. -/
theorem repeats_of_sameKinds (hdoc : run.strategies.docKey = "") {kind : SequenceKind}
    (hdropped : run.elementKind? kind ≠ some (.tuple .fixed)) {before : List Value} (after : List Value)
    {item other : Value} (hitem : item ∈ before) (hsame : item.SameKinds other)
    (hchild : ∃ t, run.child name (.element item) item = .ok t) :
    run.Repeats name (.sequence kind (before ++ after)) (.sequence kind (before ++ other :: after)) := by
  rcases hchild with ⟨t, ht⟩
  have htype : item.typeName = other.typeName := congrArg ValueKind.typeName hsame.kind_eq
  have hagrees : Agrees Eq EqUpToExamples (run.child name (.element item) item)
      (run.child name (.element other) other) :=
    Builder.agrees_child htype rfl (agrees_node_of_sameKinds hdoc hsame _)
  rcases hagrees.cases_eq with ⟨e, herror, _⟩ | ⟨t', u, ht', hu, htu⟩
  · rw [ht] at herror
    contradiction
  · exact .insert hdropped hitem ht' hu (congrArg Shape.digest htu.shape_eq.symm)

theorem Repeats.typeName_eq {v w : Value} (h : run.Repeats name v w) : v.typeName = w.typeName := by
  cases h <;> rfl

/-- The documentation of a mapping is a text, and no text has elements. -/
theorem Repeats.doc?_eq {key v w : Value} (h : run.Repeats name v w) (docKey : String)
    (before after : List (Value × Value)) :
    doc? docKey (before ++ (key, v) :: after) = doc? docKey (before ++ (key, w) :: after) := by
  have htext : v.text? = none ∧ w.text? = none := by
    cases h <;> exact ⟨rfl, rfl⟩
  unfold doc?
  split
  · rfl
  · rw [List.find?_append, List.find?_append, List.find?_cons, List.find?_cons]
    cases List.find? _ before with
    | some e => rfl
    | none =>
      -- The entry may be the one that is looked for, and then there is none on both sides.
      dsimp only [Option.none_or]
      split
      · rw [Option.bind_some, Option.bind_some, htext.1, htext.2]
      · rfl

/-- A sequence with a repeated element more is arranged as without it. -/
theorem agrees_node_insert {kind : SequenceKind} {before after : List Value} {item other : Value}
    {t u : TypeTree} (hdropped : run.elementKind? kind ≠ some (.tuple .fixed)) (hitem : item ∈ before)
    (ht : run.child name (.element item) item = .ok t)
    (hu : run.child name (.element other) other = .ok u) (hdigest : u.digest = t.digest) :
    Agrees Eq EqUpToExamples (run.node name (.sequence kind (before ++ after)))
      (run.node name (.sequence kind (before ++ other :: after))) := by
  -- The trees are those of the shorter sequence, and one more behind that of the item.
  have hitems : Agrees Eq (fun trees trees' => ∃ front back, trees = front ++ back ∧
        trees' = front ++ u :: back ∧ t ∈ front)
      (elementNodes run name (before ++ after)) (elementNodes run name (before ++ other :: after)) := by
    rw [elementNodes_append, elementNodes_append, elementNodes_cons, hu]
    cases hfront : elementNodes run name before with
    | error e => exact .error rfl
    | ok front =>
      rcases exists_mem_right_of_forall₂ (elementNodes_eq_ok_iff.mp hfront) hitem with
        ⟨t', ht', hchild⟩
      rw [ht, Except.ok.injEq] at hchild
      cases elementNodes run name after with
      | error e => exact .error rfl
      | ok back => exact .ok ⟨front, back, rfl, rfl, hchild ▸ ht'⟩
  refine Builder.agrees_sequence Eq.refl rfl (fun _ => rfl) hitems
    fun elementKind trees trees' hkind htrees => ?_
  rcases htrees with ⟨front, back, rfl, rfl, hmem⟩
  have hne : elementKind ≠ .tuple .fixed := fun heq => hdropped (heq ▸ hkind)
  -- The two nodes keep different examples, and nothing else is different.
  rw [EqUpToExamples, forgetExamples_ofElements, forgetExamples_ofElements,
    arrange_insert hne hmem hdigest]

/-- The trees of both examples agree without their examples, or both are refused alike. -/
theorem agrees_node_of_repeats {v w : Value} (h : run.Repeats name v w) :
    Agrees Eq EqUpToExamples (run.node name v) (run.node name w) := by
  -- The induction goes up from the sequence with the repeated element.
  induction h with
  | insert dropped item_mem item_tree other_tree digest_eq =>
    exact agrees_node_insert dropped item_mem item_tree other_tree digest_eq
  | @item name kind before after v w inside ih =>
    have hchild : Agrees Eq EqUpToExamples (run.child name (.element v) v)
        (run.child name (.element w) w) := Builder.agrees_child inside.typeName_eq rfl ih
    have hrefl : ∀ items : List Value, List.Forall₂ (fun a b => Agrees Eq EqUpToExamples
        (run.child name (.element a) a) (run.child name (.element b) b)) items items := fun items =>
      List.forall₂_same.mpr fun _ _ => .refl (R := EqUpToExamples) Eq.refl (fun _ => rfl) _
    have hitems := Builder.agrees_elementNodes (List.rel_append (hrefl before) (.cons hchild (hrefl after)))
    exact Builder.agrees_sequence Eq.refl rfl (fun _ => rfl) hitems fun elementKind _ _ _ htrees =>
      eqUpToExamples_ofElements run.strategies name _ _ elementKind htrees
  -- An entry keeps its key, so the form of the mapping is the same.
  | @entry name before after key v w inside ih =>
    have hchild : Agrees Eq EqUpToExamples (run.child name (.field key before.length) v)
        (run.child name (.field key before.length) w) := Builder.agrees_child rfl rfl ih
    have hkeys : (before ++ (key, v) :: after).map (·.1) = (before ++ (key, w) :: after).map (·.1) := by
      rw [List.map_append, List.map_append, List.map_cons, List.map_cons]
    have hform := mappingForm_eq_of_keys (inside.doc?_eq run.strategies.docKey before after) hkeys
    exact Builder.agrees_mapping Eq.refl rfl (fun _ => rfl)
      (Builder.agrees_fieldNodes_of_entry (S := EqUpToExamples) Eq.refl (fun _ => rfl) hchild)
      fun _ _ hchildren => eqUpToExamples_ofFields name _ _ hform hchildren

/-- One more element of a digest that its sequence has already changes no node, no declaration
    and no import, and it makes no example fail. -/
theorem infer_eq_of_repeats {v w : Value} (h : run.Repeats name v w) :
    (run.infer name w).map forgetExamples = (run.infer name v).map forgetExamples ∧
      (run.infer name w).bind (·.render run.strategies) =
        (run.infer name v).bind (·.render run.strategies) ∧
      (run.infer name w).bind (·.module run.strategies) =
        (run.infer name v).bind (·.module run.strategies) := by
  have hsame : (run.infer name w).map forgetExamples = (run.infer name v).map forgetExamples := by
    rw [infer_eq, infer_eq]
    split
    · rcases (agrees_node_of_repeats h).cases_eq with ⟨e, hv, hw⟩ | ⟨t, u, hv, hw, htu⟩
      · rw [hv, hw]
      · rw [hv, hw, Except.map, Except.map, htu]
    · rfl
  have hrender : ∀ t u, EqUpToExamples t u → t.render run.strategies = u.render run.strategies :=
    fun _ _ htu => htu.render_eq _
  exact ⟨hsame, bind_eq_of_map_forgetExamples hrender hsame, bind_eq_of_map_forgetExamples
    (fun t u htu => congrArg (Except.map Session.moduleText) (hrender t u htu)) hsame⟩

/-- One more row of the columns of the first one, under a key. -/
theorem infer_eq_of_repeats_rows :
    let run : Inference := {}
    let row (n : Int) := Value.mapping [(.str "id", .int n)]
    let table (rows : List Value) :=
      Value.mapping [(.str "size", .int 2), (.str "rows", .sequence .list rows)]
    let short := table [row 1, .str "total"]
    let long := table [row 1, row 2, .str "total"]
    run.Repeats "Table" short long ∧
      (run.infer "Table" long).bind (·.module run.strategies) =
        (run.infer "Table" short).bind (·.module run.strategies) := by
  intro run row table short long
  let rows := Naming.childName "Table" (.field (.str "rows") 1)
  have hname : Naming.isIdentifier rows = true := Naming.isIdentifier_childName (by decide +kernel) _
  have hrow : ∃ t, run.child rows (.element (row 1)) (row 1) = .ok t :=
    ⟨_, (child_eq_node hname _ _).trans
      (node_of_isNode (.mapping rfl (.cons (isField_of_scalar rfl) .nil)))⟩
  have hsame : (row 1).SameKinds (row 2) := .mapping rfl (.cons (.atom rfl) .nil)
  have hlist : run.elementKind? .list ≠ some (.tuple .fixed) :=
    elementKind?_ne_fixed_of_standard rfl (Or.inl (by decide))
  -- The second row is the repeated one, and the text behind it stays where it is.
  have hrows : run.Repeats rows (.sequence .list ([row 1] ++ [.str "total"]))
      (.sequence .list ([row 1] ++ row 2 :: [.str "total"])) :=
    repeats_of_sameKinds rfl hlist _ List.mem_cons_self hsame hrow
  have hrepeats : run.Repeats "Table" short long :=
    @Repeats.entry _ _ [(.str "size", .int 2)] [] _ _ _ hrows
  exact ⟨hrepeats, (infer_eq_of_repeats hrepeats).2.2⟩

end Inference

end TypeSketch
