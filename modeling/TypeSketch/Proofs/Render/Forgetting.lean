import TypeSketch.Proofs.Render.Sessions
import TypeSketch.Proofs.Tree.Corresponding
import TypeSketch.Proofs.Tree.Mapped

/-!
# Trees Without Their Examples

Each node keeps the example that it was inferred from, and nothing that is done with a tree
looks at it. A tree without its examples is renamed, merged and numbered as the tree is, and
it has the same declarations. So two trees that differ in their examples alone cannot be
told by what becomes of them.

## Main definitions

* `TypeTree.forgetExamples`: A tree without its examples.
* `TypeTree.EqUpToExamples`: Trees that differ in their examples alone.

## Theorems

* `TypeTree.forgetExamples_rename`, `TypeTree.forgetExamples_merge?`: What is done with trees.
* `TypeTree.isCorrespondence_eqUpToExamples`: What is done with siblings.
* `TypeTree.EqUpToExamples.render_eq`: The declarations of a tree.
-/

namespace TypeSketch

namespace TypeTree

mutual

/-- The tree without the examples in it. -/
def forgetExamples : TypeTree → TypeTree
  | scalar name _ type => scalar name default type
  | mapping name _ form height shape fields =>
    mapping name default form height shape (forgetFields fields)
  | sequence name _ kind height shape elements =>
    sequence name default kind height shape (forgetElements elements)

def forgetFields : List (Value × TypeTree) → List (Value × TypeTree)
  | [] => []
  | (key, child) :: rest => (key, forgetExamples child) :: forgetFields rest

def forgetElements : List TypeTree → List TypeTree
  | [] => []
  | child :: rest => forgetExamples child :: forgetElements rest

end

/-- The trees differ in their examples alone. -/
abbrev EqUpToExamples (t u : TypeTree) : Prop := t.forgetExamples = u.forgetExamples

theorem forgetFields_eq_map (fields : List (Value × TypeTree)) :
    forgetFields fields = fields.map fun f => (f.1, f.2.forgetExamples) := by
  induction fields with
  | nil => rfl
  | cons f rest ih => rw [forgetFields, ih, List.map_cons]

theorem forgetElements_eq_map (elements : List TypeTree) :
    forgetElements elements = elements.map forgetExamples := by
  induction elements with
  | nil => rfl
  | cons e rest ih => rw [forgetElements, ih, List.map_cons]

@[simp] theorem name_forgetExamples (t : TypeTree) : t.forgetExamples.name = t.name := by
  cases t <;> rfl

@[simp] theorem shape_forgetExamples (t : TypeTree) : t.forgetExamples.shape = t.shape := by
  cases t <;> rfl

@[simp] theorem digest_forgetExamples (t : TypeTree) : t.forgetExamples.digest = t.digest :=
  congrArg Shape.digest (shape_forgetExamples t)

@[simp] theorem height_forgetExamples (t : TypeTree) : t.forgetExamples.height = t.height := by
  cases t <;> rfl

@[simp] theorem isAliased_forgetExamples (s : Strategies) (t : TypeTree) :
    t.forgetExamples.isAliased s = t.isAliased s := by
  cases t with
  | scalar name v type => rfl
  | mapping name v form height shape fields => cases form <;> rfl
  | sequence name v kind height shape elements => rfl

@[simp] theorem isRecord_forgetExamples (t : TypeTree) :
    t.forgetExamples.isRecord = t.isRecord := by
  cases t with
  | scalar name v type => rfl
  | mapping name v form height shape fields => cases form <;> rfl
  | sequence name v kind height shape elements => rfl

theorem children_forgetExamples (t : TypeTree) :
    t.forgetExamples.children = t.children.map forgetExamples := by
  cases t with
  | scalar name v type => rfl
  | mapping name v form height shape fields =>
    rw [forgetExamples, forgetFields_eq_map, children, children, List.map_map, List.map_map]
    rfl
  | sequence name v kind height shape elements =>
    rw [forgetExamples, forgetElements_eq_map]
    rfl

theorem forgetExamples_ofElements (name : String) (v : Value) (kind : ElementKind)
    (elements : List TypeTree) : (ofElements name v kind elements).forgetExamples =
      ofElements name default kind (elements.map forgetExamples) := by
  rw [ofElements_map height_forgetExamples shape_forgetExamples, ofElements, forgetExamples,
    forgetElements_eq_map]

theorem forgetExamples_ofFields (name : String) (v : Value) (form : MappingForm)
    (fields : List (Value × TypeTree)) : (ofFields name v form fields).forgetExamples =
      ofFields name default form (fields.map fun f => (f.1, f.2.forgetExamples)) := by
  rw [ofFields_map height_forgetExamples shape_forgetExamples, ofFields, forgetExamples,
    forgetFields_eq_map]

section Operations

theorem forgetExamples_followRename {c : TypeTree} (oldName newName : String)
    (h : ∀ name, (c.rename name).forgetExamples = c.forgetExamples.rename name) :
    (followRename oldName newName c).forgetExamples =
      followRename oldName newName c.forgetExamples := by
  unfold followRename
  rw [name_forgetExamples]
  split
  · exact h _
  · rfl

theorem forgetExamples_rename (newName : String) (t : TypeTree) :
    (t.rename newName).forgetExamples = t.forgetExamples.rename newName := by
  induction t generalizing newName with
  | scalar name v type => rfl
  | mapping name v form height shape fields ih =>
    rw [rename, renameFields_eq_map, forgetExamples, forgetFields_eq_map, forgetExamples, rename,
      renameFields_eq_map, forgetFields_eq_map, List.map_map, List.map_map]
    refine congrArg _ (List.map_congr_left fun f hf => congrArg (Prod.mk f.1) ?_)
    exact forgetExamples_followRename name newName fun name => ih f hf name
  | sequence name v kind height shape elements ih =>
    rw [rename, renameElements_eq_map, forgetExamples, forgetElements_eq_map, forgetExamples,
      rename, renameElements_eq_map, forgetElements_eq_map, List.map_map, List.map_map]
    refine congrArg _ (List.map_congr_left fun e he => ?_)
    exact forgetExamples_followRename name newName fun name => ih e he name

theorem forgetExamples_adopt (oldParent newParent : String) (c : TypeTree) :
    (adopt oldParent newParent c).forgetExamples = adopt oldParent newParent c.forgetExamples := by
  rw [adopt_eq, adopt_eq]
  split
  · rfl
  · exact forgetExamples_followRename _ _ fun name => forgetExamples_rename name c

theorem forgetExamples_merge? (similarity : Nat) (a b : TypeTree) :
    a.forgetExamples.merge? similarity b.forgetExamples =
      (a.merge? similarity b).map forgetExamples := by
  by_cases hrecords : a.isRecord = true ∧ b.isRecord = true
  · rcases exists_eq_of_isRecord hrecords.1 with ⟨name, v, ours, height, shape, left, rfl⟩
    rcases exists_eq_of_isRecord hrecords.2 with ⟨theirName, w, theirs, _, _, right, rfl⟩
    rw [forgetExamples, forgetExamples, forgetFields_eq_map, forgetFields_eq_map]
    refine merge?_map (fun form height shape fields => ?_) shape_forgetExamples
      shape_forgetExamples fun f _ => (forgetExamples_adopt _ _ f.2).symm
    rw [forgetExamples, forgetFields_eq_map]
  · rw [merge?_eq_none_of_isRecord hrecords, Option.map_none]
    refine merge?_eq_none_of_isRecord ?_
    rwa [isRecord_forgetExamples, isRecord_forgetExamples]

section Alike

variable {t u : TypeTree}

theorem EqUpToExamples.name_eq (h : EqUpToExamples t u) : t.name = u.name := by
  rw [← name_forgetExamples, h, name_forgetExamples]

theorem EqUpToExamples.shape_eq (h : EqUpToExamples t u) : t.shape = u.shape := by
  rw [← shape_forgetExamples, h, shape_forgetExamples]

theorem EqUpToExamples.isAliased_eq (h : EqUpToExamples t u) (s : Strategies) :
    t.isAliased s = u.isAliased s := by
  rw [← isAliased_forgetExamples, h, isAliased_forgetExamples]

theorem EqUpToExamples.rename (h : EqUpToExamples t u) (newName : String) :
    EqUpToExamples (t.rename newName) (u.rename newName) := by
  rw [EqUpToExamples, forgetExamples_rename, forgetExamples_rename, h]

theorem EqUpToExamples.merge? {a a' b b' : TypeTree} (ha : EqUpToExamples a a')
    (hb : EqUpToExamples b b') (similarity : Nat) :
    Option.Rel EqUpToExamples (a.merge? similarity b) (a'.merge? similarity b') := by
  have h : (a.merge? similarity b).map forgetExamples = (a'.merge? similarity b').map forgetExamples := by
    rw [← forgetExamples_merge?, ha, hb, forgetExamples_merge?]
  generalize a.merge? similarity b = m, a'.merge? similarity b' = m' at h
  cases m with
  | none =>
    cases m' with
    | none => exact Option.Rel.none
    | some u => contradiction
  | some t =>
    cases m' with
    | none => contradiction
    | some u => exact Option.Rel.some (Option.some.inj h)

/-- No pass over siblings can tell trees that differ in their examples alone. -/
theorem isCorrespondence_eqUpToExamples (s : Strategies) :
    IsCorrespondence s Eq EqUpToExamples where
  digest_eq _ _ h := congrArg Shape.digest h.shape_eq
  isAliased_eq _ _ h := h.isAliased_eq s
  sameName _ _ h := h.name_eq
  name_eq_iff := by
    rintro n _ m _ rfl rfl
    rfl
  merge? _ _ _ _ ha hb := ha.merge? hb s.similarity
  number t u i h _ := by
    rw [h.name_eq]
    exact h.rename _

end Alike

end Operations

section Rendering

variable (s : Strategies)

theorem spellUse_forgetExamples_of_spell {c : TypeTree} (h : c.forgetExamples.spell s = c.spell s) :
    c.forgetExamples.spellUse s = c.spellUse s := by
  rw [spellUse, spellUse, isAliased_forgetExamples, name_forgetExamples, h]

theorem spell_forgetExamples (t : TypeTree) : t.forgetExamples.spell s = t.spell s := by
  induction t with
  | scalar name v type => rfl
  | mapping name v form height shape fields ih =>
    -- A record is spelled by its name.
    cases form with
    | record profile => rfl
    | generic =>
      have huses : ((fields.map fun f => (f.1, f.2.forgetExamples)).map (·.2)).map (spellUse s) =
          (fields.map (·.2)).map (spellUse s) := by
        rw [List.map_map, List.map_map, List.map_map]
        exact List.map_congr_left fun f hf => spellUse_forgetExamples_of_spell s (ih f hf)
      rw [forgetExamples, forgetFields_eq_map, spell, spell, spellFieldUses_eq_map,
        spellFieldUses_eq_map, huses, List.map_map]
      rfl
  | sequence name v kind height shape elements ih =>
    rw [forgetExamples, forgetElements_eq_map, spell, spell, spellElementUses_eq_map,
      spellElementUses_eq_map, List.map_map]
    congr 1
    exact List.map_congr_left fun e he => spellUse_forgetExamples_of_spell s (ih e he)

theorem spellUse_forgetExamples (t : TypeTree) : t.forgetExamples.spellUse s = t.spellUse s :=
  spellUse_forgetExamples_of_spell s (spell_forgetExamples s t)

theorem spellDeclaration_forgetExamples (t : TypeTree) :
    t.forgetExamples.spellDeclaration s = t.spellDeclaration s := by
  -- Only the declaration of a record goes through the fields, and each one is spelled by its key
  -- and its type.
  by_cases hrecord : t.isRecord = true
  · rcases exists_eq_of_isRecord hrecord with ⟨name, v, profile, height, shape, fields, rfl⟩
    have hspelled : (fields.map fun f => (f.1, f.2.forgetExamples)).map
          (fun f => spellField s profile f.1 f.2) =
        fields.map fun f => spellField s profile f.1 f.2 := by
      rw [List.map_map]
      refine List.map_congr_left fun f _ => ?_
      dsimp only [Function.comp_apply, spellField]
      rw [spellUse_forgetExamples]
    rw [forgetExamples, forgetFields_eq_map]
    exact congrArg (fun spelled : List (Spelling (String × TypeExpr)) =>
      (⟨if profile.functional then .functionalRecord name (spelled.map (·.written))
        else .record name profile.doc (spelled.map (·.written)),
        "TypedDict" :: spelled.flatMap (·.symbols)⟩ : Spelling Declaration)) hspelled
  · rw [Bool.not_eq_true] at hrecord
    rw [spellDeclaration_of_not_record hrecord,
      spellDeclaration_of_not_record (by rwa [isRecord_forgetExamples]), name_forgetExamples,
      spell_forgetExamples]

theorem declareNode_forgetExamples (demanded : Bool) (t : TypeTree) (session : Session) :
    Session.declareNode s demanded t.forgetExamples session = Session.declareNode s demanded t session := by
  unfold Session.declareNode
  rw [isAliased_forgetExamples, name_forgetExamples, digest_forgetExamples,
    spellDeclaration_forgetExamples]

theorem declare_forgetExamples (demanded : Bool) (t : TypeTree) (session : Session) :
    Session.declare s demanded t.forgetExamples session = Session.declare s demanded t session := by
  induction t using induct_children generalizing demanded session with
  | node t ih =>
    have hchildren : ∀ (cs : List TypeTree), (∀ c ∈ cs, c ∈ t.children) → ∀ session,
        Session.declareAll s (cs.map forgetExamples) session = Session.declareAll s cs session := by
      intro cs
      induction cs with
      | nil => exact fun _ _ => rfl
      | cons c cs ihcs =>
        intro hmem session
        rw [List.map_cons, Session.declareAll, Session.declareAll, ih c (hmem c List.mem_cons_self)]
        exact congrArg (Session.andThen _) (funext (ihcs fun d hd => hmem d (List.mem_cons_of_mem c hd)))
    -- The children come first and then the node, with the same session on both sides.
    rw [Session.declare_eq, Session.declare_eq, children_forgetExamples,
      hchildren t.children fun c hc => hc]
    exact congrArg (Session.andThen _) (funext (declareNode_forgetExamples s demanded t))

/-- The declarations of a tree do not depend on the examples in it. -/
theorem EqUpToExamples.render_eq {t u : TypeTree} (h : EqUpToExamples t u) :
    t.render s = u.render s := by
  rw [render, render, ← declare_forgetExamples, h, declare_forgetExamples]

end Rendering

end TypeTree

end TypeSketch
