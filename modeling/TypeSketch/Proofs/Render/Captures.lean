import TypeSketch.Proofs.Names.Identifiers
import TypeSketch.Proofs.Render.Importable
import TypeSketch.Proofs.Render.Permuted

/-!
# Captured Names

Nothing compares the names that a module declares with those that it imports or that are
built in. But a declared name is that of the root or begins with it, and what stands behind
does not start with a small letter. The constructors of types and the names of built-in types
are few, and only four of them can be cut in two at such a place: `TypedDict`, `FrozenSet`,
`NotRequired` and `ReadOnly`. So all captures can be listed by the name of the root, and each
of them does occur.

## Main definitions

* `Naming.typeWords`: The constructors and the names of built-in types.
* `Naming.captures`: Names of roots, and constructors that start with them.
* `Inference.Captures`: Modules that declare a name which they import.

## Theorems

* `Naming.Extends.mem_captures`: Type words with a shorter name at their start.
* `Inference.mem_captures_of_render`: What the names in a module can capture.
-/

namespace TypeSketch

namespace Naming

/-- What a name in a declaration can stand for without being declared. -/
def typeWords : List String := TypeTree.constructorSymbols ++ builtinNames

/-- The names of roots, each with the word that one more part makes of it. -/
def captures : List (String × String) :=
  [("Typed", "TypedDict"), ("Frozen", "FrozenSet"), ("Not", "NotRequired"), ("Read", "ReadOnly")]

/-- The places where a type word can be cut in two. -/
theorem mem_captures_of_split : ∀ word ∈ typeWords, ∀ i ∈ List.range word.toList.length, i ≠ 0 →
    (word.toList[i]?.any (Unicode.IsSmall ·)) = false →
      (String.ofList (word.toList.take i), word) ∈ captures := by
  decide

/-- A type word that is a name with a suffix is one of four. -/
theorem Extends.mem_captures {root word : String} (h : Extends root word) (hroot : root ≠ "")
    (hword : word ∈ typeWords) : (root, word) ∈ captures := by
  rcases h with ⟨suffix, ⟨c, rest, hsuffix, hsmall⟩, hname⟩
  have hchars : word.toList = root.toList ++ c :: rest := by
    rw [hname, String.toList_append, hsuffix]
  -- The word is cut behind the name of the root.
  have hplace : root.toList.length ∈ List.range word.toList.length := by
    rw [List.mem_range, hchars, List.length_append, List.length_cons]
    omega
  have hpos : root.toList.length ≠ 0 := by
    rw [Ne, List.length_eq_zero_iff]
    exact fun hnil => hroot (String.toList_inj.mp hnil)
  have hcut := mem_captures_of_split word hword _ hplace hpos
  rw [hchars, List.getElem?_append_right (Nat.le_refl _), Nat.sub_self,
    List.getElem?_cons_zero, List.take_left', String.ofList_toList] at hcut
  · exact hcut (decide_eq_false hsmall)
  · rfl

end Naming

namespace Inference

open TypeTree Naming

variable {s : Strategies} {name : String} {v : Value} {t : TypeTree} {session : Session}

/-- A declared name is that of the root, or it extends it. -/
theorem name_eq_or_extends_of_render {run : Inference} (h : run.infer name v = .ok t)
    (hrender : t.render s = .ok session) {d : Declaration} (hd : d ∈ session.blocks) :
    d.name = name ∨ Extends name d.name := by
  rcases Session.takes_of_render hrender d hd with ⟨u, hu, rfl, _⟩
  rw [name_spellDeclaration]
  have hroot := name_of_node (infer_eq_ok_iff.mp h).2
  rcases mem_nodes.mp hu with rfl | hu
  · exact Or.inl hroot
  · rw [← hroot]
    exact Or.inr ((wellNamed_of_infer h).extends_of_mem_descendants hu)

/-- A declared name is neither imported nor that of a built-in type, unless the name of the root
    is one of four and the declared one is the symbol that starts with it. -/
theorem mem_captures_of_render (h : infer { strategies := s } name v = .ok t)
    (hroot : name ∉ typeWords) (hrender : t.render s = .ok session) : ∀ d ∈ session.blocks,
      d.name ∈ session.symbols ∨ d.name ∈ builtinNames → (name, d.name) ∈ captures := by
  intro d hd htaken
  have hword : d.name ∈ typeWords := by
    rcases htaken with hsymbol | hbuiltin
    · exact List.mem_append_left _ (mem_symbols_of_render h hrender hsymbol)
    · exact List.mem_append_right _ hbuiltin
  rcases name_eq_or_extends_of_render h hrender hd with heq | hextends
  · rw [heq] at hword
    exact absurd hword hroot
  · exact hextends.mem_captures (ne_empty_of_isIdentifier (infer_eq_ok_iff.mp h).1) hword

/-- Rows in a list, under the name that their own name captures a constructor with. -/
theorem mem_captures_of_render_rows :
    ∃ t session, infer {} "Typed" (.sequence .list [ones ["a"]]) = .ok t ∧
      t.render {} = .ok session ∧ session.blocks.map (·.name) = ["TypedDict", "Typed"] ∧
      ∃ d ∈ session.blocks, d.name = "TypedDict" ∧ d.name ∈ session.symbols ∧
        ("Typed", d.name) ∈ captures := by
  refine ⟨_, _, rfl, rfl, by decide +kernel, _, List.mem_cons_self, by decide +kernel, ?_, ?_⟩
  · exact NameSet.contains_iff.mp (by decide +kernel)
  · exact @mem_captures_of_render {} "Typed" (.sequence .list [ones ["a"]]) _ _ rfl (by decide) rfl
      _ List.mem_cons_self (Or.inl (NameSet.contains_iff.mp (by decide +kernel)))

/-- The module of the tree declares a name that it imports. -/
def CapturesIn (s : Strategies) (t : TypeTree) (word : String) : Prop :=
  ∃ session, t.render s = .ok session ∧ word ∈ session.blocks.map (·.name) ∧
    session.symbols.contains word = true

/-- The module of the value declares a name that it imports. -/
def Captures (s : Strategies) (name : String) (v : Value) (word : String) : Prop :=
  ∃ t, infer { strategies := s } name v = .ok t ∧ CapturesIn s t word

instance (s : Strategies) (t : TypeTree) (word : String) : Decidable (CapturesIn s t word) :=
  match h : t.render s with
  | .error _ => .isFalse fun ⟨_, h', _⟩ => nomatch h.symm.trans h'
  | .ok session =>
    decidable_of_iff (word ∈ session.blocks.map (·.name) ∧ session.symbols.contains word = true)
      ⟨fun hboth => ⟨session, h, hboth⟩, fun ⟨_, h', hboth⟩ =>
        (Except.ok.inj (h.symm.trans h')).symm ▸ hboth⟩

instance (s : Strategies) (name : String) (v : Value) (word : String) :
    Decidable (Captures s name v word) :=
  match h : infer { strategies := s } name v with
  | .error _ => .isFalse fun ⟨_, h', _⟩ => nomatch h.symm.trans h'
  | .ok t =>
    decidable_of_iff (CapturesIn s t word)
      ⟨fun hword => ⟨t, h, hword⟩, fun ⟨_, h', hword⟩ =>
        (Except.ok.inj (h.symm.trans h')).symm ▸ hword⟩

/-- Two rows in a list, one with a field that the other lacks. -/
def uneven : Value := .sequence .list [ones ["a", "b"], ones ["a"]]

/-- Under names that are no type words themselves, each of the four words is both declared and
    imported by the module of some value. -/
theorem captured_symbols :
    (∀ capture ∈ captures, isIdentifier capture.1 = true ∧ capture.1 ∉ typeWords) ∧
      Captures {} "Typed" (.sequence .list [ones ["a"]]) "TypedDict" ∧
      Captures {} "Frozen" (.mapping [(.str "set", .sequence .frozenset [.int 1])]) "FrozenSet" ∧
      Captures {} "Not" (.mapping [(.str "required", uneven)]) "NotRequired" ∧
      Captures { readOnly := true } "Read" (.mapping [(.str "only", .sequence .list [.int 1])])
        "ReadOnly" := by
  refine ⟨by decide +kernel, by decide +kernel, by decide +kernel, ?_, ?_⟩ <;> decide +kernel

end Inference

end TypeSketch
