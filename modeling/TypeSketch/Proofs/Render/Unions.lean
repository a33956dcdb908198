import TypeSketch.Render.Spelling

/-!
# Members of Unions

What a union is written with. The members are some of the types it is made from: one for
each text, without the integers that a `float` takes in. Without members a union is
written `Any`, and with one it is written as that one.

So the types can be read back from a union, up to absorption, if it is known that none of
them is written `Any` and none of them is a union itself. `TypeExpr.IsMember` says so.

## Main definitions

* `TypeExpr.names`: The names of types in a type.
* `Spelling.members`: The members of a union.
* `TypeExpr.IsMember`: Types that cannot be taken for a union.

## Theorems

* `Spelling.mem_of_mem_members`, `Spelling.exists_mem_members`: Which types are members.
* `Spelling.union_eq`: A union by the number of its members.
* `Spelling.names_union`: The names in a union.
* `Spelling.members_eq_of_union_eq`: A union determines its members.
-/

namespace TypeSketch

namespace TypeExpr

mutual

/-- The names of types in a type. Constructors are not among them. -/
def names : TypeExpr → List String
  | name s => [s]
  | apply _ arguments => argumentNames arguments

def argumentNames : List TypeExpr → List String
  | [] => []
  | e :: rest => names e ++ argumentNames rest

end

theorem argumentNames_eq_flatMap (arguments : List TypeExpr) :
    argumentNames arguments = arguments.flatMap names := by
  induction arguments with
  | nil => rfl
  | cons e rest ih => rw [argumentNames, ih, List.flatMap_cons]

theorem names_apply (constructor : String) (arguments : List TypeExpr) :
    (apply constructor arguments).names = arguments.flatMap names := by
  rw [names, argumentNames_eq_flatMap]

/-- A type that is written neither as a union is nor as one without members is. -/
def IsMember (e : TypeExpr) : Prop := e ≠ .name "Any" ∧ ∀ arguments, e ≠ .apply "Union" arguments

end TypeExpr

namespace Spelling

/-- The members of a union of types. -/
def members (types : List TypeExpr) : List TypeExpr :=
  absorbIntegers (sortByText types)

section Members

variable {types : List TypeExpr} {e : TypeExpr}

/-- What is kept of the types so far after one more. -/
theorem keep_spec (kept : List TypeExpr) (type : TypeExpr) :
    let next := if kept.any (·.text = type.text) then kept else kept ++ [type]
    (∀ e ∈ next, e ∈ kept ∨ e = type) ∧ (∀ e ∈ kept, e ∈ next) ∧
      ∃ e ∈ next, e.text = type.text := by
  by_cases hany : kept.any (·.text = type.text) = true
  · simp only [hany, if_true]
    rcases List.any_eq_true.mp hany with ⟨e, he, htext⟩
    exact ⟨fun e he => Or.inl he, fun e he => he, e, he, decide_eq_true_eq.mp htext⟩
  · simp only [hany, Bool.false_eq_true, if_false]
    refine ⟨fun e he => ?_, fun e he => List.mem_append_left _ he, type, by simp, rfl⟩
    rcases List.mem_append.mp he with he | he
    · exact Or.inl he
    · exact Or.inr (List.mem_singleton.mp he)

/-- Sorting keeps only types that are there, and one for each text. -/
theorem sortByText_spec (types : List TypeExpr) :
    (∀ e ∈ sortByText types, e ∈ types) ∧
      ∀ e ∈ types, ∃ e' ∈ sortByText types, e'.text = e.text := by
  -- The fold begins with any types kept so far, or the induction would not go through.
  have hfold : ∀ (types kept : List TypeExpr),
      let unique := types.foldl
        (fun kept type => if kept.any (·.text = type.text) then kept else kept ++ [type]) kept
      (∀ e ∈ unique, e ∈ kept ∨ e ∈ types) ∧ (∀ e ∈ kept, e ∈ unique) ∧
        ∀ e ∈ types, ∃ e' ∈ unique, e'.text = e.text := by
    intro types
    induction types with
    | nil =>
      intro kept
      exact ⟨fun e he => Or.inl he, fun e he => he, fun e he => absurd he List.not_mem_nil⟩
    | cons type rest ih =>
      intro kept
      rcases keep_spec kept type with ⟨hold, hmono, e₀, he₀, htext₀⟩
      rcases ih (if kept.any (·.text = type.text) then kept else kept ++ [type]) with
        ⟨hfrom, hkept, hcover⟩
      -- The first type is kept now, or one of its text has been kept before.
      refine ⟨fun e he => ?_, fun e he => hkept e (hmono e he), fun e he => ?_⟩
      · rcases hfrom e he with he | he
        · exact (hold e he).imp_right fun heq => by rw [heq]; exact List.mem_cons_self
        · exact Or.inr (List.mem_cons_of_mem type he)
      · rcases List.mem_cons.mp he with rfl | he
        · exact ⟨e₀, hkept e₀ he₀, htext₀⟩
        · exact hcover e he
  rcases hfold types [] with ⟨hfrom, _, hcover⟩
  simp only [sortByText, List.mem_mergeSort]
  exact ⟨fun e he => (hfrom e he).resolve_left List.not_mem_nil, hcover⟩

theorem mem_absorbIntegers :
    e ∈ absorbIntegers types ↔ e ∈ types ∧ ((∃ f ∈ types, f.text = "float") → e.text ≠ "int") := by
  have hany : types.any (·.text = "float") = true ↔ ∃ f ∈ types, f.text = "float" := by
    simp only [List.any_eq_true, decide_eq_true_eq]
  rw [absorbIntegers, ← hany]
  split
  · next h => simp only [List.mem_filter, decide_eq_true_eq, h, forall_const]
  · next h => simp only [h, Bool.false_eq_true, false_implies, and_true]

/-- A member of a union is one of its types, and no integer that is taken in. -/
theorem mem_of_mem_members (h : e ∈ members types) :
    e ∈ types ∧ ((∃ f ∈ types, f.text = "float") → e.text ≠ "int") := by
  rw [members, mem_absorbIntegers] at h
  refine ⟨(sortByText_spec types).1 e h.1, fun ⟨f, hf, hfloat⟩ => h.2 ?_⟩
  rcases (sortByText_spec types).2 f hf with ⟨f', hf', htext⟩
  exact ⟨f', hf', htext.trans hfloat⟩

/-- A type that is no integer that is taken in has a member with its text. -/
theorem exists_mem_members (he : e ∈ types) (h : (∃ f ∈ types, f.text = "float") → e.text ≠ "int") :
    ∃ e' ∈ members types, e'.text = e.text := by
  rcases (sortByText_spec types).2 e he with ⟨e', he', htext⟩
  refine ⟨e', mem_absorbIntegers.mpr ⟨he', fun ⟨f, hf, hfloat⟩ => ?_⟩, htext⟩
  rw [htext]
  exact h ⟨f, (sortByText_spec types).1 f hf, hfloat⟩

end Members

/-- What a union is, by the number of its members. -/
theorem union_eq (types : List TypeExpr) :
    union types = match members types with
      | [] => ⟨.name "Any", ["Any"]⟩
      | [single] => ⟨single, []⟩
      | several => ⟨.apply "Union" several, ["Union"]⟩ := by
  have hlisted : distinctTypes types = listed (members types) := rfl
  rw [union, hlisted]
  cases members types with
  | nil => rfl
  | cons first rest => cases rest <;> rfl

/-- How a union is written, by the number of its members. -/
theorem union_written (types : List TypeExpr) :
    (union types).written = match members types with
      | [] => .name "Any"
      | [single] => single
      | several => .apply "Union" several := by
  rw [union_eq]
  cases members types with
  | nil => rfl
  | cons first rest => cases rest <;> rfl

/-- The names in a union are those of its types and `Any`. -/
theorem names_union {types : List TypeExpr} {n : String} (h : n ∈ (union types).written.names) :
    n = "Any" ∨ ∃ e ∈ types, n ∈ e.names := by
  have hmembers : ∀ e ∈ members types, e ∈ types := fun e he => (mem_of_mem_members he).1
  rw [union_written] at h
  split at h
  · exact Or.inl (List.mem_singleton.mp h)
  · next single hsingle =>
    exact Or.inr ⟨single, hmembers single (by rw [hsingle]; exact List.mem_cons_self), h⟩
  · rw [TypeExpr.names_apply, List.mem_flatMap] at h
    rcases h with ⟨e, he, hn⟩
    exact Or.inr ⟨e, hmembers e he, hn⟩

/-- A union determines its members. -/
theorem members_eq_of_union_eq {types others : List TypeExpr} (ht : ∀ e ∈ types, e.IsMember)
    (ho : ∀ e ∈ others, e.IsMember) (h : (union types).written = (union others).written) :
    members types = members others := by
  have hleft : ∀ e ∈ members types, e.IsMember := fun e he => ht e (mem_of_mem_members he).1
  have hright : ∀ e ∈ members others, e.IsMember := fun e he => ho e (mem_of_mem_members he).1
  rw [union_written, union_written] at h
  generalize members types = left at h hleft ⊢
  generalize members others = right at h hright ⊢
  -- The three forms of unions differ, because a member has none of them for itself.
  match left, right with
  | [], [] => rfl
  | [e], [f] => exact congrArg ([·]) h
  | e :: e' :: rest, f :: f' :: rest' => exact (TypeExpr.apply.inj h).2
  | [], _ :: _ :: _ => contradiction
  | _ :: _ :: _, [] => contradiction
  | [], [f] => exact absurd h.symm (hright f List.mem_cons_self).1
  | [e], [] => exact absurd h (hleft e List.mem_cons_self).1
  | [e], _ :: _ :: _ => exact absurd h ((hleft e List.mem_cons_self).2 _)
  | _ :: _ :: _, [f] => exact absurd h.symm ((hright f List.mem_cons_self).2 _)

end Spelling

end TypeSketch
