import TypeSketch.Proofs.Lists.Delimited
import TypeSketch.Proofs.Names.Suffixes
import TypeSketch.Proofs.Tree.Numbering

/-!
# Names Made of Tokens

What is appended to a name for the items of sequences can be told apart. It is the name of
a kind of sequences, with a capital letter at its start only, and perhaps a number. So a
name that has grown by several such tokens can be cut into them again: a token begins
where a capital letter stands.

## Main definitions

* `Naming.IsToken`, `Naming.StartsToken`: Tokens, and what can stand behind one.
* `Naming.IsStem`: Tokens that a number can be appended to.
* `SequenceKind.word`: What is appended for a sequence of a kind.

## Theorems

* `Naming.IsToken.append_inj`: The first token of a name can be read.
* `Naming.IsStem.isToken_ordinalName`: A word with a number is a token.
* `Naming.IsStem.ordinalName_inj`: The word and the number can be read.
-/

namespace TypeSketch

namespace Naming

/-- Whether a character is a capital letter of the ASCII alphabet. -/
def IsCapital (c : Char) : Prop := 0x41 ≤ c.toNat ∧ c.toNat ≤ 0x5A

instance (c : Char) : Decidable (IsCapital c) :=
  inferInstanceAs (Decidable (_ ∧ _))

/-- A capital letter and others behind it that are none. -/
def IsToken (s : String) : Prop := StartsBlock IsCapital s.toList

/-- Nothing, or something that starts with a capital letter. -/
def StartsToken (s : String) : Prop := ∀ c rest, s.toList = c :: rest → IsCapital c

theorem startsToken_empty : StartsToken "" := by
  intro c rest h
  contradiction

theorem IsToken.startsToken {s : String} (h : IsToken s) (more : String) :
    StartsToken (s ++ more) := by
  rcases h with ⟨c, rest, hs, hc, _⟩
  intro d others heq
  rw [String.toList_append, hs] at heq
  rwa [← (List.cons.inj heq).1]

/-- The first token of a name can be read. -/
theorem IsToken.append_inj {s t x y : String} (hs : IsToken s) (ht : IsToken t) (hx : StartsToken x)
    (hy : StartsToken y) (h : s ++ x = t ++ y) : s = t ∧ x = y := by
  rcases hs with ⟨c, rest, hsc, _, hrest⟩
  rcases ht with ⟨d, others, htd, _, hothers⟩
  have hchars := congrArg String.toList h
  rw [String.toList_append, String.toList_append, hsc, htd, List.cons_append, List.cons_append,
    List.cons.injEq] at hchars
  rcases eq_of_append_stop hrest hothers hx hy hchars.2 with ⟨htail, hmore⟩
  refine ⟨String.toList_inj.mp ?_, String.toList_inj.mp hmore⟩
  rw [hsc, htd, hchars.1, htail]

/-- Texts that go on from tokens differ if the tokens start with different letters. -/
theorem IsToken.head?_eq {s t x y : String} (hs : IsToken s) (ht : IsToken t) (h : s ++ x = t ++ y) :
    s.toList.head? = t.toList.head? := by
  rcases hs with ⟨c, rest, hsc, _⟩
  rcases ht with ⟨d, others, htd, _⟩
  have hchars := congrArg String.toList h
  rw [String.toList_append, String.toList_append, hsc, htd, List.cons_append, List.cons_append,
    List.cons.injEq] at hchars
  rw [hsc, htd, hchars.1]
  rfl

theorem toString_injective {m n : Nat} (h : toString m = toString n) : m = n := by
  have hdigits : Nat.toDigits 10 m = Nat.toDigits 10 n := by
    rw [← Nat.toList_repr, ← Nat.toList_repr]
    exact congrArg String.toList h
  rw [← Nat.ofDigitChars_ten_toDigits (n := m), hdigits, Nat.ofDigitChars_ten_toDigits]

end Naming

namespace TypeTree

theorem ordinalName_append (name word : String) (i : Nat) :
    ordinalName (name ++ word) i = name ++ ordinalName word i := by
  unfold ordinalName
  split
  · rfl
  · rw [String.append_assoc]

/-- What a number adds to a name are digits, and none for the first place. -/
theorem exists_ordinalName_eq (i : Nat) :
    ∃ digits : String, (∀ c ∈ digits.toList, c.isDigit = true) ∧
    (∀ name, ordinalName name i = name ++ digits) ∧
    ∀ j, (∀ name, ordinalName name j = name ++ digits) → i = j := by
  unfold ordinalName
  -- The first one has no digits, and the others are told apart by theirs.
  by_cases hi : i = 0
  · refine ⟨"", by simp, fun name => by rw [if_pos hi, String.append_empty], fun j hj => ?_⟩
    by_contra hne
    have hempty := hj ""
    rw [if_neg fun hj => hne (by rw [hi, hj]), String.empty_append, String.empty_append] at hempty
    exact Nat.repr_ne_empty hempty
  · refine ⟨toString (i + 1), fun c => Naming.isDigit_of_mem_toString, fun name => if_neg hi,
      fun j hj => ?_⟩
    have hname := hj ""
    by_cases hzero : j = 0
    · rw [if_pos hzero, String.empty_append] at hname
      exact absurd hname.symm Nat.repr_ne_empty
    · rw [if_neg hzero, String.empty_append, String.empty_append] at hname
      exact (Nat.succ.inj (Naming.toString_injective hname)).symm

end TypeTree

namespace Naming

open TypeTree

/-- A token without digits, so that a number behind it can be told from it. -/
def IsStem (s : String) : Prop := IsToken s ∧ ∀ c ∈ s.toList, ¬c.isDigit = true

instance (s : String) : Decidable (IsToken s) :=
  decidable_of_iff ((s.toList.head?.any (IsCapital ·) && s.toList.tail.all (¬IsCapital ·)) = true)
    (by
      rw [IsToken, StartsBlock]
      cases s.toList with
      | nil => simp
      | cons c rest => simp)

instance (s : String) : Decidable (IsStem s) :=
  decidable_of_iff (IsToken s ∧ s.toList.all (¬·.isDigit) = true) (by
    rw [IsStem, List.all_eq_true]
    simp)

theorem not_isCapital_of_isDigit {c : Char} (h : c.isDigit = true) : ¬IsCapital c := by
  have hlast : '9'.toNat < 0x41 := by decide
  rw [Char.isDigit_iff_toNat] at h
  rw [IsCapital]
  omega

/-- A word with a number is a token. -/
theorem IsStem.isToken_ordinalName {word : String} (h : IsStem word) (i : Nat) :
    IsToken (ordinalName word i) := by
  rcases h.1 with ⟨c, rest, hchars, hc, hrest⟩
  rcases exists_ordinalName_eq i with ⟨digits, hdigits, hname, _⟩
  refine ⟨c, rest ++ digits.toList, ?_, hc, fun d hd => ?_⟩
  · rw [hname, String.toList_append, hchars]
    rfl
  · rcases List.mem_append.mp hd with hd | hd
    · exact hrest d hd
    · exact not_isCapital_of_isDigit (hdigits d hd)

/-- The word and the number of a token can be read. -/
theorem IsStem.ordinalName_inj {word word' : String} {i j : Nat} (hword : IsStem word)
    (hword' : IsStem word') (h : ordinalName word i = ordinalName word' j) :
    word = word' ∧ i = j := by
  rcases exists_ordinalName_eq i with ⟨digits, hdigits, hname, hunique⟩
  rcases exists_ordinalName_eq j with ⟨digits', hdigits', hname', _⟩
  have hchars := congrArg String.toList h
  rw [hname, hname', String.toList_append, String.toList_append] at hchars
  have hstop : ∀ {digits : String}, (∀ c ∈ digits.toList, c.isDigit = true) →
      ∀ c rest, digits.toList = c :: rest → c.isDigit = true :=
    fun h c rest heq => h c (by rw [heq]; exact List.mem_cons_self)
  rcases eq_of_append_stop hword.2 hword'.2 (hstop hdigits) (hstop hdigits') hchars with
    ⟨hwords, hrest⟩
  refine ⟨String.toList_inj.mp hwords, hunique j fun name => ?_⟩
  rw [hname', String.toList_inj.mp hrest]

end Naming

namespace SequenceKind

open Naming TypeTree

/-- What is appended to a name for an item that is a sequence of this kind. -/
def word : SequenceKind → String
  | list => "List"
  | tuple => "Tuple"
  | set => "Set"
  | frozenset => "Frozenset"
  | iterator => "Iterator"

theorem childName_sequence (parent : String) (kind : SequenceKind) (items : List Value) :
    Naming.childName parent (.element (.sequence kind items)) = parent ++ kind.word := by
  have hcamel : upperCamel kind.typeName = kind.word := by
    cases kind <;> decide
  have hword : kind.word.isEmpty = false := by
    cases kind <;> decide
  have hsuffix : (ChildKey.element (.sequence kind items)).suffix =
      if (upperCamel kind.typeName).isEmpty then "Element" else upperCamel kind.typeName := rfl
  rw [Naming.childName, hsuffix, hcamel, hword, if_neg Bool.false_ne_true]

theorem isStem_word (kind : SequenceKind) : IsStem kind.word := by
  cases kind <;> decide

end SequenceKind

end TypeSketch
