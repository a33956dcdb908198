import Mathlib.Data.List.Forall2
import TypeSketch.Value.Basic

/-!
# Keys of Mappings

Lists of entries in which no two keys are one. Lookups compare keys by `Value.same`,
which takes floats as numbers, so two keys can be one without being equal. For texts
the two notions agree, and the keys of a record are texts: there a lookup finds an
entry exactly if the entry is in the list.

A list of entries is filled by `Value.setEntry`. It appends entries whose key is new
and changes no key, so distinct keys stay distinct, and a list of distinct keys is
what filling makes of it.

`Value.HasUniqueKeys` is what a caller promises of an example: no mapping in it
holds one key twice. `Value.IsOpaqueFree` says that no part of it is an instance of
a type that only its name is known of.

## Main definitions

* `Value.DistinctKeys`, `Value.TextKeys`: Lists of entries with keys of a kind.
* `Value.HasUniqueKeys`, `Value.IsOpaqueFree`: Promises about examples.

## Theorems

* `Value.induct`: Induction on values.
* `Value.opaqueFree_iff`, `Value.uniqueKeys_iff`: Both promises can be computed.
* `Value.same_str_iff`: A text is one key with itself alone.
* `Value.setEntry_of_fresh`: A new key comes last.
* `Value.keys_setEntry`: The keys after an entry has been set.
* `Value.distinctKeys_setEntry`: Distinct keys stay distinct.
* `Value.entry?_str_eq_some_iff`, `Value.entry?_eq_some_iff_of_textKeys`: A lookup finds what
  is in the list.
-/

namespace TypeSketch

namespace Value

theorem sizeOf_item_lt {kind : SequenceKind} {items : List Value} {item : Value} (h : item ∈ items) :
    sizeOf item < sizeOf (Value.sequence kind items) := by
  have := List.sizeOf_lt_of_mem h
  rw [Value.sequence.sizeOf_spec]
  omega

theorem sizeOf_entry_lt {entries : List (Value × Value)} {e : Value × Value} (h : e ∈ entries) :
    sizeOf e.1 < sizeOf (Value.mapping entries) ∧ sizeOf e.2 < sizeOf (Value.mapping entries) := by
  have := List.sizeOf_lt_of_mem h
  rcases e with ⟨key, v⟩
  rw [Prod.mk.sizeOf_spec] at this
  rw [Value.mapping.sizeOf_spec]
  dsimp only
  omega

/-- Induction on values, with the hypothesis for all items and for all keys and values
    of entries. -/
@[elab_as_elim, induction_eliminator]
theorem induct {P : Value → Prop} (atom : ∀ a, P (.atom a))
    (sequence : ∀ kind items, (∀ item ∈ items, P item) → P (.sequence kind items))
    (mapping : ∀ entries, (∀ e ∈ entries, P e.1 ∧ P e.2) → P (.mapping entries)) :
    ∀ v, P v
  | .atom a => atom a
  | .sequence kind items =>
    sequence kind items fun item _ => induct atom sequence mapping item
  | .mapping entries =>
    mapping entries fun e _ =>
      ⟨induct atom sequence mapping e.1, induct atom sequence mapping e.2⟩
termination_by v => sizeOf v
decreasing_by
  · exact sizeOf_item_lt ‹_›
  · exact (sizeOf_entry_lt ‹_›).1
  · exact (sizeOf_entry_lt ‹_›).2

/-- No two entries have one key. -/
def DistinctKeys {α : Type} (entries : List (Value × α)) : Prop :=
  entries.Pairwise fun a b => a.1.same b.1 = false

instance {α : Type} (entries : List (Value × α)) : Decidable (DistinctKeys entries) :=
  inferInstanceAs (Decidable (entries.Pairwise fun a b => a.1.same b.1 = false))

/-- All keys are texts. -/
def TextKeys {α : Type} (entries : List (Value × α)) : Prop :=
  ∀ e ∈ entries, ∃ s, e.1 = .str s

/-- No mapping in the value has one key twice. Keys are not looked into. -/
inductive HasUniqueKeys : Value → Prop
  | atom (a : Atom) : HasUniqueKeys (.atom a)
  | sequence {kind : SequenceKind} {items : List Value} (items_unique : ∀ v ∈ items, HasUniqueKeys v) :
    HasUniqueKeys (.sequence kind items)
  | mapping {entries : List (Value × Value)} (keys_distinct : DistinctKeys entries)
    (values_unique : ∀ e ∈ entries, HasUniqueKeys e.2) : HasUniqueKeys (.mapping entries)

/-- No part of the value, keys included, is of a type that only its name is known of. -/
inductive IsOpaqueFree : Value → Prop
  | atom {a : Atom} (builtin : ∀ typeName, a ≠ .named typeName) : IsOpaqueFree (.atom a)
  | sequence {kind : SequenceKind} {items : List Value} (items_free : ∀ v ∈ items, IsOpaqueFree v) :
    IsOpaqueFree (.sequence kind items)
  | mapping {entries : List (Value × Value)}
    (keys_free : ∀ e ∈ entries, IsOpaqueFree e.1) (values_free : ∀ e ∈ entries, IsOpaqueFree e.2) :
    IsOpaqueFree (.mapping entries)

section OpaqueFree

mutual

/-- The promise as a check of all parts. -/
def opaqueFree : Value → Bool
  | .atom (.named _) => false
  | .atom _ => true
  | .sequence _ items => opaqueFreeItems items
  | .mapping entries => opaqueFreeEntries entries

def opaqueFreeItems : List Value → Bool
  | [] => true
  | item :: rest => opaqueFree item && opaqueFreeItems rest

def opaqueFreeEntries : List (Value × Value) → Bool
  | [] => true
  | (key, v) :: rest => opaqueFree key && opaqueFree v && opaqueFreeEntries rest

end

theorem opaqueFreeItems_eq_all (items : List Value) : opaqueFreeItems items = items.all opaqueFree := by
  induction items with
  | nil => rfl
  | cons item rest ih => rw [opaqueFreeItems, ih, List.all_cons]

theorem opaqueFreeEntries_eq_all (entries : List (Value × Value)) :
    opaqueFreeEntries entries = entries.all fun e => e.1.opaqueFree && e.2.opaqueFree := by
  induction entries with
  | nil => rfl
  | cons e rest ih => rw [opaqueFreeEntries, ih, List.all_cons]

theorem opaqueFree_iff {v : Value} : v.opaqueFree = true ↔ v.IsOpaqueFree := by
  -- The test runs over the value, keys included, and so does the predicate.
  induction v with
  | atom a =>
    constructor
    · intro h
      refine .atom ?_
      rintro typeName rfl
      contradiction
    · rintro ⟨builtin⟩
      -- Every atom but one of a caller's type is free.
      cases a with
      | named typeName => exact absurd rfl (builtin typeName)
      | _ => rfl
  | sequence kind items ih =>
    rw [opaqueFree, opaqueFreeItems_eq_all, List.all_eq_true]
    constructor
    · exact fun h => .sequence fun item hitem => (ih item hitem).mp (h item hitem)
    · rintro ⟨⟩
      next items_free => exact fun item hitem => (ih item hitem).mpr (items_free item hitem)
  | mapping entries ih =>
    rw [opaqueFree, opaqueFreeEntries_eq_all, List.all_eq_true]
    simp only [Bool.and_eq_true]
    constructor
    · exact fun h => .mapping (fun e he => (ih e he).1.mp (h e he).1) fun e he => (ih e he).2.mp (h e he).2
    · rintro ⟨⟩
      next keys_free values_free =>
        exact fun e he => ⟨(ih e he).1.mpr (keys_free e he), (ih e he).2.mpr (values_free e he)⟩

instance (v : Value) : Decidable v.IsOpaqueFree := decidable_of_iff _ opaqueFree_iff

end OpaqueFree

section UniqueKeys

mutual

/-- The promise on keys as a check of all mappings. -/
def uniqueKeys : Value → Bool
  | .atom _ => true
  | .sequence _ items => uniqueKeysInItems items
  | .mapping entries => decide (DistinctKeys entries) && uniqueKeysInValues entries

def uniqueKeysInItems : List Value → Bool
  | [] => true
  | item :: rest => uniqueKeys item && uniqueKeysInItems rest

def uniqueKeysInValues : List (Value × Value) → Bool
  | [] => true
  | (_, v) :: rest => uniqueKeys v && uniqueKeysInValues rest

end

theorem uniqueKeysInItems_eq_all (items : List Value) :
    uniqueKeysInItems items = items.all uniqueKeys := by
  induction items with
  | nil => rfl
  | cons item rest ih => rw [uniqueKeysInItems, ih, List.all_cons]

theorem uniqueKeysInValues_eq_all (entries : List (Value × Value)) :
    uniqueKeysInValues entries = entries.all fun e => e.2.uniqueKeys := by
  induction entries with
  | nil => rfl
  | cons e rest ih => rw [uniqueKeysInValues, ih, List.all_cons]

theorem uniqueKeys_iff {v : Value} : v.uniqueKeys = true ↔ v.HasUniqueKeys := by
  induction v with
  | atom a => exact iff_of_true (by rw [uniqueKeys]) (.atom a)
  | sequence kind items ih =>
    rw [uniqueKeys, uniqueKeysInItems_eq_all, List.all_eq_true]
    constructor
    · exact fun h => .sequence fun item hitem => (ih item hitem).mp (h item hitem)
    · rintro ⟨⟩
      next items_unique => exact fun item hitem => (ih item hitem).mpr (items_unique item hitem)
  | mapping entries ih =>
    rw [uniqueKeys, uniqueKeysInValues_eq_all, Bool.and_eq_true, decide_eq_true_eq, List.all_eq_true]
    constructor
    · exact fun h => .mapping h.1 fun e he => (ih e he).2.mp (h.2 e he)
    · rintro ⟨⟩
      next keys_distinct values_unique =>
        exact ⟨keys_distinct, fun e he => (ih e he).2.mpr (values_unique e he)⟩

instance (v : Value) : Decidable v.HasUniqueKeys := decidable_of_iff _ uniqueKeys_iff

end UniqueKeys

section Text

@[simp] theorem keyText_str (s : String) : (str s).keyText = s := by
  rw [keyText]
  rfl

theorem eq_of_keyText_eq {v w : Value} (hv : ∃ s, v = .str s) (hw : ∃ s, w = .str s)
    (h : v.keyText = w.keyText) : v = w := by
  rcases hv with ⟨s, rfl⟩
  rcases hw with ⟨t, rfl⟩
  rw [keyText_str, keyText_str] at h
  rw [h]

theorem itemTexts_eq_map (items : List Value) : itemTexts items = items.map keyText := by
  induction items with
  | nil => rfl
  | cons v rest ih => rw [itemTexts, ih, List.map_cons]

theorem entryTexts_eq_map (entries : List (Value × Value)) :
    entryTexts entries = entries.map (·.1.keyText) := by
  induction entries with
  | nil => rfl
  | cons e rest ih => rw [entryTexts, ih, List.map_cons]

theorem forall₂_of_sameItems {items others : List Value} (h : sameItems items others = true) :
    List.Forall₂ (fun v w => v.same w = true) items others := by
  induction items generalizing others with
  | nil =>
    cases others with
    | nil => exact .nil
    | cons w others => simp [sameItems] at h
  | cons v items ih =>
    cases others with
    | nil => simp [sameItems] at h
    | cons w others =>
      rw [sameItems, Bool.and_eq_true] at h
      exact .cons h.1 (ih h.2)

theorem forall₂_of_sameEntries {entries others : List (Value × Value)}
    (h : sameEntries entries others = true) :
    List.Forall₂ (fun e f => e.1.same f.1 = true) entries others := by
  induction entries generalizing others with
  | nil =>
    cases others with
    | nil => exact .nil
    | cons f others => simp [sameEntries] at h
  | cons e entries ih =>
    cases others with
    | nil => simp [sameEntries] at h
    | cons f others =>
      rw [sameEntries, Bool.and_eq_true, Bool.and_eq_true] at h
      exact .cons h.1.1 (ih h.2)

theorem text?_eq_some_iff {v : Value} {s : String} : v.text? = some s ↔ v = .str s := by
  constructor
  · intro h
    cases v with
    | atom a =>
      cases a with
      | str t => rw [text?, Option.some.injEq] at h; rw [h]
      | _ => exact absurd h (by simp only [text?, reduceCtorEq, not_false_eq_true])
    | sequence kind items => contradiction
    | mapping entries => contradiction
  · intro h
    rw [h]
    rfl

theorem same_str_iff {s : String} {v : Value} : (str s).same v = true ↔ v = .str s := by
  cases v with
  | atom a =>
    rw [same]
    cases a <;> simp [Atom.same, eq_comm]
  | sequence kind items => simp [same]
  | mapping entries => simp [same]

theorem same_str_comm {s : String} {v : Value} : v.same (.str s) = true ↔ v = .str s := by
  cases v with
  | atom a =>
    rw [same]
    cases a <;> simp [Atom.same]
  | sequence kind items => simp [same]
  | mapping entries => simp [same]

end Text

section Entries

variable {α : Type}

theorem setEntry_of_fresh {entries : List (Value × α)} {key : Value} {x : α}
    (h : ∀ e ∈ entries, e.1.same key = false) :
    setEntry entries key x = entries ++ [(key, x)] := by
  induction entries with
  | nil => rfl
  | cons e rest ih =>
    rw [setEntry, h e List.mem_cons_self, if_neg Bool.false_ne_true, List.cons_append,
      ih fun e' he' => h e' (List.mem_cons_of_mem e he')]

theorem keys_setEntry (entries : List (Value × α)) (key : Value) (x : α) :
    (setEntry entries key x).map (·.1) =
      if entries.any (·.1.same key) then entries.map (·.1) else entries.map (·.1) ++ [key] := by
  induction entries with
  | nil => rfl
  | cons e rest ih =>
    rw [setEntry]
    by_cases h : e.1.same key = true
    · simp only [h, if_true, List.map_cons, List.any_cons, Bool.true_or]
    · simp only [h, Bool.false_eq_true, if_false, List.map_cons, ih, List.any_cons, Bool.false_or]
      split <;> rfl

theorem distinctKeys_iff_keys {entries : List (Value × α)} :
    DistinctKeys entries ↔ (entries.map (·.1)).Pairwise fun a b => a.same b = false := by
  rw [DistinctKeys, List.pairwise_map]

theorem distinctKeys_setEntry {entries : List (Value × α)} {key : Value} {x : α}
    (h : DistinctKeys entries) : DistinctKeys (setEntry entries key x) := by
  rw [distinctKeys_iff_keys] at h ⊢
  rw [keys_setEntry]
  split
  · exact h
  · next hfresh =>
    rw [List.pairwise_append]
    refine ⟨h, List.pairwise_singleton _ _, fun a ha b hb => ?_⟩
    rw [List.mem_singleton] at hb
    rcases List.mem_map.mp ha with ⟨e, he, rfl⟩
    rw [hb]
    simp only [List.any_eq_true, not_exists, not_and, Bool.not_eq_true] at hfresh
    exact hfresh e he

/-- An entry after another one has been set keeps its key, and its value is an old one
    or the one that has been set. -/
theorem mem_setEntry {entries : List (Value × α)} {key : Value} {x : α} {f : Value × α}
    (h : f ∈ setEntry entries key x) :
    (f.1 = key ∨ ∃ e ∈ entries, e.1 = f.1) ∧ (f.2 = x ∨ ∃ e ∈ entries, e.2 = f.2) := by
  induction entries with
  | nil =>
    rw [setEntry, List.mem_singleton] at h
    exact ⟨Or.inl (by rw [h]), Or.inl (by rw [h])⟩
  | cons e rest ih =>
    rw [setEntry] at h
    -- The first entry of that key takes the new value and keeps its own key.
    split at h
    · rcases List.mem_cons.mp h with h | h
      · exact ⟨Or.inr ⟨e, List.mem_cons_self, by rw [h]⟩, Or.inl (by rw [h])⟩
      · have hf := List.mem_cons_of_mem e h
        exact ⟨Or.inr ⟨f, hf, rfl⟩, Or.inr ⟨f, hf, rfl⟩⟩
    · rcases List.mem_cons.mp h with h | h
      · have he : f ∈ e :: rest := by rw [h]; exact List.mem_cons_self
        exact ⟨Or.inr ⟨f, he, rfl⟩, Or.inr ⟨f, he, rfl⟩⟩
      · rcases ih h with ⟨hkey, hvalue⟩
        refine ⟨hkey.imp_right ?_, hvalue.imp_right ?_⟩
        · exact fun ⟨e', he', heq⟩ => ⟨e', List.mem_cons_of_mem e he', heq⟩
        · exact fun ⟨e', he', heq⟩ => ⟨e', List.mem_cons_of_mem e he', heq⟩

/-- An entry after another one has been set is an old one, or it has the value that has been set
    and a key that is one with the key of that. -/
theorem mem_setEntry_cases {entries : List (Value × α)} {key : Value} {x : α} {f : Value × α}
    (h : f ∈ setEntry entries key x) :
    f ∈ entries ∨ f.2 = x ∧ (f.1 = key ∨ f.1.same key = true) := by
  induction entries with
  | nil =>
    rw [setEntry, List.mem_singleton] at h
    exact Or.inr ⟨by rw [h], Or.inl (by rw [h])⟩
  | cons e rest ih =>
    rw [setEntry] at h
    -- The entry that is found is replaced, and the ones behind it stay.
    split at h
    · next hsame =>
      rcases List.mem_cons.mp h with h | h
      · exact Or.inr ⟨by rw [h], Or.inr (by rw [h]; exact hsame)⟩
      · exact Or.inl (List.mem_cons_of_mem e h)
    · rcases List.mem_cons.mp h with h | h
      · exact Or.inl (by rw [h]; exact List.mem_cons_self)
      · exact (ih h).imp_left (List.mem_cons_of_mem e)

theorem mem_of_entry?_str {entries : List (Value × α)} {s : String} {x : α}
    (h : entry? entries (.str s) = some x) : (.str s, x) ∈ entries := by
  rw [Value.entry?, Option.map_eq_some_iff] at h
  rcases h with ⟨e, he, rfl⟩
  have hkey : e.1 = .str s := same_str_comm.mp (by simpa using List.find?_some he)
  have hmem := List.mem_of_find?_eq_some he
  rw [← hkey]
  exact hmem

/-- With distinct keys a lookup of a text finds an entry exactly if it is there. -/
theorem entry?_str_eq_some_iff {entries : List (Value × α)} (hd : DistinctKeys entries)
    {s : String} {x : α} : entry? entries (.str s) = some x ↔ (.str s, x) ∈ entries := by
  refine ⟨mem_of_entry?_str, fun h => ?_⟩
  induction entries with
  | nil => exact absurd h List.not_mem_nil
  | cons e rest ih =>
    rw [DistinctKeys, List.pairwise_cons] at hd
    rw [Value.entry?, List.find?_cons]
    rcases List.mem_cons.mp h with heq | hmem
    · have : e.1.same (.str s) = true := by rw [← heq]; exact same_str_iff.mpr rfl
      rw [this, Option.map_some, ← heq]
    · have hne : e.1.same (.str s) = false := hd.1 _ hmem
      rw [hne]
      exact ih hd.2 hmem

/-- Among texts a lookup of any key does. -/
theorem entry?_eq_some_iff_of_textKeys {entries : List (Value × α)} (hd : DistinctKeys entries)
    (ht : TextKeys entries) {key : Value} {x : α} :
    Value.entry? entries key = some x ↔ (key, x) ∈ entries := by
  constructor
  · intro h
    rw [Value.entry?, Option.map_eq_some_iff] at h
    rcases h with ⟨e, he, rfl⟩
    have hmem := List.mem_of_find?_eq_some he
    rcases ht e hmem with ⟨text, htext⟩
    -- The key that is found is a text, and a text is one key with itself alone.
    have hsame : e.1.same key = true := by simpa using List.find?_some he
    rw [htext, same_str_iff, ← htext] at hsame
    rw [hsame]
    exact hmem
  · intro h
    rcases ht _ h with ⟨text, htext⟩
    change key = .str text at htext
    rw [htext] at h ⊢
    exact (entry?_str_eq_some_iff hd).mpr h

/-- No two entries have keys of one text. -/
theorem nodup_keyTexts {entries : List (Value × α)} (hd : DistinctKeys entries)
    (ht : TextKeys entries) : (entries.map (·.1.keyText)).Nodup := by
  rw [List.Nodup, List.pairwise_map]
  refine hd.imp_of_mem fun {e e'} he he' hne heq => ?_
  rw [eq_of_keyText_eq (ht e he) (ht e' he') heq] at hne
  rcases ht e' he' with ⟨text, htext⟩
  rw [htext, same_str_iff.mpr rfl] at hne
  contradiction

theorem entry?_str_eq_none_iff {entries : List (Value × α)} {s : String} :
    entry? entries (.str s) = none ↔ ∀ e ∈ entries, e.1 ≠ .str s := by
  rw [Value.entry?, Option.map_eq_none_iff, List.find?_eq_none]
  refine forall_congr' fun e => forall_congr' fun _ => ?_
  rw [Ne, ← same_str_comm]

end Entries

end Value

end TypeSketch
