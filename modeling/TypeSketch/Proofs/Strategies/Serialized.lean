import TypeSketch.Proofs.Json.Records
import TypeSketch.Strategies.Format

/-!
# Strategies Survive Being Written

Settings are written with every member and read with none required, so reading starts from the
usual values and replaces all of them. What is read are the settings that were written, for
every key and every number of 64 bits, also those that are out of bounds: these are refused
after they are read, and for the same setting as without the detour.

Checked strategies are written as settings within their bounds. They pass the check again, and
nothing of them is lost.

## Main definitions

* `Settings.IsInRange`: Numbers of 64 bits.
* `Settings.members`: The members of an object of settings.

## Theorems

* `Settings.decode_json`: Settings read back.
* `Settings.toSettings_of_validate`: The check leaves the settings as they are.
* `Strategies.parse_json`: Strategies read back.
-/

namespace TypeSketch

open Json

namespace Settings

/-- The numbers of settings have 64 bits with their signs. -/
structure IsInRange (b : Settings) : Prop where
  le_aliasHeight : minInteger ≤ b.aliasHeight
  aliasHeight_le : b.aliasHeight ≤ maxInteger
  le_similarity : minInteger ≤ b.similarity
  similarity_le : b.similarity ≤ maxInteger

/-- The members of an object of settings. -/
def members (b : Settings) : List (String × List Char) :=
  [("list_strategy", (quote b.listStyle.text).toList),
    ("tuple_size_strategy", (quote b.tupleSize.text).toList),
    ("dict_strategy", (quote b.dictStyle.text).toList),
    ("min_height_to_define_type_alias", (toString b.aliasHeight).toList),
    ("key_used_as_doc", (quote b.docKey).toList),
    ("merge_different_typed_dicts_if_similarity_above", (toString b.similarity).toList),
    ("typed_dict_read_only_values", (if b.readOnly then "true" else "false").toList)]

theorem toList_json (b : Settings) : b.json.toList = '\x7b' :: membersText true b.members := by
  have hlist : "\x7b\"list_strategy\":".toList =
      '\x7b' :: ((quote "list_strategy").toList ++ [':']) := by decide
  have htuple : ",\"tuple_size_strategy\":".toList =
      ',' :: ((quote "tuple_size_strategy").toList ++ [':']) := by decide
  have hdict : ",\"dict_strategy\":".toList =
      ',' :: ((quote "dict_strategy").toList ++ [':']) := by decide
  have hheight : ",\"min_height_to_define_type_alias\":".toList =
      ',' :: ((quote "min_height_to_define_type_alias").toList ++ [':']) := by decide
  have hkey : ",\"key_used_as_doc\":".toList =
      ',' :: ((quote "key_used_as_doc").toList ++ [':']) := by decide
  have hsimilarity : ",\"merge_different_typed_dicts_if_similarity_above\":".toList =
      ',' :: ((quote "merge_different_typed_dicts_if_similarity_above").toList ++ [':']) := by
    decide
  have hreadOnly : ",\"typed_dict_read_only_values\":".toList =
      ',' :: ((quote "typed_dict_read_only_values").toList ++ [':']) := by decide
  have hbrace : "\x7d".toList = ['\x7d'] := by decide
  -- Only the written definition is opened: its equation is costly to make.
  unfold json
  simp only [String.toList_append, hlist, htuple, hdict, hheight, hkey, hsimilarity,
    hreadOnly, hbrace, members, membersText, memberText, List.append_assoc, List.cons_append,
    List.nil_append, Bool.false_eq_true, if_true, if_false]

/-- The members take the usual settings to those that are written. -/
theorem writes_members {b : Settings} (h : b.IsInRange) : format.Writes [] {} b.members b := by
  have hlist : ListStyle.variants.lookup b.listStyle.text = some b.listStyle := by
    cases b.listStyle <;> rfl
  have htuple : TupleSize.variants.lookup b.tupleSize.text = some b.tupleSize := by
    cases b.tupleSize <;> rfl
  have hdict : DictStyle.variants.lookup b.dictStyle.text = some b.dictStyle := by
    cases b.dictStyle <;> rfl
  have hbounds : -0x8000000000000000 ≤ minInteger ∧ maxInteger ≤ maxSignificand := by decide
  have hheight := isWritten_integer "i64" h.le_aliasHeight h.aliasHeight_le
    (Int.le_trans hbounds.1 h.le_aliasHeight) (Int.le_trans h.aliasHeight_le hbounds.2)
  have hsimilarity := isWritten_integer "i64" h.le_similarity h.similarity_le
    (Int.le_trans hbounds.1 h.le_similarity) (Int.le_trans h.similarity_le hbounds.2)
  -- One member after the other, each seen for the first time.
  refine .cons rfl (by decide) ((isWritten_choice hlist).map fun _ => rfl) ?_
  refine .cons rfl (by decide) ((isWritten_choice htuple).map fun _ => rfl) ?_
  refine .cons rfl (by decide) ((isWritten_choice hdict).map fun _ => rfl) ?_
  refine .cons rfl (by decide) (hheight.map fun _ => rfl) ?_
  refine .cons rfl (by decide) ((isWritten_string "a string" b.docKey).map fun _ => rfl) ?_
  refine .cons rfl (by decide) (hsimilarity.map fun _ => rfl) ?_
  refine .cons rfl (by decide) ((isWritten_boolean b.readOnly).map fun _ => rfl) ?_
  exact .nil rfl

/-- Settings that are written read back. -/
theorem decode_json {b : Settings} (h : b.IsInRange) : decode decoder b.json = .ok b := by
  have hread := RecordFormat.read_members (writes_members h) []
  rw [List.append_nil, ← toList_json] at hread
  rw [decode, decoder, hread]
  rfl

/-- What passes the check is what was checked. -/
theorem toSettings_of_validate {b : Settings} {s : Strategies} (h : b.validate = .ok s) :
    s.toSettings = b := by
  unfold validate at h
  dsimp only at h
  split at h
  case isTrue => cases h
  case isFalse hheight =>
    split at h
    case isTrue => cases h
    case isFalse hlow =>
      split at h
      case isTrue => cases h
      case isFalse =>
        cases h
        -- The numbers have passed the bounds, so none of them is negative.
        have haliasHeight : (b.aliasHeight.toNat : Int) = b.aliasHeight :=
          Int.toNat_of_nonneg (Int.not_lt.mp hheight)
        have hsimilarity : (b.similarity.toNat : Int) = b.similarity :=
          Int.toNat_of_nonneg (Int.le_of_lt (Int.not_le.mp hlow))
        rw [Strategies.toSettings, haliasHeight, hsimilarity]

end Settings

namespace Strategies

/-- **Strategies survive being written.** Reading settings that are written gives what the
    check gives without the detour, strategies or the refusal of a setting. Strategies that
    come of settings are read back as they are. -/
theorem parse_json (b : Settings) (h : b.IsInRange) :
    Strategies.parse b.json = b.validate ∧
    ∀ s, b.validate = .ok s → Strategies.parse s.toSettings.json = .ok s := by
  have hparse : Strategies.parse b.json = b.validate := by
    rw [Strategies.parse, Settings.decode_json h]
  refine ⟨hparse, fun s hs => ?_⟩
  rw [Settings.toSettings_of_validate hs, hparse, hs]

/-- A key of signs that are escaped, one way or the other, and the numbers at their ends: one
    that passes the check and one that does not. -/
theorem parse_json_bounds :
    let b : Settings := { docKey := "\"\\/\n\x08\x01é𝒳", aliasHeight := 0x7FFFFFFFFFFFFFFF }
    let c : Settings := { b with aliasHeight := -0x8000000000000000 }
    (b.IsInRange ∧ ∃ s, b.validate = .ok s ∧ s.docKey = b.docKey ∧
      Strategies.parse s.toSettings.json = .ok s) ∧
    (c.IsInRange ∧ Strategies.parse c.json =
      .error (.invalidConfig "min_height_to_define_type_alias" .belowZero)) := by
  intro b c
  have hb : b.IsInRange := ⟨by decide, by decide, by decide, by decide⟩
  have hc : c.IsInRange := ⟨by decide, by decide, by decide, by decide⟩
  exact ⟨⟨hb, _, rfl, rfl, (parse_json b hb).2 _ rfl⟩, hc, (parse_json c hc).1⟩

end Strategies

end TypeSketch
