import TypeSketch.Proofs.Json.Written

/-!
# Written Records Read Back

An object with one member for each field, in any order, is written for the record that the
fields make of the initial one. Each member is read by the field of its name, and takes the
record one step further; no name stands there twice, so no member is refused.

The reader has as many steps as the text has characters. A member has a colon at least, so the
text is longer than the list of its members, and the steps suffice.

## Main definitions

* `Json.membersText`: The text of members, up to the closing brace.
* `Json.RecordFormat.Writes`: Members and the record that they make of another.

## Theorems

* `Json.RecordFormat.readMembers_member`: One member more.
* `Json.RecordFormat.readMembers_members`: All members.
* `Json.RecordFormat.read_members`: An object of them.
-/

namespace TypeSketch

namespace Json

/-- A member as it is written: its name in quotes, a colon and the text of its value. -/
def memberText (member : String × List Char) : List Char :=
  (quote member.1).toList ++ ':' :: member.2

/-- The text of members up to and including the closing brace, with a comma in front of each
    member but the first. -/
def membersText (isFirst : Bool) : List (String × List Char) → List Char
  | [] => ['\x7d']
  | member :: members =>
    (if isFirst then [] else [',']) ++ memberText member ++ membersText false members

/-- What follows a member is another member or the closing brace. -/
theorem endsMember_membersText (members : List (String × List Char)) (rest : List Char) :
    EndsMember (membersText false members ++ rest) := by
  cases members with
  | nil => exact .brace rest
  | cons member members => exact .comma _

theorem length_lt_membersText (isFirst : Bool) (members : List (String × List Char)) :
    members.length < (membersText isFirst members).length := by
  induction members generalizing isFirst with
  | nil => exact Nat.zero_lt_one
  | cons member members ih =>
    have hrest := ih false
    simp only [membersText, memberText, List.length_append, List.length_cons]
    omega

/-- The reader of keys takes the separator and the key of a member. -/
theorem nextKey_member (isFirst : Bool) (name : String) (text rest : List Char) :
    nextKey isFirst ((if isFirst then [] else [',']) ++ memberText (name, text) ++ rest) =
      .ok (some name, ':' :: (text ++ rest)) := by
  have hmember : memberText (name, text) ++ rest =
      '"' :: (name.toList.flatMap escapeChar ++ '"' :: ':' :: (text ++ rest)) := by
    rw [memberText, List.append_assoc, toList_quote_append]
    rfl
  have hcomma (more : List Char) : skipBlanks (',' :: more) = ',' :: more :=
    skipBlanks_cons (by decide) more
  rw [List.append_assoc, hmember]
  cases isFirst with
  | true => simp [nextKey, skipBlanks_quote, readKey, readString_quote, Except.map]
  | false => simp [nextKey, hcomma, skipBlanks_quote, readKey, readString_quote, Except.map]

namespace RecordFormat

variable {σ : Type} {format : RecordFormat σ} {seen : List String} {record next last : σ}
  {members : List (String × List Char)}

/-- Members that take a record to another after some names were seen. Each has a name that was
    not seen before, of a field that reads its text, and at the end no field is missing. -/
inductive Writes (format : RecordFormat σ) :
    List String → σ → List (String × List Char) → σ → Prop where
  | nil {seen : List String} {record : σ} (hmissing : format.missing? seen = none) :
    Writes format seen record [] record
  | cons {seen : List String} {record next last : σ} {name : String} {text : List Char}
      {members : List (String × List Char)} {field : Field σ}
      (hfield : format.fields.find? (·.name = name) = some field)
      (hseen : seen.contains name = false)
      (hread : IsWritten (field.read record) text next)
      (hrest : Writes format (name :: seen) next members last) :
    Writes format seen record ((name, text) :: members) last

/-- A member that is written for a field takes the record one step further. -/
theorem readMembers_member {name : String} {text rest : List Char} {field : Field σ}
    (hfield : format.fields.find? (·.name = name) = some field)
    (hseen : seen.contains name = false) (hread : IsWritten (field.read record) text next)
    (hrest : EndsMember rest) (fuel : Nat) (isFirst : Bool) :
    format.readMembers (fuel + 1) isFirst seen record
        ((if isFirst then [] else [',']) ++ memberText (name, text) ++ rest) =
      format.readMembers fuel false (name :: seen) next rest := by
  have hcolon : readColon (':' :: (text ++ rest)) = .ok (text ++ rest) := by
    simp [readColon, skipBlanks_cons]
  have hvalue := hread rest hrest
  rw [readMembers, nextKey_member]
  dsimp only [located, Except.mapError, bind, Except.bind]
  rw [hfield]
  dsimp only
  rw [hseen, if_neg Bool.false_ne_true, hcolon]
  dsimp only
  rw [hvalue]

/-- The members that are written take the record to the end. -/
theorem readMembers_members (h : format.Writes seen record members last) (rest : List Char)
    {fuel : Nat} (hfuel : members.length < fuel) (isFirst : Bool) :
    format.readMembers fuel isFirst seen record (membersText isFirst members ++ rest) =
      .ok (last, rest) := by
  -- Along the members: what is behind the first one is the text of the others.
  induction h generalizing fuel isFirst with
  | nil hmissing =>
    obtain ⟨fuel, rfl⟩ := Nat.exists_eq_succ_of_ne_zero (Nat.ne_zero_of_lt hfuel)
    have hend : nextKey isFirst ('\x7d' :: rest) = .ok (none, '\x7d' :: rest) := by
      simp [nextKey, skipBlanks_cons]
    rw [membersText, List.singleton_append, readMembers, hend]
    dsimp only [located, Except.mapError, bind, Except.bind]
    rw [hmissing]
    rfl
  | cons hfield hseen hread _ ih =>
    obtain ⟨fuel, rfl⟩ := Nat.exists_eq_succ_of_ne_zero (Nat.ne_zero_of_lt hfuel)
    rw [membersText, List.append_assoc,
      readMembers_member hfield hseen hread (endsMember_membersText _ rest)]
    exact ih (Nat.lt_of_succ_lt_succ hfuel) false

/-- An object of written members reads as the record that they make, whatever comes behind
    its closing brace. -/
theorem read_members (h : format.Writes [] record members last) (rest : List Char) :
    format.read record ('\x7b' :: membersText true members ++ rest) = .ok (last, rest) := by
  have hfuel : members.length < (membersText true members ++ rest).length + 1 := by
    have hlength := length_lt_membersText true members
    rw [List.length_append]
    omega
  rw [List.cons_append, RecordFormat.read, skipBlanks_cons (by decide)]
  exact readMembers_members h rest hfuel true

end RecordFormat

end Json

end TypeSketch
