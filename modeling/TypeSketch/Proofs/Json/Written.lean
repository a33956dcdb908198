import TypeSketch.Json.Quoted
import TypeSketch.Json.Typed

/-!
# Written Values Read Back

A text is written for a value if a decoder reads the value off it and stops where the text
ends. What follows is part of the statement, since a decoder sees the whole rest of a document:
the end of a number is found only at the comma or the closing brace behind it. So a decoder is
asked to stop at a text in front of these two only, the ones that stand behind the members of
an object.

A string is read one character at a time, and what is written for a character is read in
a few steps from the text of the string back to the text. Integers are digits without a zero in
front, and the digits of an integer of 64 bits fit the significand, none of them is left over.

## Main definitions

* `Json.EndsMember`: What can follow a member.
* `Json.IsWritten`: A text is written for a value.

## Theorems

* `Json.readStringFrom_escapeChar`: One character more.
* `Json.readString_quote`: What is written for a string reads as that string.
* `Json.isWritten_string`, `Json.isWritten_choice`, `Json.isWritten_boolean`,
  `Json.isWritten_integer`: Simple values.
-/

namespace TypeSketch

namespace Json

/-- What can follow a member of an object: a comma, or the closing brace. -/
inductive EndsMember : List Char → Prop where
  | comma (more : List Char) : EndsMember (',' :: more)
  | brace (more : List Char) : EndsMember ('\x7d' :: more)

/-- A decoder reads a value off a text and leaves what follows. -/
def IsWritten {α : Type} (decoder : Decoder α) (text : List Char) (a : α) : Prop :=
  ∀ rest, EndsMember rest → decoder (text ++ rest) = .ok (a, rest)

/-- What is read can be taken to something else, as long as the rest is left alone. -/
theorem IsWritten.map {α β : Type} {decoder : Decoder α} {text : List Char} {a : α} {b : β}
    {g : α × List Char → β × List Char} (h : IsWritten decoder text a)
    (hg : ∀ rest, g (a, rest) = (b, rest)) : IsWritten (fun cs => (decoder cs).map g) text b := by
  intro rest hrest
  dsimp only
  rw [h rest hrest, Except.map, hg]

/-- Nothing is passed over before a character that is no blank. -/
theorem skipBlanks_cons {c : Char} (h : (c = ' ' || c = '\n' || c = '\t' || c = '\r') = false)
    (rest : List Char) : skipBlanks (c :: rest) = c :: rest :=
  List.dropWhile_cons_of_neg (by simpa using h)

/-! ## Strings -/

theorem hexDigit?_digitChar : ∀ a < 16, hexDigit? (Nat.digitChar a) = some a := by
  decide

/-- What is written for a character: a letter or a sign after a backslash, its code, or the
    character itself. -/
theorem escapeChar_cases (c : Char) :
    (∃ d, simpleEscape? d = some c ∧ escapeChar c = ['\\', d]) ∨
    (c.toNat < 0x20 ∧ escapeChar c =
      ['\\', 'u', '0', '0', Nat.digitChar (c.toNat / 16), Nat.digitChar (c.toNat % 16)]) ∨
    (c ≠ '"' ∧ c ≠ '\\' ∧ ¬c.toNat < 0x20 ∧ escapeChar c = [c]) := by
  unfold escapeChar
  split
  case h_8 hquote hslash _ _ _ _ _ =>
    split
    case isTrue hsmall => exact .inr (.inl ⟨hsmall, rfl⟩)
    case isFalse hlarge => exact .inr (.inr ⟨hquote, hslash, hlarge, rfl⟩)
  all_goals exact .inl ⟨_, rfl, rfl⟩

/-- The four digits of a control character stand for it. -/
theorem readStringFrom_code {c : Char} (h : c.toNat < 0x20) (read rest : List Char) :
    readStringFrom (.digits 4 0 none) read
      ('0' :: '0' :: Nat.digitChar (c.toNat / 16) :: Nat.digitChar (c.toNat % 16) :: rest) =
    readStringFrom .text (c :: read) rest := by
  have hzero : hexDigit? '0' = some 0 := by decide
  -- A control character is no half of a pair, so the escape ends with it.
  have hfinish : finishEscape none c.toNat = .ok (.inl c) := by
    have hsecond : isSecondSurrogate c.toNat = false := by
      simp only [isSecondSurrogate, Bool.and_eq_false_iff, decide_eq_false_iff_not]
      omega
    have hfirst : isFirstSurrogate c.toNat = false := by
      simp only [isFirstSurrogate, Bool.and_eq_false_iff, decide_eq_false_iff_not]
      omega
    simp only [finishEscape, hsecond, hfirst, Char.ofNat_toNat, Bool.false_eq_true, if_false]
  have hcode : ((0 * 16 + 0) * 16 + 0) * 16 + c.toNat / 16 = c.toNat / 16 := by omega
  have hsum : c.toNat / 16 * 16 + c.toNat % 16 = c.toNat := by omega
  simp only [readStringFrom, hzero, hexDigit?_digitChar _ (show c.toNat / 16 < 16 by omega),
    hexDigit?_digitChar _ (show c.toNat % 16 < 16 by omega), hcode, hsum, hfinish,
    Nat.reduceSub, Nat.reduceLT, if_true, if_false]

/-- Four characters have four bytes. -/
theorem hasFourBytes_cons (a b c d : Char) (rest : List Char) :
    hasFourBytes (a :: b :: c :: d :: rest) = true := by
  have ha := a.utf8Size_pos
  have hb := b.utf8Size_pos
  have hc := c.utf8Size_pos
  have hd := d.utf8Size_pos
  refine decide_eq_true ?_
  simp only [List.take_succ_cons, List.take_zero, List.foldl_cons, List.foldl_nil]
  omega

/-- What is written for a character adds that character to a string. -/
theorem readStringFrom_escapeChar (c : Char) (read rest : List Char) :
    readStringFrom .text read (escapeChar c ++ rest) = readStringFrom .text (c :: read) rest := by
  have hopen (d : Char) (more : List Char) :
      readStringFrom .text read ('\\' :: d :: more) = readStringFrom .escaped read (d :: more) := by
    rw [readStringFrom, if_neg (by decide), if_pos rfl]
  rcases escapeChar_cases c with ⟨d, hd, hc⟩ | ⟨hsmall, hc⟩ | ⟨hquote, hslash, hlarge, hc⟩
  · rw [hc, List.cons_append, List.singleton_append, hopen, readStringFrom, hd]
  · have hu : simpleEscape? 'u' = none := by decide
    rw [hc]
    simp only [List.cons_append, List.nil_append]
    rw [hopen, readStringFrom, hu]
    dsimp only
    rw [if_neg (by decide), if_pos (hasFourBytes_cons _ _ _ _ rest), readStringFrom_code hsmall]
  · rw [hc, List.singleton_append, readStringFrom, if_neg hquote, if_neg hslash, if_neg hlarge]

theorem readStringFrom_flatMap (cs read rest : List Char) :
    readStringFrom .text read (cs.flatMap escapeChar ++ '"' :: rest) =
      .ok (String.ofList (read.reverse ++ cs), rest) := by
  induction cs generalizing read with
  | nil => simp [readStringFrom]
  | cons c cs ih =>
    rw [List.flatMap_cons, List.append_assoc, readStringFrom_escapeChar, ih]
    simp

/-- A written string is an opening quote and what a reader of strings goes on with. -/
theorem toList_quote_append (s : String) (rest : List Char) :
    (quote s).toList ++ rest = '"' :: (s.toList.flatMap escapeChar ++ '"' :: rest) := by
  simp [quote]

/-- What is written for a string reads as that string after its opening quote. -/
theorem readString_quote (s : String) (rest : List Char) :
    readString (s.toList.flatMap escapeChar ++ '"' :: rest) = .ok (s, rest) := by
  rw [readString, readStringFrom_flatMap, List.reverse_nil, List.nil_append,
    String.ofList_toList]

theorem skipBlanks_quote (rest : List Char) : skipBlanks ('"' :: rest) = '"' :: rest :=
  skipBlanks_cons (by decide) rest

theorem isWritten_string (expected s : String) :
    IsWritten (string expected) (quote s).toList s := by
  intro rest _
  simp only [toList_quote_append, string, skipBlanks_quote, readString_quote, located]

/-! ## Choices and Truth Values -/

theorem isWritten_choice {α : Type} {variants : List (String × α)} {name : String} {a : α}
    (h : variants.lookup name = some a) : IsWritten (choice variants) (quote name).toList a := by
  intro rest _
  have hvariant : variant variants name = .ok a := by rw [variant, h]
  simp only [toList_quote_append, choice, skipBlanks_quote, readString_quote, located]
  change (variant variants name).bind _ = _
  rw [hvariant]
  rfl

theorem isWritten_boolean (b : Bool) :
    IsWritten boolean (if b then "true" else "false").toList b := by
  intro rest _
  cases b with
  | false => rfl
  | true => rfl

/-! ## Integers -/

section Digits

variable {n : Nat}

/-- An integer above zero has no zero in front. -/
theorem head?_toDigits_ne (h : 0 < n) : (Nat.toDigits 10 n).head? ≠ some '0' := by
  induction n using Nat.strongRecOn with
  | ind n ih =>
    rcases Nat.lt_or_ge n 10 with hlt | hge
    · have hdigit : ∀ m < 10, 0 < m → [Nat.digitChar m].head? ≠ some '0' := by decide
      rw [Nat.toDigits_of_lt_base hlt]
      exact hdigit n hlt h
    · rw [Nat.toDigits_of_base_le (by decide) hge, List.head?_append,
        Option.or_of_isSome (by simp)]
      exact ih (n / 10) (by omega) (by omega)

theorem le_ofDigitChars (digits : List Char) (s : Nat) : s ≤ Nat.ofDigitChars 10 digits s := by
  induction digits generalizing s with
  | nil => exact Nat.le_refl s
  | cons d digits ih => exact Nat.le_trans (by omega) (ih (10 * s + (d.toNat - '0'.toNat)))

/-- Digits whose number fits the significand are all taken into it. -/
theorem absorb_eq (digits : List Char) (s : Nat)
    (h : Nat.ofDigitChars 10 digits s ≤ maxSignificand) :
    absorb s digits = (Nat.ofDigitChars 10 digits s, digits.length) := by
  induction digits generalizing s with
  | nil => rfl
  | cons d digits ih =>
    have hnext : s * 10 + digitValue d = 10 * s + (d.toNat - '0'.toNat) := by
      rw [Nat.mul_comm, digitValue]
    rw [Nat.ofDigitChars_cons] at h ⊢
    have hfits := Nat.le_trans (le_ofDigitChars digits _) h
    rw [absorb, hnext]
    dsimp only
    rw [if_neg (Nat.not_lt_of_ge hfits), ih _ h, List.length_cons]

theorem absorb_toDigits (h : n ≤ maxSignificand) :
    absorb 0 (Nat.toDigits 10 n) = (n, (Nat.toDigits 10 n).length) := by
  have hvalue : Nat.ofDigitChars 10 (Nat.toDigits 10 n) 0 = n := Nat.ofDigitChars_ten_toDigits
  rw [absorb_eq _ _ (by rw [hvalue]; exact h), hvalue]

/-- The digits of a number end where the member ends. -/
theorem span_toDigits {rest : List Char} (hrest : EndsMember rest) (n : Nat) :
    (Nat.toDigits 10 n ++ rest).takeWhile Char.isDigit = Nat.toDigits 10 n ∧
    (Nat.toDigits 10 n ++ rest).dropWhile Char.isDigit = rest := by
  have hdigits : ∀ c ∈ Nat.toDigits 10 n, c.isDigit = true :=
    fun c => Nat.isDigit_of_mem_toDigits (by decide) (by decide)
  rw [List.takeWhile_append_of_pos hdigits, List.dropWhile_append_of_pos hdigits]
  cases hrest with
  | comma more => simp
  | brace more => simp

/-- Digits without point and exponent are the integer that they write. -/
theorem readNumber_toDigits {rest : List Char} (hrest : EndsMember rest) (negative : Bool)
    (h : n ≤ maxSignificand) :
    readNumber negative (Nat.toDigits 10 n ++ rest) = .ok (integerNumber negative n, rest) := by
  rcases span_toDigits hrest n with ⟨htake, hdrop⟩
  have hne : (Nat.toDigits 10 n).isEmpty = false := by simp
  have hlead : ¬((Nat.toDigits 10 n).head? = some '0' ∧ 1 < (Nat.toDigits 10 n).length) := by
    rintro ⟨hhead, hlength⟩
    rcases Nat.eq_zero_or_pos n with rfl | hpos
    · exact absurd hlength (by decide)
    · exact head?_toDigits_ne hpos hhead
  unfold readNumber
  simp only [htake, hdrop, absorb_toDigits h, hne, if_neg hlead, Bool.false_eq_true, if_false,
    Int.sub_self]
  cases hrest with
  | comma more => simp
  | brace more => simp

end Digits

section Bounds

variable {low high i : Int} {cs rest : List Char} (expected : String)

theorem integer_of_isDigit {d : Char} (hd : d.isDigit = true)
    (hread : readNumber false (d :: cs) = .ok (.integer i, rest)) (hlow : low ≤ i)
    (hhigh : i ≤ high) : integer low high expected (d :: cs) = .ok (i, rest) := by
  -- The choice of the branch rests on this.
  have hminus : d ≠ '-' := by
    rintro rfl
    exact absurd hd (by decide)
  have hskip : skipBlanks (d :: cs) = d :: cs := by
    refine skipBlanks_cons (Bool.eq_false_iff.mpr fun hblank => ?_) cs
    simp only [Bool.or_eq_true, decide_eq_true_eq] at hblank
    rcases hblank with ((rfl | rfl) | rfl) | rfl <;> exact absurd hd (by decide)
  simp [integer, hskip, hd, hread, hlow, hhigh]

theorem integer_of_minus (hread : readNumber true cs = .ok (.integer i, rest)) (hlow : low ≤ i)
    (hhigh : i ≤ high) : integer low high expected ('-' :: cs) = .ok (i, rest) := by
  simp [integer, skipBlanks_cons, hread, hlow, hhigh]

/-- An integer of 64 bits within the bounds of a decoder. -/
theorem isWritten_integer (hlow : low ≤ i) (hhigh : i ≤ high) (hmin : -0x8000000000000000 ≤ i)
    (hmax : i ≤ maxSignificand) : IsWritten (integer low high expected) (toString i).toList i := by
  intro rest hrest
  rw [Int.toString_eq_repr]
  -- The reader looks at the first character: a digit, or a minus and then the magnitude.
  cases i with
  | ofNat n =>
    have hread := readNumber_toDigits hrest false (n := n) (by simp at hmax; omega)
    obtain ⟨d, ds, hds⟩ := List.exists_cons_of_ne_nil (Nat.toDigits_ne_nil (b := 10) (n := n))
    have hmem : d ∈ Nat.toDigits 10 n := by
      rw [hds]
      exact List.mem_cons_self
    have hd : d.isDigit = true := Nat.isDigit_of_mem_toDigits (by decide) (by decide) hmem
    change integer low high expected (n.repr.toList ++ rest) = _
    rw [Nat.toList_repr, hds]
    rw [hds] at hread
    exact integer_of_isDigit expected hd hread hlow hhigh
  | negSucc n =>
    have hread := readNumber_toDigits hrest true (n := n + 1) (by simp [maxSignificand]; omega)
    have hsmall : ¬(n + 1 = 0 ∨ 0x8000000000000000 < n + 1) := by omega
    -- The magnitude fits, so the number stays an integer.
    have hnumber : integerNumber true (n + 1) = .integer (Int.negSucc n) := by
      rw [integerNumber, if_neg (by decide), if_neg hsmall]
      rfl
    rw [hnumber] at hread
    change integer low high expected (("-" ++ (n + 1).repr).toList ++ rest) = _
    rw [String.toList_append, Nat.toList_repr]
    exact integer_of_minus expected hread hlow hhigh

end Bounds

end Json

end TypeSketch
