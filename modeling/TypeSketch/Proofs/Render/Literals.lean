import Mathlib.Data.List.Forall2
import Mathlib.Data.List.Induction
import TypeSketch.Proofs.Json.Written
import TypeSketch.Proofs.Render.DeclarationText
import TypeSketch.Render.Spelling

/-!
# What Literals Denote

A literal is read from its opening quotes on: a backslash and what follows it stand for one
character, the closing quotes end the literal, and everything else stands for itself. What is
written for a text reads as that text, between one quote on each side and between three, and
with anything behind the closing quotes.

A quote in a text is written with a backslash before it, and so is a backslash. So the number
of backslashes before a quote is odd: all but the last are pairs. At the end there are pairs
only, and the closing quotes are not escaped. No control character is written, in particular
none that ends a line, so a literal stays on its line whatever the text is.

Keys of an assignment and the documentation of a class are the texts that are written in this
way. They are the keys and the documentation of the record that is declared.

## Main definitions

* `Text.Quotes`, `Text.readLiteral`: Reading literals.
* `Text.finalSlashes`: The backslashes at the end of a text.
* `Text.IsWrittenFor`: What is written between quotes for a text.

## Theorems

* `Text.readLiteral_escapeChar`: One character more.
* `Text.isWrittenFor_escape`: What is written for a text reads as that text.
* `TypeTree.literals_denote`: The literals in the declaration of a record.
-/

namespace TypeSketch

namespace Text

/-- The quotes around a literal. -/
inductive Quotes where
  | one
  | three
deriving Repr, DecidableEq

/-- The quotes on one side. -/
def Quotes.mark : Quotes → List Char
  | one => ['"']
  | three => ['"', '"', '"']

/-- The character that a backslash and one more character stand for. -/
def shortEscape? : Char → Option Char
  | '\\' => some '\\'
  | '"' => some '"'
  | 'n' => some '\n'
  | 'r' => some '\r'
  | 't' => some '\t'
  | _ => none

/-- Whether a literal in these quotes must not have `c` in it. Only three quotes may have several
    lines between them. -/
def Quotes.excludes (quotes : Quotes) (c : Char) : Bool :=
  quotes = one && (c = '\n' || c = '\r')

/-- The text of a literal that is read from behind its opening quotes, and what is behind its
    closing ones. -/
def readLiteral (quotes : Quotes) : List Char → Option (List Char × List Char)
  | [] => none
  | '\\' :: 'x' :: high :: low :: rest => do
    let high ← Json.hexDigit? high
    let low ← Json.hexDigit? low
    let (text, behind) ← readLiteral quotes rest
    some (Char.ofNat (high * 16 + low) :: text, behind)
  | '\\' :: c :: rest => do
    let c ← shortEscape? c
    let (text, behind) ← readLiteral quotes rest
    some (c :: text, behind)
  | c :: rest =>
    match dropStart? quotes.mark (c :: rest) with
    | some behind => some ([], behind)
    | none =>
      if quotes.excludes c then none
      else do
        let (text, behind) ← readLiteral quotes rest
        some (c :: text, behind)

/-- The number of backslashes at the end of a text. -/
def finalSlashes (cs : List Char) : Nat := (cs.reverse.takeWhile (· = '\\')).length

/-- What is written between quotes for a text. -/
structure IsWrittenFor (text written : List Char) : Prop where
  not_control : ∀ c ∈ written, Unicode.isControl c = false
  odd_before : ∀ before after, written = before ++ '"' :: after → finalSlashes before % 2 = 1
  even_end : finalSlashes written % 2 = 0
  read_eq : ∀ (quotes : Quotes) (behind : List Char),
    readLiteral quotes (written ++ quotes.mark ++ behind) = some (text, behind)

section Reading

variable {quotes : Quotes} {c : Char} {rest behind : List Char}

/-- The closing quotes end a literal. -/
theorem readLiteral_mark (quotes : Quotes) (behind : List Char) :
    readLiteral quotes (quotes.mark ++ behind) = some ([], behind) := by
  cases quotes <;> rfl

/-- A character that is neither a backslash nor a quote stands for itself. -/
theorem readLiteral_cons (hslash : c ≠ '\\') (hquote : c ≠ '"') (hc : quotes.excludes c = false)
    (rest : List Char) :
    readLiteral quotes (c :: rest) = (readLiteral quotes rest).map fun p => (c :: p.1, p.2) := by
  have hmark : dropStart? quotes.mark (c :: rest) = none := by
    cases quotes <;> exact if_neg (Ne.symm hquote)
  rw [readLiteral.eq_4 _ _ _ (fun _ _ _ heq _ => hslash heq) (fun _ _ heq _ => hslash heq), hmark]
  dsimp only
  rw [hc, if_neg Bool.false_ne_true]
  cases readLiteral quotes rest <;> rfl

theorem shortEscape?_of_mem {d : Char} (h : (c, d) ∈ shortForms) :
    shortEscape? d = some c ∧ d ≠ 'x' := by
  simp only [shortForms, List.mem_cons, Prod.mk.injEq, List.not_mem_nil, or_false] at h
  rcases h with ⟨rfl, rfl⟩ | ⟨rfl, rfl⟩ | ⟨rfl, rfl⟩ | ⟨rfl, rfl⟩ | ⟨rfl, rfl⟩ <;>
    exact ⟨rfl, by decide⟩

/-- What is written for a character reads as that character, whatever comes behind it. -/
theorem readLiteral_escapeChar (quotes : Quotes) (c : Char) (rest : List Char) :
    readLiteral quotes (escapeChar c ++ rest) =
      (readLiteral quotes rest).map fun p => (c :: p.1, p.2) := by
  -- The reader takes one of its three ways by the first character: a short form, a code or the
  -- character itself.
  rcases escapeChar_cases c with ⟨d, hd, hc⟩ | ⟨hsmall, hc⟩ | ⟨hslash, hquote, hfeed, hc⟩
  · rcases shortEscape?_of_mem hd with ⟨hshort, hx⟩
    rw [hc, List.cons_append, List.singleton_append,
      readLiteral.eq_3 _ _ _ (fun _ _ _ heq _ => hx heq), hshort]
    cases readLiteral quotes rest <;> rfl
  · have hcode : Char.ofNat (c.toNat / 16 * 16 + c.toNat % 16) = c := by
      rw [Nat.div_add_mod', Char.ofNat_toNat]
    rw [hc, List.cons_append, List.cons_append, List.cons_append, List.singleton_append,
      readLiteral, Json.hexDigit?_digitChar _ (by omega),
      Json.hexDigit?_digitChar _ (by omega)]
    dsimp only [Option.bind_eq_bind, Option.bind_some]
    rw [hcode]
    cases readLiteral quotes rest <;> rfl
  · -- A carriage return has a short form, so it is not written as itself.
    have hreturn : c ≠ '\r' := by
      rintro rfl
      exact absurd hc (by decide)
    rw [hc, List.singleton_append]
    exact readLiteral_cons hslash hquote (by simp [Quotes.excludes, hfeed, hreturn]) rest

theorem readLiteral_flatMap_escapeChar (quotes : Quotes) (cs behind : List Char) :
    readLiteral quotes (cs.flatMap escapeChar ++ quotes.mark ++ behind) = some (cs, behind) := by
  induction cs with
  | nil => exact readLiteral_mark quotes behind
  | cons c cs ih =>
    rw [List.flatMap_cons, List.append_assoc, List.append_assoc, readLiteral_escapeChar,
      ← List.append_assoc, ih]
    rfl

end Reading

section Writing

variable {c : Char} {cs before after : List Char}

theorem isControl_digitChar : ∀ a < 16, Unicode.isControl (Nat.digitChar a) = false := by
  decide

/-- No control character is written. -/
theorem isControl_of_mem_escapeChar {d : Char} (hd : d ∈ escapeChar c) :
    Unicode.isControl d = false := by
  have hslash : Unicode.isControl '\\' = false := by decide
  -- Backslashes, letters of short forms and digits are no control characters.
  rcases escapeChar_cases c with ⟨e, he, hc⟩ | ⟨hsmall, hc⟩ | ⟨hne, _, _, hc⟩
  · rw [hc] at hd
    simp only [shortForms, List.mem_cons, Prod.mk.injEq, List.not_mem_nil, or_false] at hd he
    -- A backslash and the letter of the short form.
    rcases hd with rfl | rfl
    · exact hslash
    · rcases he with ⟨_, rfl⟩ | ⟨_, rfl⟩ | ⟨_, rfl⟩ | ⟨_, rfl⟩ | ⟨_, rfl⟩ <;> decide
  · rw [hc] at hd
    simp only [List.mem_cons, List.not_mem_nil, or_false] at hd
    rcases hd with rfl | rfl | rfl | rfl
    · exact hslash
    · decide
    · exact isControl_digitChar _ (by omega)
    · exact isControl_digitChar _ (by omega)
  · -- A control character would be written with a backslash.
    rw [hc, List.mem_singleton] at hd
    rw [hd]
    by_contra hcontrol
    rw [Bool.not_eq_false] at hcontrol
    unfold escapeChar at hc
    split at hc
    case _ => exact hne rfl
    all_goals simp_all

theorem finalSlashes_concat_slash (cs : List Char) :
    finalSlashes (cs ++ ['\\']) = finalSlashes cs + 1 := by
  rw [finalSlashes, List.reverse_append, List.reverse_singleton, List.singleton_append,
    List.takeWhile_cons_of_pos (by decide), List.length_cons]
  rfl

theorem finalSlashes_concat (hc : c ≠ '\\') (cs : List Char) : finalSlashes (cs ++ [c]) = 0 := by
  rw [finalSlashes, List.reverse_append, List.reverse_singleton, List.singleton_append,
    List.takeWhile_cons_of_neg (by simpa using hc), List.length_nil]

theorem digitChar_ne_slash : ∀ a < 16, Nat.digitChar a ≠ '\\' ∧ Nat.digitChar a ≠ '"' := by
  decide

/-- A character is written with a pair of backslashes or ends with something else. -/
theorem finalSlashes_append_escapeChar (h : finalSlashes cs % 2 = 0) (c : Char) :
    finalSlashes (cs ++ escapeChar c) % 2 = 0 := by
  rcases escapeChar_cases c with ⟨d, _, hc⟩ | ⟨hsmall, hc⟩ | ⟨hslash, _, _, hc⟩
  · rw [hc, ← List.singleton_append, ← List.append_assoc]
    by_cases hd : d = '\\'
    · rw [hd, finalSlashes_concat_slash, finalSlashes_concat_slash]
      omega
    · rw [finalSlashes_concat hd]
  · have hdigit := (digitChar_ne_slash (c.toNat % 16) (by omega)).1
    have hlast : ∀ a b d e : Char, cs ++ [a, b, d, e] = (cs ++ [a, b, d]) ++ [e] := by simp
    rw [hc, hlast, finalSlashes_concat hdigit]
  · rw [hc, finalSlashes_concat hslash]

theorem even_finalSlashes (cs : List Char) : finalSlashes (cs.flatMap escapeChar) % 2 = 0 := by
  induction cs using List.reverseRecOn with
  | nil => rfl
  | append_singleton cs c ih =>
    rw [List.flatMap_append, List.flatMap_singleton]
    exact finalSlashes_append_escapeChar ih c

/-- A quote is written behind one backslash. -/
theorem eq_of_escapeChar_eq_append (h : escapeChar c = before ++ '"' :: after) :
    before = ['\\'] := by
  have hmem : '"' ∈ escapeChar c := by simp [h]
  -- Only the short form of a quote has one in it.
  rcases escapeChar_cases c with ⟨d, _, hc⟩ | ⟨hsmall, hc⟩ | ⟨_, hquote, _, hc⟩
  · rw [hc] at h
    match before with
    | [] => exact absurd (List.cons.inj h).1 (by decide)
    | [a] => rw [(List.cons.inj h).1]
    | a :: b :: rest => exact absurd (congrArg List.length h) (by simp)
  · rw [hc] at hmem
    have hhigh := (digitChar_ne_slash (c.toNat / 16) (by omega)).2
    have hlow := (digitChar_ne_slash (c.toNat % 16) (by omega)).2
    simp only [List.mem_cons, List.not_mem_nil, or_false] at hmem
    rcases hmem with hmem | hmem | hmem | hmem
    · exact absurd hmem (by decide)
    · exact absurd hmem (by decide)
    · exact absurd hmem.symm hhigh
    · exact absurd hmem.symm hlow
  · rw [hc, List.mem_singleton] at hmem
    exact absurd hmem.symm hquote

theorem odd_finalSlashes (h : cs.flatMap escapeChar = before ++ '"' :: after) :
    finalSlashes before % 2 = 1 := by
  induction cs using List.reverseRecOn generalizing after with
  | nil => exact absurd h (by simp)
  | append_singleton cs c ih =>
    rw [List.flatMap_append, List.flatMap_singleton] at h
    -- The quote is in what is written before, or in what is written for the last character.
    rcases List.append_eq_append_iff.mp h with ⟨middle, hbefore, hquote⟩ | ⟨middle, hwritten, hrest⟩
    · rw [eq_of_escapeChar_eq_append hquote] at hbefore
      have heven := even_finalSlashes cs
      rw [hbefore, finalSlashes_concat_slash]
      omega
    · cases middle with
      | nil =>
        have hlast : escapeChar c = [] ++ '"' :: after := hrest.symm
        exact absurd (eq_of_escapeChar_eq_append hlast) (by simp)
      | cons d middle =>
        rw [List.cons_append, List.cons.injEq] at hrest
        rw [← hrest.1] at hwritten
        exact ih hwritten

end Writing

/-- What is written for a text reads as the text, stays on its line and does not end early. -/
theorem isWrittenFor_escape (s : String) : IsWrittenFor s.toList (escape s).toList := by
  have hchars : (escape s).toList = s.toList.flatMap escapeChar := String.toList_ofList
  rw [hchars]
  refine ⟨fun c hc => ?_, fun before after => odd_finalSlashes, even_finalSlashes _,
    fun quotes behind => readLiteral_flatMap_escapeChar quotes _ behind⟩
  rcases List.mem_flatMap.mp hc with ⟨d, _, hd⟩
  exact isControl_of_mem_escapeChar hd

/-- It is written for one text only. -/
theorem IsWrittenFor.eq {text other written : List Char} (h : IsWrittenFor text written)
    (h' : IsWrittenFor other written) : text = other := by
  have hread := h.read_eq .one []
  rw [h'.read_eq .one []] at hread
  exact (congrArg Prod.fst (Option.some.inj hread)).symm

end Text

namespace Declaration

open Imports (tab)
open Text

/-- The line is indented, and then there is a literal for the text with something behind it. -/
def HasLiteral (quotes : Quotes) (indent text behind : String) (line : List Char) : Prop :=
  ∃ written, IsWrittenFor text.toList written ∧
    line = indent.toList ++ quotes.mark ++ written ++ quotes.mark ++ behind.toList

theorem hasLiteral_rowLine (f : String × TypeExpr) :
    HasLiteral .one (tab ++ tab) f.1 (": " ++ f.2.text ++ ",") (rowLine f) := by
  refine ⟨_, isWrittenFor_escape f.1, ?_⟩
  rw [rowLine_eq]
  simp [Quotes.mark, String.toList_append]

/-- The lines of the fields of an assignment are in its text. -/
theorem exists_text_functionalRecord (name : String) (fields : List (String × TypeExpr)) :
    ∃ head tail, (functionalRecord name fields).text.toList =
      ['\n'].intercalate (head ++ fields.map rowLine ++ tail) := by
  rw [toList_text, lines, List.append_assoc]
  exact ⟨_, _, rfl⟩

theorem hasLiteral_openingLine (doc : String) :
    HasLiteral .three tab doc "" (tab ++ "\"\"\"" ++ escape doc ++ "\"\"\"").toList :=
  ⟨_, isWrittenFor_escape doc, by simp [Quotes.mark, String.toList_append]⟩

end Declaration

namespace TypeTree

open Imports (tab)
open Text

/-- The literals in the declaration of a record. What is written for a text reads as that text, and
    it is written for no other text. In an assignment every field has a line with a literal for its
    key, and in a class the line behind the first one is a literal for the documentation. -/
theorem literals_denote :
    (∀ text : String, IsWrittenFor text.toList (escape text).toList) ∧
    (∀ text other : String, escape text = escape other → text = other) ∧
    ∀ (s : Strategies) (name : String) (v : Value) (profile : RecordProfile) (height : Nat)
      (shape : Shape) (fields : List (Value × TypeTree)),
      let record := mapping name v (.record profile) height shape fields
      let declaration := (record.spellDeclaration s).written
      (profile.functional = true → ∃ head rows tail,
        declaration.text.toList = ['\n'].intercalate (head ++ rows ++ tail) ∧
        List.Forall₂ (fun row f => Declaration.HasLiteral .one (tab ++ tab) f.1.keyText
          (": " ++ (spellField s profile f.1 f.2).written.2.text ++ ",") row) rows fields) ∧
      (profile.functional = false → ∀ doc, profile.doc = some doc → ∃ first line rest,
        declaration.text.toList = ['\n'].intercalate (first :: line :: rest) ∧
        Declaration.HasLiteral .three tab doc "" line) := by
  refine ⟨isWrittenFor_escape, fun text other h => ?_,
    fun s name v profile height shape fields => ?_⟩
  · have hother := isWrittenFor_escape other
    rw [← h] at hother
    exact String.toList_inj.mp ((isWrittenFor_escape text).eq hother)
  -- A functional record has its keys in literals, and a class has its documentation in one.
  · refine ⟨fun hfunctional => ?_, fun hfunctional doc hdoc => ?_⟩
    · simp only [spellDeclaration, hfunctional, if_true]
      rcases Declaration.exists_text_functionalRecord name
        ((fields.map fun f => spellField s profile f.1 f.2).map (·.written)) with ⟨head, tail, htext⟩
      refine ⟨head, _, tail, htext, ?_⟩
      rw [List.map_map, List.forall₂_map_left_iff, List.forall₂_map_left_iff, List.forall₂_same]
      exact fun f _ => Declaration.hasLiteral_rowLine (spellField s profile f.1 f.2).written
    · simp only [spellDeclaration, hfunctional, Bool.false_eq_true, if_false, hdoc]
      exact ⟨_, _, _, Declaration.toList_text _, Declaration.hasLiteral_openingLine doc⟩

/-- A quote, a backslash at the end and an end of a line in keys. -/
theorem literals_denote_signs :
    let declaration := ((mapping "Signs" (.mapping []) (.record { functional := true }) 1 default
      [(.str "a\"b\\", .scalar "int" (.int 1) ⟨"int", none⟩),
        (.str "\n", .scalar "int" (.int 2) ⟨"int", none⟩)]).spellDeclaration {}).written
    declaration.text = "Signs = TypedDict(\n    \"Signs\",\n    \x7b\n        \"a\\\"b\\\\\": int,\n" ++
        "        \"\\n\": int,\n    \x7d,\n)" ∧
      ∃ head first second tail,
        declaration.text.toList = ['\n'].intercalate (head ++ [first, second] ++ tail) ∧
        Declaration.HasLiteral .one (tab ++ tab) "a\"b\\" ": int," first ∧
        Declaration.HasLiteral .one (tab ++ tab) "\n" ": int," second := by
  intro declaration
  refine ⟨by decide +kernel, ?_⟩
  rcases (literals_denote.2.2 {} "Signs" (.mapping []) { functional := true } 1 default
    [(.str "a\"b\\", .scalar "int" (.int 1) ⟨"int", none⟩),
        (.str "\n", .scalar "int" (.int 2) ⟨"int", none⟩)]).1 rfl with
    ⟨head, rows, tail, htext, hrows⟩
  rcases List.forall₂_cons_right_iff.mp hrows with ⟨first, rest, hfirst, hrest, rfl⟩
  rcases List.forall₂_cons_right_iff.mp hrest with ⟨second, none, hsecond, hnone, rfl⟩
  rcases List.forall₂_nil_right_iff.mp hnone with rfl
  exact ⟨head, first, second, tail, htext, hfirst, hsecond⟩

end TypeTree

end TypeSketch
