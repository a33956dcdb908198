/-!
# Glob Patterns

Patterns for names: a question mark is any character, a star any text, and a class in
brackets one of the characters it lists, or with an exclamation mark first none of
them. Two stars are a pattern of their own for any directories on the way.

A pattern for paths is one pattern for each component. It has to be well formed as a
whole, where brackets may reach over a slash, and then component by component.

## Main definitions

* `Glob.Token`, `Glob.Fault`: The parts of a pattern and why a text is none.
* `Glob.readTokens`: The tokens of a text.
* `Glob.accepts`: The names that tokens stand for.
* `Glob.PathPattern.parse`: A pattern for paths.
-/

namespace TypeSketch

namespace Glob

/-- Whether a text has a character with a meaning in patterns. -/
def isPattern (s : String) : Bool :=
  s.toList.any fun c => c = '*' || c = '?' || c = '['

/-- A part of a pattern. A class is a list of ranges, both ends included. -/
inductive Token where
  | char (c : Char)
  | anyChar
  | within (ranges : List (Char × Char))
  | outside (ranges : List (Char × Char))
  | anyText
  | anyDirectories
deriving Repr, DecidableEq

/-- Why a text is no pattern, with the position of the fault in characters. -/
inductive Fault where
  | tooManyStars (position : Nat)
  | starsNotAlone (position : Nat)
  | openClass (position : Nat)
deriving Repr, DecidableEq

/-- The wording of a fault. -/
def Fault.message : Fault → String
  | tooManyStars position =>
    near position ++ "wildcards are either regular `*` or recursive `**`"
  | starsNotAlone position =>
    near position ++ "recursive wildcards must form a single path component"
  | openClass position => near position ++ "invalid range pattern"
where
  near (position : Nat) : String := "Pattern syntax error near position " ++ toString position ++ ": "

/-- The ranges that the inside of a class lists: two characters with a hyphen between
    them, or one character. -/
def readRanges : List Char → List (Char × Char)
  | first :: '-' :: last :: rest => (first, last) :: readRanges rest
  | c :: rest => (c, c) :: readRanges rest
  | [] => []

/-- The inside of a class and what follows it. The first character is inside even if
    it is a bracket. -/
def splitClass? : List Char → Option (List Char × List Char)
  | [] => none
  | first :: rest =>
    match rest.dropWhile (· ≠ ']') with
    | [] => none
    | _ :: after => some (first :: rest.takeWhile (· ≠ ']'), after)

/-- The class after an opening bracket, and what follows it. -/
def readClass? : List Char → Option (Token × List Char)
  | '!' :: rest => (splitClass? rest).map fun (inside, after) => (.outside (readRanges inside), after)
  | cs => (splitClass? cs).map fun (inside, after) => (.within (readRanges inside), after)

theorem length_of_splitClass? {cs inside after : List Char}
    (h : splitClass? cs = some (inside, after)) : after.length < cs.length := by
  cases cs with
  | nil => simp [splitClass?] at h
  | cons first rest =>
    simp only [splitClass?] at h
    have hsuffix := (List.dropWhile_suffix (fun c => decide (c ≠ ']')) (l := rest)).length_le
    split at h
    · simp at h
    · next c tail hdrop =>
      rw [hdrop] at hsuffix
      simp only [Option.some.injEq, Prod.mk.injEq] at h
      rw [← h.2]
      simp only [List.length_cons] at hsuffix ⊢
      omega

/-- What follows a class is shorter than what it was read from. -/
theorem length_of_readClass? {cs after : List Char} {token : Token}
    (h : readClass? cs = some (token, after)) : after.length < cs.length := by
  unfold readClass? at h
  split at h
  · obtain ⟨⟨inside, tail⟩, hsplit, heq⟩ := Option.map_eq_some_iff.1 h
    simp only [Prod.mk.injEq] at heq
    have := length_of_splitClass? hsplit
    rw [← heq.2, List.length_cons]
    omega
  · obtain ⟨⟨inside, tail⟩, hsplit, heq⟩ := Option.map_eq_some_iff.1 h
    simp only [Prod.mk.injEq] at heq
    rw [← heq.2]
    exact length_of_splitClass? hsplit

/-- The tokens of a text that stands at a position, after the character `before` or at
    the start. Two stars have to be all that is between slashes. -/
def readTokens (position : Nat) (before : Option Char) (cs : List Char) :
    Except Fault (List Token) :=
  match cs with
  | [] => .ok []
  | '?' :: rest => (readTokens (position + 1) (some '?') rest).map (.anyChar :: ·)
  -- Three stars are refused wherever they stand, before two of them are looked at.
  | '*' :: '*' :: '*' :: _ => .error (.tooManyStars (position + 2))
  | '*' :: '*' :: rest =>
    if before ≠ none ∧ before ≠ some '/' then .error (.starsNotAlone (position - 1))
    else if rest ≠ [] ∧ rest.head? ≠ some '/' then .error (.starsNotAlone (position + 2))
    else (readTokens (position + 2) (some '*') rest).map (.anyDirectories :: ·)
  | '*' :: rest => (readTokens (position + 1) (some '*') rest).map (.anyText :: ·)
  | '[' :: rest =>
    match h : readClass? rest with
    | some (token, after) =>
      have := length_of_readClass? h
      (readTokens (position + (1 + rest.length - after.length)) (some ']') after).map (token :: ·)
    | none => .error (.openClass position)
  | c :: rest => (readTokens (position + 1) (some c) rest).map (.char c :: ·)
termination_by cs.length

/-- Whether a class lists a character. -/
def lists (ranges : List (Char × Char)) (c : Char) : Bool :=
  ranges.any fun (first, last) => first ≤ c && c ≤ last

/-- Whether tokens stand for a text, which is the name of a component. -/
def accepts : List Token → List Char → Bool
  | [], cs => cs.isEmpty
  | .char c :: tokens, d :: cs => c = d && accepts tokens cs
  | .anyChar :: tokens, _ :: cs => accepts tokens cs
  | .within ranges :: tokens, c :: cs => lists ranges c && accepts tokens cs
  | .outside ranges :: tokens, c :: cs => !lists ranges c && accepts tokens cs
  | .anyText :: tokens, cs => anyRest tokens cs
  | .anyDirectories :: tokens, cs => anyRest tokens cs
  | _ :: _, [] => false
where
  /-- Whether tokens stand for an end of a text. -/
  anyRest (tokens : List Token) : List Char → Bool
    | [] => accepts tokens []
    | c :: cs => accepts tokens (c :: cs) || anyRest tokens cs

/-- The name that is the only one that tokens stand for, if they are all characters. -/
def literal? (tokens : List Token) : Option String :=
  (tokens.mapM fun
    | Token.char c => some c
    | _ => none).map String.ofList

/-- A pattern for paths. One that ends in a slash is for directories only. -/
structure PathPattern where
  absolute : Bool
  components : List (List Token)
  directoriesOnly : Bool
deriving Repr, DecidableEq

/-- The texts between the slashes, without an empty one at the end. -/
def splitPath (cs : List Char) : List (List Char) :=
  let parts := cs.splitOn '/'
  if parts.getLast? = some [] then parts.dropLast else parts

/-- The pattern for paths that a text writes. -/
def PathPattern.parse (s : String) : Except Fault PathPattern := do
  let cs := s.toList
  -- The whole text is read first, since faults are reported with positions in it.
  let _ ← readTokens 0 none cs
  let absolute := cs.head? = some '/'
  let components ← (splitPath (if absolute then cs.drop 1 else cs)).mapM (readTokens 0 none)
  return ⟨absolute, components, cs.getLast? = some '/'⟩

end Glob

end TypeSketch
