/-!
# Digests of Byte Sequences

SipHash-1-3 with a key of zeros: a 64-bit digest of a sequence of bytes. The bytes
are taken in words of eight, the lowest byte first, with one round for each word
and three at the end. The last word holds the bytes that are left over and, on top,
the length.

## Main definitions

* `SipHash.State`, `SipHash.round`: The four words of the state and a round on them.
* `SipHash.digest`: The digest of a list of bytes.
-/

namespace TypeSketch

namespace SipHash

/-- The four words of the state. -/
structure State where
  v₀ : UInt64
  v₁ : UInt64
  v₂ : UInt64
  v₃ : UInt64
deriving Repr, DecidableEq

/-- The state before the first word, for a key of zeros. -/
def start : State where
  v₀ := 0x736f6d6570736575
  v₁ := 0x646f72616e646f6d
  v₂ := 0x6c7967656e657261
  v₃ := 0x7465646279746573

/-- A word rotated to the left. -/
def rotate (x : UInt64) (count : UInt64) : UInt64 :=
  (x <<< count) ||| (x >>> (64 - count))

/-- One round. -/
def round (s : State) : State :=
  let v₀ := s.v₀ + s.v₁
  let v₁ := rotate s.v₁ 13 ^^^ v₀
  let v₀ := rotate v₀ 32
  let v₂ := s.v₂ + s.v₃
  let v₃ := rotate s.v₃ 16 ^^^ v₂
  let v₀ := v₀ + v₃
  let v₃ := rotate v₃ 21 ^^^ v₀
  let v₂ := v₂ + v₁
  let v₁ := rotate v₁ 17 ^^^ v₂
  let v₂ := rotate v₂ 32
  ⟨v₀, v₁, v₂, v₃⟩

/-- The state after a word. -/
def absorb (s : State) (word : UInt64) : State :=
  let s := round { s with v₃ := s.v₃ ^^^ word }
  { s with v₀ := s.v₀ ^^^ word }

/-- The word of at most eight bytes, the lowest first. -/
def wordOf (bytes : List UInt8) : UInt64 :=
  bytes.foldr (fun byte word => (word <<< 8) ||| byte.toUInt64) 0

/-- The state after the whole words of the bytes, and the bytes that are left over. -/
def absorbWords (s : State) : List UInt8 → State × List UInt8
  | b₀ :: b₁ :: b₂ :: b₃ :: b₄ :: b₅ :: b₆ :: b₇ :: rest =>
    absorbWords (absorb s (wordOf [b₀, b₁, b₂, b₃, b₄, b₅, b₆, b₇])) rest
  | rest => (s, rest)

/-- The digest of a list of bytes. -/
def digest (bytes : List UInt8) : UInt64 :=
  let (s, rest) := absorbWords start bytes
  let s := absorb s ((UInt64.ofNat bytes.length <<< 56) ||| wordOf rest)
  let s := round (round (round { s with v₂ := s.v₂ ^^^ 0xff }))
  s.v₀ ^^^ s.v₁ ^^^ s.v₂ ^^^ s.v₃

/-- The eight bytes of a word, the lowest first. -/
def bytesOfWord (word : UInt64) : List UInt8 :=
  (List.range 8).map fun i => (word >>> UInt64.ofNat (8 * i)).toUInt8

/-- The bytes of a text in UTF-8, and one that occurs in no such encoding behind
    them. -/
def bytesOfText (s : String) : List UInt8 :=
  s.toUTF8.data.toList ++ [0xff]

end SipHash

end TypeSketch
