/-!
# Bytes Read as UTF-8

Reading bytes as UTF-8 when they may not be: every maximal start of an encoding
that is broken off, and every byte that starts none, becomes one replacement
character.

The reader takes one byte at a time. Between bytes it is either between two
characters or inside an encoding, and then it knows how many bytes are missing
and in which range the next one has to lie. The range is narrower than `80`–`BF`
only for the second byte after `E0`, `ED`, `F0` and `F4`, which excludes overlong
encodings, surrogates and code points above `10FFFF`.

## Main definitions

* `Utf8.Pending`: What is known inside an encoding.
* `Utf8.start`: What one byte between two characters gives.
* `Utf8.decodeLossy`: The text of a list of bytes.
-/

namespace TypeSketch

namespace Utf8

/-- The state inside an encoding: the bytes that are missing, the range of the
    next one and the code point as far as it is read. -/
structure Pending where
  missing : Nat
  low : Nat
  high : Nat
  code : Nat
deriving Repr, DecidableEq

/-- The character that stands for bytes that are no encoding. -/
def replacement : Char := '\uFFFD'

/-- What a byte gives that stands between two characters: a character that is
    complete, an encoding to go on with, or a replacement. -/
def start (byte : Nat) : Char ⊕ Pending :=
  if byte < 0x80 then .inl (Char.ofNat byte)
  else if byte < 0xC2 then .inl replacement
  else if byte < 0xE0 then .inr ⟨1, 0x80, 0xBF, byte - 0xC0⟩
  else if byte = 0xE0 then .inr ⟨2, 0xA0, 0xBF, 0⟩
  else if byte = 0xED then .inr ⟨2, 0x80, 0x9F, 0xD⟩
  else if byte < 0xF0 then .inr ⟨2, 0x80, 0xBF, byte - 0xE0⟩
  else if byte = 0xF0 then .inr ⟨3, 0x90, 0xBF, 0⟩
  else if byte < 0xF4 then .inr ⟨3, 0x80, 0xBF, byte - 0xF0⟩
  else if byte = 0xF4 then .inr ⟨3, 0x80, 0x8F, 4⟩
  else .inl replacement

/-- The characters of the remaining bytes, from either state. -/
def decodeFrom : Option Pending → List UInt8 → List Char
  | none, [] => []
  | some _, [] => [replacement]
  | none, byte :: rest =>
    match start byte.toNat with
    | .inl c => c :: decodeFrom none rest
    | .inr pending => decodeFrom (some pending) rest
  | some ⟨missing, low, high, code⟩, byte :: rest =>
    if low ≤ byte.toNat ∧ byte.toNat ≤ high then
      let code := code * 64 + (byte.toNat - 0x80)
      if missing ≤ 1 then Char.ofNat code :: decodeFrom none rest
      else decodeFrom (some ⟨missing - 1, 0x80, 0xBF, code⟩) rest
    else
      match start byte.toNat with
      | .inl c => replacement :: c :: decodeFrom none rest
      | .inr pending => replacement :: decodeFrom (some pending) rest

/-- The text of a list of bytes. -/
def decodeLossy (bytes : List UInt8) : String :=
  String.ofList (decodeFrom none bytes)

end Utf8

end TypeSketch
