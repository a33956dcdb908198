import TypeSketch.Digest
import TypeSketch.Shape.Basic

/-!
# Digests of Shapes

A 64-bit digest of a shape. Nodes are compared by it, and a manifest remembers it. It is
made of the form written as bytes and the digests of the parts, so a part of any size adds
eight bytes.

Lists are written with their length before them and texts with a closing byte, so
one sequence of bytes belongs to one form with one list of digests. The parts of a
set have their digests in it once, also if two parts have the same one. A tuple has
those of all its positions.

## Main definitions

* `Shape.stream`: The bytes of a form and the digests of its parts.
* `Shape.digest`: The digest of a shape.
-/

namespace TypeSketch

namespace Shape

open SipHash

/-- The bytes of a length. -/
def lengthBytes (n : Nat) : List UInt8 :=
  bytesOfWord (UInt64.ofNat n)

/-- The bytes of a truth value. -/
def flagByte (b : Bool) : List UInt8 :=
  [if b then 1 else 0]

/-- A list of words with its length. -/
def wordsBytes (words : List UInt64) : List UInt8 :=
  lengthBytes words.length ++ words.flatMap bytesOfWord

/-- A set of words, given by a list of them. -/
def wordSetBytes (words : List UInt64) : List UInt8 :=
  wordsBytes (distinct words)

/-- The bytes of a form and the digests of its parts. -/
def stream (form : Form) (digests : List UInt64) : List UInt8 :=
  match form with
  | .scalar rendered => bytesOfText "scalar" ++ bytesOfText rendered
  | .record fields =>
    bytesOfText "typed_dict" ++ lengthBytes fields.length ++
      (fields.zip digests).flatMap fun ((name, required), word) =>
        bytesOfText name ++ flagByte required ++ bytesOfWord word
  | .mapping keyTypes =>
    bytesOfText "mapping" ++ lengthBytes keyTypes.length ++ keyTypes.flatMap bytesOfText ++
      wordSetBytes digests
  | .list => bytesOfText "list" ++ wordSetBytes digests
  | .set frozen => bytesOfText "set" ++ flagByte frozen ++ wordSetBytes digests
  | .iterator => bytesOfText "iterator" ++ wordSetBytes digests
  | .tuple => bytesOfText "tuple" ++ wordsBytes digests

mutual

/-- The digest of a shape. -/
def digest : Shape → UInt64
  | node form parts => SipHash.digest (stream form (digests parts))

def digests : List Shape → List UInt64
  | [] => []
  | part :: rest => digest part :: digests rest

end

end Shape

end TypeSketch
