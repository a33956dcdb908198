import Mathlib.Algebra.Group.Nat.Defs
import Mathlib.Data.List.Nodup
import TypeSketch.Proofs.Lists.Delimited
import TypeSketch.Shape.Digest

/-!
# Reading Streams Back

What is fed to the hasher for a shape says which form it has and which digests its parts
have: a stream starts with the tag of the form, texts end with a byte that no encoding
of a text holds, and words take eight bytes. So two shapes of one digest are of one
form, with parts of one digest, unless the hasher collides on their streams. Over shapes
on which it does not, the digest determines the shape.

A set of parts has each digest in the stream once. If two parts had one digest, the stream
would not tell that there are two, but then the hasher collides on the streams of the parts.

The numbers of key types are written as words. Two mappings with numbers that differ
by a multiple of 2⁶⁴ are out of reach of that, and `Shape.IsReadable` leaves them out.

## Main definitions

* `Shape.fed`: The stream of a shape.
* `Shape.written`: The digests that are in a stream.
* `Shape.IsReadable`: Shapes whose stream can be read back.
* `Shape.CollisionFree`: The digest tells shapes apart.
* `SipHash.CollisionFree`: The hasher tells apart what it has been fed.

## Theorems

* `SipHash.bytesOfWord_injective`, `SipHash.delimited_bytesOfText`: Words and texts.
* `Shape.induct`: Induction on shapes.
* `Shape.stream_injective`: A stream determines form and digests.
* `Shape.collisionFree_of_fed`: A digest determines the shape.
-/

namespace TypeSketch

namespace SipHash

/-- The hasher gives no two of these streams one digest. -/
def CollisionFree (streams : List (List UInt8)) : Prop :=
  ∀ x ∈ streams, ∀ y ∈ streams, digest x = digest y → x = y

theorem length_bytesOfWord (word : UInt64) : (bytesOfWord word).length = 8 := by
  rw [bytesOfWord, List.length_map, List.length_range]

/-- A number is determined by its bytes, if there are as many as it needs. -/
theorem eq_of_bytes_eq (count : Nat) {x y : Nat} (hx : x < 256 ^ count) (hy : y < 256 ^ count)
    (h : ∀ i < count, x / 256 ^ i % 256 = y / 256 ^ i % 256) : x = y := by
  induction count generalizing x y with
  | zero => omega
  | succ count ih =>
    have hlow := h 0 (by omega)
    rw [Nat.pow_zero, Nat.div_one, Nat.div_one] at hlow
    -- The bytes above the lowest one are those of the quotient.
    have hhigh : x / 256 = y / 256 := by
      refine ih ?_ ?_ fun i hi => ?_
      · rw [Nat.div_lt_iff_lt_mul (by omega), ← Nat.pow_succ]
        exact hx
      · rw [Nat.div_lt_iff_lt_mul (by omega), ← Nat.pow_succ]
        exact hy
      · have hbyte := h (i + 1) (by omega)
        rw [Nat.pow_succ', ← Nat.div_div_eq_div_mul, ← Nat.div_div_eq_div_mul] at hbyte
        exact hbyte
    omega

theorem bytesOfWord_injective {a b : UInt64} (h : bytesOfWord a = bytesOfWord b) : a = b := by
  have hbyte : ∀ i < 8, a.toNat / 256 ^ i % 256 = b.toNat / 256 ^ i % 256 := by
    intro i hi
    have hi' := congrArg (fun bytes => (bytes[i]?.map UInt8.toNat)) h
    have hsmall : 8 * i % 18446744073709551616 % 64 = 8 * i := by omega
    have hpow : 256 ^ i = 2 ^ (8 * i) := by rw [Nat.pow_mul]
    rw [hpow]
    simpa [bytesOfWord, hi, Nat.shiftRight_eq_div_pow, hsmall] using hi'
  apply UInt64.toNat_inj.mp
  exact eq_of_bytes_eq 8 a.toNat_lt b.toNat_lt hbyte

theorem delimited_bytesOfWord : Delimited bytesOfWord :=
  delimited_of_length length_bytesOfWord fun _ _ => bytesOfWord_injective

/-- No encoding of a character holds the byte that closes texts. -/
theorem terminator_not_mem_utf8EncodeChar (c : Char) : 0xff ∉ String.utf8EncodeChar c := by
  have hbyte : ∀ n : Nat, n < 255 → (0xff : UInt8) ≠ UInt8.ofNat n := by
    intro n hn heq
    have h := congrArg UInt8.toNat heq
    rw [UInt8.toNat_ofNat_of_lt' (Nat.lt_succ_of_lt hn)] at h
    exact absurd h.symm (Nat.ne_of_lt hn)
  unfold String.utf8EncodeChar
  dsimp only
  -- One, two, three or four bytes, and none of them is above 0xf7.
  split
  · simp only [List.mem_singleton]
    exact hbyte _ (by omega)
  · split
    · simp only [List.mem_cons, List.not_mem_nil, or_false, not_or]
      exact ⟨hbyte _ (by omega), hbyte _ (by omega)⟩
    · split
      · simp only [List.mem_cons, List.not_mem_nil, or_false, not_or]
        exact ⟨hbyte _ (by omega), hbyte _ (by omega), hbyte _ (by omega)⟩
      · simp only [List.mem_cons, List.not_mem_nil, or_false, not_or]
        exact ⟨hbyte _ (by omega), hbyte _ (by omega), hbyte _ (by omega), hbyte _ (by omega)⟩

theorem terminator_not_mem_toUTF8 (s : String) : 0xff ∉ s.toUTF8.data.toList := by
  rcases s.exists_eq_ofList with ⟨chars, rfl⟩
  rw [String.toUTF8_eq_toByteArray, String.toByteArray_ofList, List.utf8Encode,
    List.toList_data_toByteArray, List.mem_flatMap]
  rintro ⟨c, _, hc⟩
  exact terminator_not_mem_utf8EncodeChar c hc

theorem delimited_bytesOfText : Delimited bytesOfText := by
  intro s t x y h
  rw [bytesOfText, bytesOfText, List.append_assoc, List.append_assoc] at h
  rcases eq_of_append_terminator (terminator_not_mem_toUTF8 s) (terminator_not_mem_toUTF8 t) h with
    ⟨hbytes, hrest⟩
  refine ⟨?_, hrest⟩
  rw [Array.toList_inj] at hbytes
  exact String.toByteArray_inj.mp (ByteArray.ext hbytes)

end SipHash

namespace Shape

open SipHash

/-- The stream that is fed to the hasher for a shape. -/
def fed : Shape → List UInt8
  | node form parts => stream form (digests parts)

/-- Whether the stream of a shape can be read back: a scalar has no parts, a record has one
    for each field, the number of key types is a word, and a set has no part twice. -/
def IsReadable (shape : Shape) : Prop :=
  match shape.form with
  | .scalar _ => shape.parts = []
  | .record fields => shape.parts.length = fields.length
  | .mapping keyTypes => keyTypes.length < 2 ^ 64 ∧ shape.parts.Nodup
  | .tuple => True
  | _ => shape.parts.Nodup

/-- No two of these shapes have one digest. -/
def CollisionFree (shapes : List Shape) : Prop :=
  ∀ a ∈ shapes, ∀ b ∈ shapes, a.digest = b.digest → a = b

/-- Where digests do not collide, shapes can be told from the list of their digests. -/
theorem CollisionFree.eq_of_map_digest_eq {shapes others : List Shape} (h : CollisionFree shapes)
    (hsub : ∀ b ∈ others, b ∈ shapes) (hwords : shapes.map digest = others.map digest) :
    shapes = others := by
  refine List.ext_getElem (by simpa using congrArg List.length hwords) fun i hi hi' => ?_
  have hword := congrArg (fun words => words[i]?) hwords
  simp only [List.getElem?_map, List.getElem?_eq_getElem hi, List.getElem?_eq_getElem hi',
    Option.map_some, Option.some.injEq] at hword
  exact h _ (List.getElem_mem hi) _ (hsub _ (List.getElem_mem hi')) hword

theorem CollisionFree.mono {shapes others : List Shape} (h : CollisionFree others)
    (hsub : ∀ a ∈ shapes, a ∈ others) : CollisionFree shapes :=
  fun a ha b hb => h a (hsub a ha) b (hsub b hb)

/-- Induction on shapes, with the hypothesis for all parts. -/
@[elab_as_elim, induction_eliminator]
theorem induct {P : Shape → Prop}
    (node : ∀ form parts, (∀ part ∈ parts, P part) → P (.node form parts)) : ∀ shape, P shape
  | .node form parts =>
    node form parts fun part hpart =>
      have := List.sizeOf_lt_of_mem hpart
      induct node part
termination_by shape => sizeOf shape
decreasing_by
  simp only [Shape.node.sizeOf_spec]
  omega

section Distinct

variable {α : Type} [DecidableEq α]

theorem nodup_distinct (items : List α) : (distinct items).Nodup := by
  induction items with
  | nil => exact List.nodup_nil
  | cons first rest ih =>
    rw [distinct]
    split
    · exact ih
    · next hfresh =>
      refine List.nodup_cons.mpr ⟨fun hmem => hfresh ?_, ih⟩
      exact List.contains_iff_mem.mpr (mem_distinct.mp hmem)

theorem distinct_eq_self {items : List α} (h : items.Nodup) : distinct items = items := by
  induction items with
  | nil => rfl
  | cons first rest ih =>
    rcases List.nodup_cons.mp h with ⟨hfresh, hrest⟩
    rw [distinct, if_neg fun hmem => hfresh (List.contains_iff_mem.mp hmem), ih hrest]

end Distinct

/-- Digests do not collide if each shape brings one of its own. -/
theorem collisionFree_iff_nodup {shapes : List Shape} :
    CollisionFree shapes ↔ ((distinct shapes).map digest).Nodup := by
  rw [List.nodup_map_iff_inj_on (nodup_distinct shapes)]
  simp only [CollisionFree, mem_distinct]

instance (shapes : List Shape) : Decidable (CollisionFree shapes) :=
  decidable_of_iff' _ collisionFree_iff_nodup

theorem digest_eq (shape : Shape) : shape.digest = SipHash.digest shape.fed := by
  cases shape
  rw [digest, fed]

theorem digests_eq_map (shapes : List Shape) : digests shapes = shapes.map digest := by
  induction shapes with
  | nil => rfl
  | cons first rest ih => rw [digests, ih, List.map_cons]

section Parts

theorem lengthBytes_append_inj {m n : Nat} {x y : List UInt8} (hm : m < 2 ^ 64) (hn : n < 2 ^ 64)
    (h : lengthBytes m ++ x = lengthBytes n ++ y) : m = n ∧ x = y := by
  rcases delimited_bytesOfWord h with ⟨hword, hrest⟩
  have hnat := congrArg UInt64.toNat hword
  rw [UInt64.toNat_ofNat_of_lt' hm, UInt64.toNat_ofNat_of_lt' hn] at hnat
  exact ⟨hnat, hrest⟩

theorem delimited_flagByte : Delimited flagByte := by
  refine delimited_of_length (fun b => rfl) fun a b h => ?_
  cases a <;> cases b <;> first | rfl | exact absurd h (by decide)

/-- Words with their number before them, and nothing behind them. -/
theorem wordsBytes_injective {ds es : List UInt64} (h : wordsBytes ds = wordsBytes es) : ds = es := by
  have hne : ∀ word, bytesOfWord word ≠ [] := by
    intro word hnil
    have := length_bytesOfWord word
    rw [hnil] at this
    contradiction
  exact delimited_bytesOfWord.flatMap_injective hne (delimited_bytesOfWord h).2

/-- What a record's stream holds of one field. -/
def rowBytes (row : (String × Bool) × UInt64) : List UInt8 :=
  (bytesOfText row.1.1 ++ flagByte row.1.2) ++ bytesOfWord row.2

theorem delimited_rowBytes : Delimited rowBytes :=
  (delimited_bytesOfText.pair delimited_flagByte).pair delimited_bytesOfWord

theorem rowBytes_ne_nil (row : (String × Bool) × UInt64) : rowBytes row ≠ [] := by
  intro h
  have hlength := congrArg List.length (List.append_eq_nil_iff.mp h).2
  rw [length_bytesOfWord] at hlength
  contradiction

end Parts

/-- The tag of a form, which every stream for it starts with. -/
def tag : Form → String
  | .scalar _ => "scalar"
  | .record _ => "typed_dict"
  | .mapping _ => "mapping"
  | .list => "list"
  | .set _ => "set"
  | .iterator => "iterator"
  | .tuple => "tuple"

/-- The digests of parts that a stream has: those of a set each once. -/
def written (form : Form) (digests : List UInt64) : List UInt64 :=
  match form with
  | .mapping _ | .list | .set _ | .iterator => distinct digests
  | _ => digests

theorem mem_written {form : Form} {digests : List UInt64} {word : UInt64} :
    word ∈ written form digests ↔ word ∈ digests := by
  unfold written
  split <;> first | exact mem_distinct | exact Iff.rfl

/-- What a stream holds behind the tag. -/
def payload (form : Form) (digests : List UInt64) : List UInt8 :=
  match form with
  | .scalar rendered => bytesOfText rendered
  | .record fields => lengthBytes fields.length ++ (fields.zip digests).flatMap rowBytes
  | .mapping keyTypes =>
    lengthBytes keyTypes.length ++ (keyTypes.flatMap bytesOfText ++ wordSetBytes digests)
  | .set frozen => flagByte frozen ++ wordSetBytes digests
  | .tuple => wordsBytes digests
  | _ => wordSetBytes digests

theorem stream_eq (form : Form) (digests : List UInt64) :
    stream form digests = bytesOfText (tag form) ++ payload form digests := by
  cases form with
  | record fields => rw [stream, tag, payload, List.append_assoc]; rfl
  | _ => simp only [stream, tag, payload, List.append_assoc]

/-- A stream determines the form and the digests of the parts, those of a set without
    repetitions. -/
theorem stream_injective {a b : Shape} (ha : a.IsReadable) (hb : b.IsReadable)
    (h : a.fed = b.fed) :
    a.form = b.form ∧ written a.form (digests a.parts) = written b.form (digests b.parts) := by
  rcases a with ⟨f, ps⟩
  rcases b with ⟨g, qs⟩
  rw [fed, fed, stream_eq, stream_eq] at h
  rcases delimited_bytesOfText h with ⟨htag, hpayload⟩
  change f = g ∧ written f (digests ps) = written g (digests qs)
  -- Forms of two kinds have two tags.
  cases f <;> cases g <;> dsimp only [tag] at htag <;> first | exact absurd htag (by decide) | skip
  case scalar.scalar r r' =>
    change ps = [] at ha
    change qs = [] at hb
    rw [ha, hb, (delimited_bytesOfText (congrArg (· ++ []) hpayload)).1]
    exact ⟨rfl, rfl⟩
  case record.record fields fields' =>
    change ps.length = fields.length at ha
    change qs.length = fields'.length at hb
    have hlength : fields.length = (digests ps).length := by
      rw [digests_eq_map, List.length_map, ha]
    have hlength' : fields'.length = (digests qs).length := by
      rw [digests_eq_map, List.length_map, hb]
    -- There are as many parts as fields, so the rows give back both lists.
    have hrows := delimited_rowBytes.flatMap_injective rowBytes_ne_nil
      (delimited_bytesOfWord hpayload).2
    have hfields := congrArg (List.map Prod.fst) hrows
    have hdigests := congrArg (List.map Prod.snd) hrows
    rw [List.map_fst_zip (Nat.le_of_eq hlength), List.map_fst_zip (Nat.le_of_eq hlength')] at hfields
    rw [List.map_snd_zip (Nat.le_of_eq hlength.symm),
      List.map_snd_zip (Nat.le_of_eq hlength'.symm)] at hdigests
    exact ⟨by rw [hfields], hdigests⟩
  case mapping.mapping keyTypes keyTypes' =>
    rcases lengthBytes_append_inj ha.1 hb.1 hpayload with ⟨hlength, hrest⟩
    rcases delimited_bytesOfText.flatMap_append_inj hlength hrest with ⟨hkeys, hwords⟩
    exact ⟨by rw [hkeys], wordsBytes_injective hwords⟩
  case set.set frozen frozen' =>
    rcases delimited_flagByte hpayload with ⟨hfrozen, hwords⟩
    exact ⟨by rw [hfrozen], wordsBytes_injective hwords⟩
  all_goals exact ⟨rfl, wordsBytes_injective hpayload⟩

/-- Parts that have one digest only if they are one have all their digests in the stream, unless
    there is a part twice in a set. -/
theorem written_digests {form : Form} {parts : List Shape}
    (hreadable : (node form parts).IsReadable) (hfree : CollisionFree parts) :
    written form (digests parts) = parts.map digest := by
  have hset : parts.Nodup → distinct (parts.map digest) = parts.map digest := fun hnodup =>
    distinct_eq_self (List.Nodup.map_on hfree hnodup)
  rw [digests_eq_map]
  cases form with
  | scalar _ => rfl
  | record _ => rfl
  | tuple => rfl
  | mapping _ => exact hset hreadable.2
  | list => exact hset hreadable
  | set _ => exact hset hreadable
  | iterator => exact hset hreadable

/-- Among shapes whose streams can be read back and do not collide, and whose parts are
    among them, a digest determines the shape. -/
theorem collisionFree_of_fed {shapes : List Shape}
    (hparts : ∀ a ∈ shapes, ∀ p ∈ a.parts, p ∈ shapes)
    (hreadable : ∀ a ∈ shapes, a.IsReadable) (hfree : SipHash.CollisionFree (shapes.map fed)) :
    CollisionFree shapes := by
  intro a
  induction a with
  | node form parts ih =>
    intro ha b hb h
    rw [digest_eq, digest_eq] at h
    -- The streams do not collide, so the forms and the digests of the parts agree.
    have hfed := hfree _ (List.mem_map_of_mem ha) _ (List.mem_map_of_mem hb) h
    rcases stream_injective (hreadable _ ha) (hreadable _ hb) hfed with ⟨hform, hwritten⟩
    rcases b with ⟨form', parts'⟩
    change form = form' at hform
    subst hform
    have hps := hparts _ ha
    have hqs := hparts _ hb
    change ∀ p ∈ parts, p ∈ shapes at hps
    change ∀ q ∈ parts', q ∈ shapes at hqs
    change written form (digests parts) = written form (digests parts') at hwritten
    -- A part on the right has the digest of one on the left, so it is that part.
    have hsub : ∀ q ∈ parts', q ∈ parts := by
      intro q hq
      have hword : q.digest ∈ written form (digests parts) := by
        rw [hwritten, mem_written, digests_eq_map]
        exact List.mem_map_of_mem hq
      rw [mem_written, digests_eq_map] at hword
      rcases List.mem_map.mp hword with ⟨p, hp, heq⟩
      rwa [← ih p hp (hps p hp) q (hqs q hq) heq]
    have hleft : CollisionFree parts := fun p hp q hq => ih p hp (hps p hp) q (hps q hq)
    rw [written_digests (hreadable _ ha) hleft,
      written_digests (hreadable _ hb) (hleft.mono hsub)] at hwritten
    congr 1
    exact hleft.eq_of_map_digest_eq hsub hwritten

end Shape

end TypeSketch
