import CargoStylus.Rust.Bytes
import CargoStylus.Rust.Outcome

/-!
# Slices and codecs

Slicing past the end of a byte string is a panic. A `Codec` writes values as byte strings
and reads them back : it reads `a` from `b` exactly when it writes `a` as `b`, so a byte
string holds at most one value and a value is written in one way. Writing may fail, on a
value the format does not have.

`Codec.ofReader` makes a codec of any reader that finds what was written : it reads, and
then checks that the value found is written as these bytes.
-/

namespace Rust

/-! ## Slices -/

variable {ε : Type}

/-- `&b[0..n]`. -/
def sliceTo (b : Bytes) (n : ℕ) : Outcome ε Bytes :=
  if n ≤ b.length then .ok (b.take n)
  else .panic s!"range end index {n} out of range for slice of length {b.length}"

/-- `&b[n..]`. -/
def sliceFrom (b : Bytes) (n : ℕ) : Outcome ε Bytes :=
  if n ≤ b.length then .ok (b.drop n)
  else .panic s!"range start index {n} out of range for slice of length {b.length}"

theorem sliceTo_of_le {b : Bytes} {n : ℕ} (h : n ≤ b.length) :
    (sliceTo b n : Outcome ε Bytes) = .ok (b.take n) :=
  if_pos h

theorem sliceFrom_of_le {b : Bytes} {n : ℕ} (h : n ≤ b.length) :
    (sliceFrom b n : Outcome ε Bytes) = .ok (b.drop n) :=
  if_pos h

/-- `Range<usize>`. -/
structure Range where
  start : ℕ
  stop : ℕ
deriving DecidableEq

/-- `&b[range.start..range.end]`. -/
def sliceRange (b : Bytes) (range : Range) : Outcome ε Bytes :=
  if range.stop < range.start then
    .panic s!"slice index starts at {range.start} but ends at {range.stop}"
  else if b.length < range.stop then
    .panic s!"range end index {range.stop} out of range for slice of length {b.length}"
  else .ok ((b.take range.stop).drop range.start)

/-- The part between what comes before it and what comes after it. -/
theorem sliceRange_append {before data after : Bytes} {range : Range}
    (hstart : range.start = before.length) (hstop : range.stop = before.length + data.length) :
    (sliceRange (before ++ data ++ after) range : Outcome ε Bytes) = .ok data := by
  have htake : (before ++ data ++ after).take range.stop = before ++ data :=
    List.take_left' (by simp [hstop])
  have horder : ¬range.stop < range.start := by omega
  have hbound : ¬(before ++ data ++ after).length < range.stop := by
    simp only [List.length_append]
    omega
  rw [sliceRange, if_neg horder, if_neg hbound, htake, hstart, List.drop_left]

/-! ## Codecs -/

/-- A way to write values of `α` as bytes that can be read back. -/
structure Codec (α : Type) where
  /-- Write a value. -/
  encode : α → Except String Bytes
  /-- Read a value. -/
  decode : Bytes → Except String α
  decode_eq_ok : ∀ {b : Bytes} {a : α}, decode b = .ok a ↔ encode a = .ok b

namespace Codec

variable {α : Type}

/-- No two values are written alike. -/
theorem encode_inj (c : Codec α) {a a' : α} {b : Bytes} (h : c.encode a = .ok b)
    (h' : c.encode a' = .ok b) : a = a' := by
  have hread := c.decode_eq_ok.2 h
  rw [c.decode_eq_ok.2 h'] at hread
  exact (Except.ok.inj hread).symm

/-- The codec of an encoder and a reader that finds every encoded value. -/
def ofReader (encode : α → Except String Bytes) (read : Bytes → Option α) (message : String)
    (h : ∀ a b, encode a = .ok b → read b = some a) : Codec α where
  encode := encode
  decode b :=
    match (read b).filter fun a => (encode a).toOption = some b with
    | some a => .ok a
    | none => .error message
  decode_eq_ok := by
    intro b a
    have hfound : (encode a).toOption = some b ↔ encode a = .ok b := by
      cases encode a <;> simp [Except.toOption]
    rw [← hfound]
    cases hread : (read b).filter fun a => (encode a).toOption = some b with
    | some a' =>
      obtain ⟨ha', henc⟩ := Option.filter_eq_some_iff.1 hread
      simp only [Except.ok.injEq]
      refine ⟨fun haa => haa ▸ of_decide_eq_true henc, fun hab => ?_⟩
      rw [h a b (hfound.1 hab)] at ha'
      exact (Option.some.inj ha').symm
    | none =>
      refine ⟨fun hne => by simp at hne, fun hab => ?_⟩
      rw [h a b (hfound.1 hab)] at hread
      simp [hab] at hread

end Codec

end Rust
