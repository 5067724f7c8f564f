import Mathlib.Tactic.IntervalCases
import Mathlib.Tactic.Ring
import Mathlib.Data.List.Induction

/-!
# Bytes, big-endian numbers and hex

A byte string is a list, and `FixedBytes n` is one of length `n`, so a value of the wrong
length cannot be built. Big-endian reading and writing are inverse at every width
(`ofBe_toBe`, `toBe_ofBe`), first for numbers below `256 ^ n` and then for the machine
integers, whose width is a number of bytes.

Hex text is written in lower case and read in either case. Reading what was written gives
the bytes back (`hexDecode_hexEncode`), and text that reads as `b` is the text written for
`b` up to the case of its letters (`map_toLower_of_hexDecode`).
-/

namespace Rust

/-- A byte string, `Vec<u8>` or `Box<[u8]>`. -/
abbrev Bytes := List UInt8

/-- `[u8; N]`. -/
abbrev FixedBytes (n : ℕ) := { b : Bytes // b.length = n }

/-- `[x; N]`. -/
def filled (n : ℕ) (x : UInt8) : FixedBytes n :=
  ⟨List.replicate n x, List.length_replicate⟩

/-- `u8` -/
abbrev U8 := BitVec 8
/-- `u16` -/
abbrev U16 := BitVec 16
/-- `u32` -/
abbrev U32 := BitVec 32
/-- `u64` -/
abbrev U64 := BitVec 64
/-- `U256` -/
abbrev U256 := BitVec 256

/-! ## Big-endian numbers -/

/-- The number that big-endian bytes spell. -/
def ofBe (b : Bytes) : ℕ :=
  b.foldl (fun acc x => 256 * acc + x.toNat) 0

/-- The `n` low bytes of a number, big-endian. -/
def toBe : ℕ → ℕ → Bytes
  | 0, _ => []
  | n + 1, x => toBe n (x / 256) ++ [UInt8.ofNat x]

@[simp] theorem length_toBe : ∀ n x, (toBe n x).length = n
  | 0, _ => rfl
  | n + 1, x => by simp [toBe, length_toBe n]

theorem ofBe_concat (b : Bytes) (x : UInt8) : ofBe (b ++ [x]) = 256 * ofBe b + x.toNat := by
  simp [ofBe]

theorem ofBe_toBe : ∀ n x, ofBe (toBe n x) = x % 256 ^ n
  | 0, x => by simp [toBe, ofBe, Nat.mod_one]
  | n + 1, x => by
    rw [toBe, ofBe_concat, ofBe_toBe n, pow_succ', Nat.mod_mul, UInt8.toNat_ofNat']
    omega

theorem ofBe_lt (b : Bytes) : ofBe b < 256 ^ b.length := by
  induction b using List.reverseRecOn with
  | nil => simp [ofBe]
  | append_singleton b x ih =>
    have hx := x.toNat_lt
    rw [ofBe_concat, List.length_append, List.length_singleton, pow_succ']
    omega

theorem toBe_ofBe (b : Bytes) : toBe b.length (ofBe b) = b := by
  induction b using List.reverseRecOn with
  | nil => rfl
  | append_singleton b x ih =>
    have hx := x.toNat_lt
    have hdiv : (256 * ofBe b + x.toNat) / 256 = ofBe b := by omega
    have hmod : UInt8.ofNat (256 * ofBe b + x.toNat) = x := by
      rw [← UInt8.toNat_inj, UInt8.toNat_ofNat']
      omega
    rw [ofBe_concat, List.length_append, List.length_singleton, toBe, hdiv, hmod, ih]

/-! ## Machine integers -/

/-- `to_be_bytes` of an integer of `n` bytes. -/
def toBeBytes (n : ℕ) (x : BitVec (8 * n)) : FixedBytes n :=
  ⟨toBe n x.toNat, length_toBe n _⟩

/-- `from_be_bytes`. -/
def fromBeBytes {n : ℕ} (b : FixedBytes n) : BitVec (8 * n) :=
  BitVec.ofNat _ (ofBe b.1)

theorem two_pow_mul_eight (n : ℕ) : 2 ^ (8 * n) = 256 ^ n := by
  rw [pow_mul]
  norm_num

@[simp] theorem fromBeBytes_toBeBytes (n : ℕ) (x : BitVec (8 * n)) :
    fromBeBytes (toBeBytes n x) = x := by
  have hx := x.isLt
  rw [two_pow_mul_eight] at hx
  apply BitVec.eq_of_toNat_eq
  rw [fromBeBytes, toBeBytes, BitVec.toNat_ofNat, ofBe_toBe, two_pow_mul_eight,
    Nat.mod_mod, Nat.mod_eq_of_lt hx]

@[simp] theorem toBeBytes_fromBeBytes {n : ℕ} (b : FixedBytes n) :
    toBeBytes n (fromBeBytes b) = b := by
  obtain ⟨b, rfl⟩ := b
  have hlt : ofBe b < 2 ^ (8 * b.length) := by
    rw [two_pow_mul_eight]
    exact ofBe_lt b
  apply Subtype.ext
  simp only [toBeBytes, fromBeBytes, BitVec.toNat_ofNat, Nat.mod_eq_of_lt hlt, toBe_ofBe]

/-- The bytes of an integer of `n` bytes, big-endian. -/
def be (n : ℕ) (x : BitVec (8 * n)) : Bytes :=
  (toBeBytes n x).1

@[simp] theorem length_be (n : ℕ) (x : BitVec (8 * n)) : (be n x).length = n :=
  (toBeBytes n x).2

/-- The bytes of an integer in memory, low byte first. -/
def toLeBytes (n : ℕ) (x : BitVec (8 * n)) : FixedBytes n :=
  ⟨(toBe n x.toNat).reverse, by simp⟩

/-! ## Hex -/

/-- The value of a hex digit of either case. -/
def hexVal (c : Char) : Option ℕ :=
  if '0' ≤ c ∧ c ≤ '9' then some (c.toNat - 48)
  else if 'a' ≤ c ∧ c ≤ 'f' then some (c.toNat - 87)
  else if 'A' ≤ c ∧ c ≤ 'F' then some (c.toNat - 55)
  else none

/-- `hex::encode`. -/
def hexEncode (b : Bytes) : List Char :=
  b.flatMap fun x => [(x.toNat / 16).digitChar, (x.toNat % 16).digitChar]

/-- `hex::decode` : an odd number of digits or another character is an error. -/
def hexDecode : List Char → Option Bytes
  | [] => some []
  | [_] => none
  | hi :: lo :: rest => do
    let hi ← hexVal hi
    let lo ← hexVal lo
    let rest ← hexDecode rest
    return UInt8.ofNat (16 * hi + lo) :: rest

theorem hexVal_digitChar {n : ℕ} (hn : n < 16) : hexVal n.digitChar = some n := by
  interval_cases n <;> decide

/-- A digit is the one written for its value, up to case. -/
theorem digitChar_of_hexVal {c : Char} {n : ℕ} (h : hexVal c = some n) :
    n < 16 ∧ c.toLower = n.digitChar := by
  have range : ∀ lo hi : Char, lo ≤ c ∧ c ≤ hi → lo.toNat ≤ c.toNat ∧ c.toNat ≤ hi.toNat :=
    fun _ _ h => h
  have hc : Char.ofNat c.toNat = c := Char.ofNat_toNat c
  unfold hexVal at h
  split_ifs at h with h1 h2 h3 <;> obtain rfl := Option.some.inj h
  · obtain ⟨hlo, hhi⟩ := range _ _ h1
    generalize c.toNat = k at *
    subst hc
    simp only [show '0'.toNat = 48 from rfl, show '9'.toNat = 57 from rfl] at hlo hhi
    interval_cases k <;> decide
  · obtain ⟨hlo, hhi⟩ := range _ _ h2
    generalize c.toNat = k at *
    subst hc
    simp only [show 'a'.toNat = 97 from rfl, show 'f'.toNat = 102 from rfl] at hlo hhi
    interval_cases k <;> decide
  · obtain ⟨hlo, hhi⟩ := range _ _ h3
    generalize c.toNat = k at *
    subst hc
    simp only [show 'A'.toNat = 65 from rfl, show 'F'.toNat = 70 from rfl] at hlo hhi
    interval_cases k <;> decide

theorem hexEncode_cons (x : UInt8) (b : Bytes) : hexEncode (x :: b) =
    (x.toNat / 16).digitChar :: (x.toNat % 16).digitChar :: hexEncode b :=
  rfl

theorem exists_digitChar_of_mem_hexEncode {c : Char} : ∀ {b : Bytes}, c ∈ hexEncode b →
    ∃ d < 16, c = d.digitChar
  | x :: b, h => by
    have hx := x.toNat_lt
    rw [hexEncode_cons, List.mem_cons, List.mem_cons] at h
    rcases h with rfl | rfl | h
    · exact ⟨_, by omega, rfl⟩
    · exact ⟨_, by omega, rfl⟩
    · exact exists_digitChar_of_mem_hexEncode h

@[simp] theorem hexDecode_hexEncode : ∀ b : Bytes, hexDecode (hexEncode b) = some b
  | [] => rfl
  | x :: b => by
    have hx := x.toNat_lt
    have hhi : x.toNat / 16 < 16 := by omega
    have hlo : x.toNat % 16 < 16 := by omega
    rw [hexEncode_cons, hexDecode, hexVal_digitChar hhi, hexVal_digitChar hlo,
      hexDecode_hexEncode b]
    simp only [Option.bind_eq_bind, Option.bind_some, Option.pure_def, Nat.div_add_mod,
      UInt8.ofNat_toNat]

/-- Text that reads as `b` is the text written for `b`, up to case. -/
theorem map_toLower_of_hexDecode : ∀ {s : List Char} {b : Bytes}, hexDecode s = some b →
    s.map Char.toLower = hexEncode b
  | [], b, h => by
    obtain rfl : [] = b := Option.some.inj h
    rfl
  | [_], b, h => by simp [hexDecode] at h
  | c :: d :: s, b, h => by
    simp only [hexDecode, Option.bind_eq_bind, Option.pure_def, Option.bind_eq_some_iff,
      Option.some.injEq] at h
    obtain ⟨hi, hhi, lo, hlo, rest, hrest, rfl⟩ := h
    obtain ⟨hhi', hc⟩ := digitChar_of_hexVal hhi
    obtain ⟨hlo', hd⟩ := digitChar_of_hexVal hlo
    have hbyte : (UInt8.ofNat (16 * hi + lo)).toNat = 16 * hi + lo := by
      rw [UInt8.toNat_ofNat']
      omega
    have hdiv : (16 * hi + lo) / 16 = hi := by omega
    have hmod : (16 * hi + lo) % 16 = lo := by omega
    rw [List.map_cons, List.map_cons, hexEncode_cons, hbyte, hdiv, hmod, hc, hd,
      map_toLower_of_hexDecode hrest]

/-- `0x` and the hex digits of `b`, as text. -/
def toHex (b : Bytes) : String :=
  String.ofList ('0' :: 'x' :: hexEncode b)

end Rust
