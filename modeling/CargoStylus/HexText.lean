import CargoStylus.Display

/-!
# Addresses and amounts as text

`hexText` is an `AlloyText`. Addresses and salts are written in hex behind `0x` and read with
or without it (`readHex_showHex`), and an amount is read as a whole number of ether.
-/

namespace CargoStylus

open Rust

variable {n : ℕ}

/-- Bytes in hex, behind `0x`. -/
def showHex (b : FixedBytes n) : Text :=
  '0' :: 'x' :: hexEncode b.1

/-- `n` bytes read from hex. -/
def readHex (n : ℕ) (text : Text) : Except String (FixedBytes n) :=
  match hexDecode (stripPrefix ['0', 'x'] text) with
  | none => .error "invalid character or odd number of digits"
  | some b => if h : b.length = n then .ok ⟨b, h⟩ else .error "invalid string length"

theorem readHex_showHex (b : FixedBytes n) : readHex n (showHex b) = .ok b := by
  have hstrip : stripPrefix ['0', 'x'] (showHex b) = hexEncode b.1 :=
    stripPrefix_append ['0', 'x'] (hexEncode b.1)
  simp [readHex, hstrip, b.2]

theorem noSpace_digitChar {d : ℕ} (hd : d < 16) : d.digitChar ≠ ' ' := by
  interval_cases d <;> decide

theorem noSpace_hexEncode (b : Bytes) : ' ' ∉ hexEncode b := by
  intro h
  obtain ⟨d, hd, hspace⟩ := exists_digitChar_of_mem_hexEncode h
  exact noSpace_digitChar hd hspace.symm

theorem noSpace_showHex (b : FixedBytes n) : ' ' ∉ showHex b := by
  simp [showHex, noSpace_hexEncode]

/-- Wei read from a whole number of ether. -/
def readEther (text : Text) : Except String U256 :=
  match readNat text with
  | none => .error "invalid digit"
  | some n =>
    if n * 10 ^ 18 < 2 ^ 256 then .ok (BitVec.ofNat 256 (n * 10 ^ 18)) else .error "overflow"

theorem readEther_showNat (n : ℕ) : readEther (showNat n) =
    if n * 10 ^ 18 < 2 ^ 256 then .ok (BitVec.ofNat 256 (n * 10 ^ 18)) else .error "overflow" := by
  rw [readEther, readNat_showNat]

/-- Addresses, hashes and amounts as `alloy` writes and reads them, in lower case. -/
def hexText : AlloyText where
  showAddress := showHex
  showB256 := showHex
  readAddress := readHex 20
  readB256 := readHex 32
  parseEther := readEther
  noSpace_showAddress := noSpace_showHex
  noSpace_showB256 := noSpace_showHex
  readAddress_showAddress := readHex_showHex
  readB256_showB256 := readHex_showHex
  parseEther_showNat := by
    intro n hlt
    rw [readEther_showNat, if_pos hlt]
  eq_of_parseEther := by
    intro n wei h
    rw [readEther_showNat] at h
    split_ifs at h
    exact (Except.ok.inj h).symm

end CargoStylus
