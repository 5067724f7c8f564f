import CargoStylus.Deployer

/-!
# The ABI of the deployer call

`deployCallCodec` writes a call of the deployer as the Solidity ABI does : the selector, one
word for each parameter, which for the two byte strings is where they start, and then the
byte strings, each behind its length and padded to whole words. `uintInput` does it for the
arguments of a constructor all of whose parameters are `uint256`, and `uintAbi` is an ABI
library for such constructors.
-/

namespace CargoStylus

open Rust

/-! ## Words and byte strings -/

/-- How many bytes are missing to a whole word. -/
def padding (n : ℕ) : ℕ :=
  (32 - n % 32) % 32

/-- A byte string behind its length, padded. -/
def encodeBytes (b : Bytes) : Bytes :=
  toBe 32 b.length ++ b ++ List.replicate (padding b.length) 0

/-- A byte string read behind its length, and what follows it. -/
def decodeBytes (b : Bytes) : Bytes × Bytes :=
  let len := ofBe (b.take 32)
  ((b.drop 32).take len, b.drop (32 + len + padding len))

/-- The first 32 bytes as a number. -/
def readWord (b : Bytes) : U256 :=
  BitVec.ofNat 256 (ofBe (b.take 32))

theorem readWord_be (v : U256) (rest : Bytes) : readWord (be 32 v ++ rest) = v := by
  have htake : (be 32 v ++ rest).take 32 = be 32 v := List.take_left' (length_be 32 v)
  rw [readWord, htake]
  exact fromBeBytes_toBeBytes 32 v

theorem drop_be (v : U256) (rest : Bytes) : (be 32 v ++ rest).drop 32 = rest :=
  List.drop_left' (length_be 32 v)

theorem decodeBytes_encodeBytes {b : Bytes} (h : b.length < 2 ^ 64) (rest : Bytes) :
    decodeBytes (encodeBytes b ++ rest) = (b, rest) := by
  have hlen : ofBe (toBe 32 b.length) = b.length := by
    rw [ofBe_toBe]
    exact Nat.mod_eq_of_lt (by omega)
  have htake : (encodeBytes b ++ rest).take 32 = toBe 32 b.length := by
    rw [encodeBytes, List.append_assoc, List.append_assoc]
    exact List.take_left' (length_toBe 32 _)
  have hdrop : (encodeBytes b ++ rest).drop 32 =
      b ++ (List.replicate (padding b.length) 0 ++ rest) := by
    rw [encodeBytes, List.append_assoc, List.append_assoc]
    exact List.drop_left' (length_toBe 32 _)
  have hrest : (encodeBytes b ++ rest).drop (32 + b.length + padding b.length) = rest :=
    List.drop_left' (by simp [encodeBytes, Nat.add_assoc])
  simp only [decodeBytes, htake, hlen, hdrop, hrest, List.take_left]

/-! ## The call -/

/-- The selector of `deploy(bytes,bytes,uint256,bytes32)`. -/
def deploySelector : Bytes :=
  [0xa9, 0xa8, 0xe4, 0xe9]

/-- Write a call of the deployer whose byte strings fit in memory. -/
def encodeDeployCall (call : DeployCall) : Except String Bytes :=
  if call.bytecode.length < 2 ^ 64 ∧ call.initData.length < 2 ^ 64 then
    .ok (deploySelector ++ toBe 32 128 ++
      toBe 32 (160 + call.bytecode.length + padding call.bytecode.length) ++
      be 32 call.initValue ++ call.salt.1 ++
      encodeBytes call.bytecode ++ encodeBytes call.initData)
  else .error "capacity overflow"

/-- Read a call of the deployer, its byte strings one after the other. -/
def readDeployCall (calldata : Bytes) : Option DeployCall :=
  let body := calldata.drop (4 + 32 + 32)
  let salt := (body.drop 32).take 32
  let bytecode := decodeBytes (body.drop 64)
  if h : salt.length = 32 then
    some
      { bytecode := bytecode.1, initData := (decodeBytes bytecode.2).1,
        initValue := readWord body, salt := ⟨salt, h⟩ }
  else none

theorem readDeployCall_of_encode {call : DeployCall} {calldata : Bytes}
    (h : encodeDeployCall call = .ok calldata) : readDeployCall calldata = some call := by
  obtain ⟨bytecode, initData, initValue, salt, hsalt⟩ := call
  unfold encodeDeployCall at h
  split_ifs at h with hlen
  obtain rfl := Except.ok.inj h
  obtain ⟨hcode, hdata⟩ := hlen
  simp only [List.append_assoc]
  have hbody : ∀ rest : Bytes, (deploySelector ++ (toBe 32 128 ++
      (toBe 32 (160 + (bytecode.length + padding bytecode.length)) ++ rest))).drop
      (4 + 32 + 32) = rest := by
    intro rest
    rw [← List.append_assoc, ← List.append_assoc]
    exact List.drop_left' (by simp [deploySelector])
  have hstart : ∀ rest : Bytes, (be 32 initValue ++ (salt ++ rest)).drop 64 = rest := by
    intro rest
    rw [← List.append_assoc]
    exact List.drop_left' (by simp [hsalt])
  have htake : ∀ rest : Bytes, (salt ++ rest).take 32 = salt := fun rest => List.take_left' hsalt
  have hlast := decodeBytes_encodeBytes hdata []
  rw [List.append_nil] at hlast
  simp only [readDeployCall, Nat.add_assoc, hbody, drop_be, htake, hsalt, hstart, dif_pos,
    decodeBytes_encodeBytes hcode, hlast, readWord_be]

/-- Calls of `deploy`, written and read. -/
def deployCallCodec : Codec DeployCall :=
  .ofReader encodeDeployCall readDeployCall "type check failed" fun _ _ => readDeployCall_of_encode

/-! ## Constructors of `uint256` parameters -/

/-- A parameter, by its type and name. -/
structure NamedParam where
  ty : Text
  name : Text
deriving DecidableEq

/-- Read `n` words. -/
def readWords : ℕ → Bytes → List U256
  | 0, _ => []
  | n + 1, b => readWord b :: readWords n (b.drop 32)

theorem readWords_flatMap : ∀ values : List U256,
    readWords values.length (values.flatMap (be 32)) = values
  | [] => rfl
  | v :: values => by
    rw [List.flatMap_cons, List.length_cons, readWords, readWord_be, drop_be,
      readWords_flatMap values]

/-- One word for each value, if there are as many as parameters. -/
def encodeUints (constructor : Constructor NamedParam) (values : List U256) : Except String Bytes :=
  if values.length = constructor.inputs.length then .ok (values.flatMap (be 32))
  else .error (s!"encode length mismatch: expected {constructor.inputs.length} types, " ++
    s!"got {values.length}")

/-- The arguments of a constructor, one word each. -/
def uintInput (constructor : Constructor NamedParam) : Codec (List U256) :=
  .ofReader (encodeUints constructor)
    (fun b => some (readWords constructor.inputs.length b)) "type check failed" <| by
    intro values b h
    unfold encodeUints at h
    split_ifs at h with hlen
    obtain rfl := Except.ok.inj h
    rw [← hlen, readWords_flatMap]

/-- The library for constructors of `uint256` parameters. It reads the signatures of a
constructor without parameters and of one with the parameter `uint256 value`. -/
def uintAbi : Abi NamedParam U256 where
  deployCall := deployCallCodec
  input := uintInput
  resolve p :=
    if p.ty = "uint256".toList then
      .ok fun arg =>
        match readNat arg with
        | some n => if n < 2 ^ 256 then .ok (BitVec.ofNat 256 n) else .error "parser error"
        | none => .error "parser error"
    else .error "invalid type"
  parse signature :=
    if signature = "constructor()".toList then
      .ok { inputs := [], stateMutability := .nonPayable }
    else if signature = "constructor(uint256 value)".toList then
      .ok
        { inputs := [{ ty := "uint256".toList, name := "value".toList }],
          stateMutability := .nonPayable }
    else .error "parser error"
  showParam p := String.ofList (p.ty ++ ' ' :: p.name)
  showValue v := s!"Uint({v.toNat}, 256)"
  showAddress address := toHex address.1

end CargoStylus
