import CargoStylus.Rust.Codec

/-!
# The init code of a contract

A contract is created by init code that copies the contract's code to memory and returns
it : a prelude of 43 bytes, the last of which is a version, and then the code. Splitting
the init code gives the prelude and the code back (`extract_contractDeploymentCalldata`).
Both slices panic on init code shorter than the prelude.
-/

namespace CargoStylus

open Rust

/-- What checking a contract found. -/
inductive ContractCheck where
  | active (code : Bytes)
  | ready (code : Bytes) (fee : U256)
deriving DecidableEq

namespace ContractCheck

/-- The compressed code. -/
def code : ContractCheck → Bytes
  | active code => code
  | ready code _ => code

/-- The data fee to pay, which is nothing for an active contract. -/
def suggestFee : ContractCheck → U256
  | active _ => 0
  | ready _ fee => fee

end ContractCheck

/-- An EVM bytecode prelude for contract creation, and the code. -/
def contractDeploymentCalldata (code : Bytes) : Bytes :=
  [0x7f] ++ -- PUSH32
  toBe 32 code.length ++
  [0x80, -- DUP1
   0x60, -- PUSH1
   42 + 1, -- prelude + version
   0x60, -- PUSH1
   0x00,
   0x39, -- CODECOPY
   0x60, -- PUSH1
   0x00,
   0xf3, -- RETURN
   0x00] ++ -- version
  code

/-- The prelude and the version byte. It panics on calldata that is shorter. -/
def extractContractEvmDeploymentPrelude (calldata : Bytes) : Outcome String Bytes :=
  sliceTo calldata (42 + 1)

/-- What is behind the prelude and the version byte. -/
def extractCompressedWasm (calldata : Bytes) : Outcome String Bytes :=
  sliceFrom calldata (42 + 1)

theorem length_contractDeploymentCalldata (code : Bytes) :
    (contractDeploymentCalldata code).length = 43 + code.length := by
  simp [contractDeploymentCalldata]
  omega

theorem extractContractEvmDeploymentPrelude_of_le {calldata : Bytes}
    (h : 43 ≤ calldata.length) :
    extractContractEvmDeploymentPrelude calldata = .ok (calldata.take 43) :=
  sliceTo_of_le h

theorem extractCompressedWasm_of_le {calldata : Bytes} (h : 43 ≤ calldata.length) :
    extractCompressedWasm calldata = .ok (calldata.drop 43) :=
  sliceFrom_of_le h

/-- The code comes back, behind a prelude that its length fixes. -/
theorem extract_contractDeploymentCalldata (code : Bytes) :
    extractCompressedWasm (contractDeploymentCalldata code) = .ok code := by
  have hlen := length_contractDeploymentCalldata code
  have hprelude : ∀ prelude : Bytes, prelude.length = 43 → (prelude ++ code).drop 43 = code := by
    intro prelude hp
    rw [← hp, List.drop_left]
  rw [extractCompressedWasm_of_le (by omega), contractDeploymentCalldata, hprelude _ (by simp)]

end CargoStylus
