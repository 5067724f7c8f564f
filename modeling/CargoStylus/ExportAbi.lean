import CargoStylus.Rust.Text

/-!
# The constructor a contract exports

Run natively, a contract prints the signature of its constructor. Output that is not a
signature means that the contract has none, or that its SDK is too old to have one.
-/

namespace CargoStylus

open Rust

/-- What a function may do with the state and with Ether. -/
inductive StateMutability where
  | pure
  | view
  | nonPayable
  | payable
deriving DecidableEq

/-- A Solidity constructor, with `Param` the type of its parameters. -/
structure Constructor (Param : Type) where
  inputs : List Param
  stateMutability : StateMutability
deriving DecidableEq

variable {Param : Type}

/-- The constructor of a signature that starts with `constructor`, read by `parse`. -/
def parseConstructor (parse : Text → Except String (Constructor Param)) (signature : Text) :
    Except String (Option (Constructor Param)) :=
  let signature := trim signature
  if "constructor".toList.isPrefixOf signature then some <$> parse signature
  else .ok none

/-- The constructor of the local project, whose export binary prints `output`. A binary
that fails ends the process with status 1, which `output` has as an error. -/
def getConstructorSignature (parse : Text → Except String (Constructor Param))
    (output : Except String Text) : Except String (Option (Constructor Param)) := do
  let output ← output
  parseConstructor parse output

end CargoStylus
