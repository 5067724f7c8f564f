import CargoStylus.Verify

/-!
# Slices in verification

`checkDeployment` is what `verify` does with a transaction once it is fetched, with each slice
written out. The constructor's arguments are a slice of initialisation data whose length is
checked first. A creation that differs from the local project is cut behind the prelude,
whose length nothing checks. So verification panics exactly on a creation with other init
code that is shorter than the prelude (`checkDeployment_finishes_iff`).
-/

namespace CargoStylus

open Rust

variable {Param Value : Type}

/-- `constructor.abi_decode_input(&init_data[4..])`. -/
def decodeConstructorArgs (abi : Abi Param Value) (constructor : Constructor Param)
    (initData : Bytes) : Outcome String (List Value) := do
  let encoded ← sliceFrom initData 4
  .ofExcept ((abi.input constructor).decode encoded)

/-- What `verifyConstructorDeployment` reads before it prints. -/
def decodeConstructorDeployment (abi : Abi Param Value) (output : Except String Text)
    (calldata deploymentData : Bytes) :
    Outcome String (Constructor Param × DeployCall × List Value) := do
  match ← .ofExcept (getConstructorSignature abi.parse output) with
  | none =>
    .err "Deployment transaction uses constructor but the local project doesn't have one"
  | some constructor =>
    let call ← .ofExcept (decodeDeployCall abi calldata)
    if call.bytecode ≠ deploymentData then
      .err "Mismatch between deployed bytecode and local project's bytecode"
    else if call.initData.length < 4 then
      .err "Invalid init data length"
    else
      let constructorArgs ← decodeConstructorArgs abi constructor call.initData
      return (constructor, call, constructorArgs)

/-- What `verifyConstructorDeployment` prints then. -/
def constructorLines (abi : Abi Param Value) (deployerAddress : Address) :
    Constructor Param × DeployCall × List Value → List String
  | (constructor, call, constructorArgs) =>
    [greyln "checking whether the contract has a constructor...",
      constructorVerifiedLine,
      greyln s!"Deployer address: {abi.showAddress deployerAddress}",
      greyln s!"Value: {call.initValue.toNat}",
      greyln s!"Salt: {toHex call.salt.1}",
      greyln "Constructor params:"] ++
      (constructor.inputs.zip constructorArgs).map fun (param, value) =>
        greyln s!" * {abi.showParam param}: {abi.showValue value}"

/-- Check a transaction against the local project. -/
def checkDeployment (abi : Abi Param Value) (output : Except String Text) (tx : Transaction)
    (deploymentData : Bytes) : Outcome String Unit :=
  match tx.recipient with
  | some _ => (fun _ => ()) <$> decodeConstructorDeployment abi output tx.input deploymentData
  | none => (fun _ => ()) <$> verifyCreateDeployment tx.input deploymentData

variable {abi : Abi Param Value} {output : Except String Text} {deployer : Address}
  {calldata deploymentData : Bytes}

/-- A slice whose length is checked is in bounds. -/
theorem decodeConstructorArgs_of_le {constructor : Constructor Param} {initData : Bytes}
    (h : 4 ≤ initData.length) : decodeConstructorArgs abi constructor initData =
      .ofExcept ((abi.input constructor).decode (initData.drop 4)) := by
  rw [decodeConstructorArgs, sliceFrom_of_le h, Outcome.ok_bind]

/-- The checker prints what it has read. -/
theorem verifyConstructorDeployment_eq_map :
    verifyConstructorDeployment abi output deployer calldata deploymentData =
      constructorLines abi deployer <$>
        decodeConstructorDeployment abi output calldata deploymentData := by
  rw [verifyConstructorDeployment, decodeConstructorDeployment]
  cases getConstructorSignature abi.parse output with
  | error e => rfl
  | ok found =>
    rcases found with _ | constructor
    · rfl
    · cases decodeDeployCall abi calldata with
      | error e => rfl
      | ok call =>
        simp only [Outcome.ofExcept_ok, Outcome.ok_bind]
        split_ifs with hcode hlen
        · rfl
        · rfl
        · rw [decodeConstructorArgs_of_le (not_lt.1 hlen)]
          cases (abi.input constructor).decode (call.initData.drop 4) with
          | error e => rfl
          | ok args => rfl

/-- What `verify` does with the transaction it fetches. -/
theorem isPanic_verify_iff {env : Env Param Value} {cfg : VerifyConfig} {tx : Transaction}
    {contractCheck : ContractCheck} (h : fetchDeployment env cfg = .ok (tx, contractCheck)) :
    (verify env cfg).IsPanic ↔ (checkDeployment env.abi env.runExport tx
      (contractDeploymentCalldata contractCheck.code)).IsPanic := by
  rw [verify, h, Outcome.ok_bind, checkDeployment]
  dsimp only
  cases tx.recipient with
  | none => exact Outcome.isPanic_map.symm
  | some deployer =>
    dsimp only
    rw [verifyConstructorDeployment_eq_map, Outcome.isPanic_map, Outcome.isPanic_map]

theorem not_isPanic_ofExcept {ε α : Type} (x : Except ε α) :
    ¬(Outcome.ofExcept x : Outcome ε α).IsPanic := by
  cases x
  · exact Outcome.not_isPanic_err _
  · exact Outcome.not_isPanic_ok _

/-- A call of the deployer does not make the check panic. -/
theorem not_isPanic_decodeConstructorDeployment :
    ¬(decodeConstructorDeployment abi output calldata deploymentData).IsPanic := by
  intro h
  rcases Outcome.isPanic_bind.1 h with h | ⟨found, -, h⟩
  · exact not_isPanic_ofExcept _ h
  rcases found with _ | constructor
  · exact Outcome.not_isPanic_err _ h
  rcases Outcome.isPanic_bind.1 h with h | ⟨call, -, h⟩
  · exact not_isPanic_ofExcept _ h
  split_ifs at h with hcode hlen
  · exact Outcome.not_isPanic_err _ h
  · exact Outcome.not_isPanic_err _ h
  · rw [decodeConstructorArgs_of_le (not_lt.1 hlen)] at h
    rcases Outcome.isPanic_bind.1 h with h | ⟨args, -, h⟩
    · exact not_isPanic_ofExcept _ h
    · exact Outcome.not_isPanic_ok _ h

/-- A creation that differs is cut behind the prelude, and it may be shorter. -/
theorem isPanic_verifyCreateDeployment_iff (hdata : 43 ≤ deploymentData.length) :
    (verifyCreateDeployment calldata deploymentData).IsPanic ↔
      calldata ≠ deploymentData ∧ calldata.length < 43 := by
  by_cases hlen : 43 ≤ calldata.length
  · obtain ⟨details, hok⟩ := verifyCreateDeployment_eq_ok hlen hdata
    rw [hok]
    exact iff_of_false (Outcome.not_isPanic_ok _) fun h => absurd h.2 hlen.not_gt
  · have hne : deploymentData ≠ calldata := fun heq => hlen (heq ▸ hdata)
    have hslice : (extractContractEvmDeploymentPrelude calldata).IsPanic :=
      ⟨_, if_neg hlen⟩
    refine iff_of_true ?_ ⟨hne.symm, not_le.1 hlen⟩
    rw [verifyCreateDeployment, if_neg hne]
    exact Outcome.isPanic_bind.2 (.inl hslice)

/-- Verification does not panic exactly on calls of the deployer, on the creation of the local
project, and on creations that are not shorter than the prelude. -/
theorem checkDeployment_finishes_iff (abi : Abi Param Value) (output : Except String Text)
    (tx : Transaction) (code : Bytes) :
    ¬(checkDeployment abi output tx (contractDeploymentCalldata code)).IsPanic ↔
      tx.recipient.isSome ∨ tx.input = contractDeploymentCalldata code ∨
        43 ≤ tx.input.length := by
  have hdata : 43 ≤ (contractDeploymentCalldata code).length := by
    rw [length_contractDeploymentCalldata]
    omega
  unfold checkDeployment
  cases htx : tx.recipient with
  | some deployer =>
    dsimp only
    rw [Outcome.isPanic_map]
    exact iff_of_true not_isPanic_decodeConstructorDeployment (.inl rfl)
  | none =>
    dsimp only
    rw [Outcome.isPanic_map, isPanic_verifyCreateDeployment_iff hdata]
    simp only [Option.isSome_none, Bool.false_eq_true, false_or, ne_eq, not_and, not_lt]
    exact or_iff_not_imp_left.symm

/-- Verifying a creation without init code panics. -/
theorem emptyCreation_panics : (checkDeployment uintAbi (.ok "constructor()".toList)
    { recipient := none, input := [] } (contractDeploymentCalldata [])).IsPanic :=
  ⟨_, rfl⟩

end CargoStylus
