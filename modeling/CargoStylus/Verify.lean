import CargoStylus.DeployerAbi

/-!
# Verifying a deployment

`verify` fetches a deployment transaction, builds the local project and compares the two.
A transaction to an address is taken for a call of the deployer, any other for a creation,
and each has its own checker. `Carries` says which bytecode a transaction carries.

The deployer checker compares the bytecode and reads the initialisation data behind its
first four bytes, which it does not look at. So it verifies the calldata that deploys the
project with any selector (`verifyConstructorDeployment_verified_iff`), and verification is
authentic unless some other selector was called (`verified_iff_authentic_iff`). The
creation checker reports a mismatch in what it prints, and returns `Ok` all the same
(`verifyCreateDeployment_eq_ok`). So failure is signalled on the deployer path, and on the
creation path only where there is none to signal (`signalsFailure_iff`).
-/

namespace CargoStylus

open Rust

/-! ## What is printed -/

/-- The colour of details. -/
def grey : String := "\x1b[0;0m\x1b[90m"
/-- The colour of success. -/
def mint : String := "\x1b[38;5;48;1m"
/-- The colour of failure. -/
def red : String := "\x1b[31;1m"
/-- The end of a colour. -/
def clear : String := "\x1b[0;0m"

/-- The line `greyln!` prints. -/
def greyln (msg : String) : String :=
  grey ++ msg ++ clear

/-- The line for a verified call of the deployer. -/
def constructorVerifiedLine : String :=
  greyln (mint ++ "VERIFIED" ++ grey ++
    " - contract with constructor matches local project's file hashes")

/-- The line for a verified creation. -/
def createVerifiedLine : String :=
  greyln (mint ++ "VERIFIED" ++ grey ++ " - contract matches local project's file hashes")

/-- The line for a creation that is not verified. -/
def failedLine : String :=
  red ++ "FAILED" ++ clear ++
    " - contract deployment did not verify against local project's file hashes"

/-! ## The checkers -/

variable {Param Value : Type}

/-- Check a call of the deployer, for a local project whose export binary prints `output`.
The value is the lines printed. -/
def verifyConstructorDeployment (abi : Abi Param Value) (output : Except String Text)
    (deployerAddress : Address) (calldata deploymentData : Bytes) :
    Outcome String (List String) := do
  match ← .ofExcept (getConstructorSignature abi.parse output) with
  | none =>
    .err "Deployment transaction uses constructor but the local project doesn't have one"
  | some constructor =>
    let call ← .ofExcept (decodeDeployCall abi calldata)
    if call.bytecode ≠ deploymentData then
      .err "Mismatch between deployed bytecode and local project's bytecode"
    else if call.initData.length < 4 then
      .err "Invalid init data length"
    else
      let constructorArgs ← .ofExcept ((abi.input constructor).decode (call.initData.drop 4))
      return [greyln "checking whether the contract has a constructor...",
        constructorVerifiedLine,
        greyln s!"Deployer address: {abi.showAddress deployerAddress}",
        greyln s!"Value: {call.initValue.toNat}",
        greyln s!"Salt: {toHex call.salt.1}",
        greyln "Constructor params:"] ++
        (constructor.inputs.zip constructorArgs).map fun (param, value) =>
          greyln s!" * {abi.showParam param}: {abi.showValue value}"

/-- Check a creation. The value is the lines printed. -/
def verifyCreateDeployment (calldata deploymentData : Bytes) : Outcome String (List String) := do
  if deploymentData = calldata then
    return [createVerifiedLine]
  else
    let txPrelude ← extractContractEvmDeploymentPrelude calldata
    let reconstructedPrelude ← extractContractEvmDeploymentPrelude deploymentData
    let diagnosis :=
      if txPrelude ≠ reconstructedPrelude then
        ["Prelude mismatch",
          "Deployment tx prelude " ++ String.ofList (hexEncode txPrelude),
          "Reconstructed prelude " ++ String.ofList (hexEncode reconstructedPrelude)]
      else ["Compressed WASM bytecode mismatch"]
    let reconstructed ← extractCompressedWasm deploymentData
    let deployed ← extractCompressedWasm calldata
    return failedLine :: diagnosis ++
      [s!"Compressed code length of locally reconstructed {reconstructed.length}",
        s!"Compressed code length of deployment tx {deployed.length}"]

/-! ## The command -/

/-- What `verify` reads of a transaction. -/
structure Transaction where
  /-- `tx.to()`, which a creation does not have. -/
  recipient : Option Address
  input : Bytes
deriving DecidableEq

/-- What `verify` asks of the node, the file system and the libraries. -/
structure Env (Param Value : Type) where
  abi : Abi Param Value
  /-- Connect to an RPC endpoint. -/
  connect : Text → Except String Unit
  /-- `hex::decode`. -/
  hexDecode : Text → Except String Bytes
  getTransactionByHash : B256 → Except String (Option Transaction)
  /-- Whether `cargo clean` succeeds, once it runs. -/
  cargoClean : Except String Bool
  /-- Build the local project and check it. -/
  check : CheckConfig → Except String ContractCheck
  /-- What the export binary of the local project prints for `constructor`. -/
  runExport : Except String Text

/-- `decode0x` : hex, with or without `0x` before it. -/
def decode0x (env : Env Param Value) (text : Text) : Except String Bytes :=
  env.hexDecode (stripPrefix "0x".toList (trim text))

/-- The deployment transaction, and the local project built and checked. -/
def fetchDeployment (env : Env Param Value) (cfg : VerifyConfig) :
    Outcome String (Transaction × ContractCheck) := do
  .ofExcept (env.connect cfg.commonCfg.endpoint)
  let hash ← .ofExcept (decode0x env cfg.deploymentTx)
  if hlen : hash.length = 32 then
    match ← .mapErr ("RPC failed: " ++ ·) (.ofExcept (env.getTransactionByHash ⟨hash, hlen⟩)) with
    | none => .err "No code at address"
    | some tx =>
      let success ← .mapErr ("failed to execute cargo clean: " ++ ·) (.ofExcept env.cargoClean)
      if success then
        let contractCheck ← .mapErr ("Stylus checks failed: " ++ ·) (.ofExcept (env.check
          { commonCfg := cfg.commonCfg, dataFee := { dataFeeBumpPercent := 20 },
            wasmFile := none, contractAddress := none }))
        return (tx, contractCheck)
      else .err "cargo clean command failed"
  else .err "Invalid hash"

/-- The checker for a creation or for a call, by whether there is a recipient. -/
def verify (env : Env Param Value) (cfg : VerifyConfig) : Outcome String (List String) := do
  let (tx, contractCheck) ← fetchDeployment env cfg
  let deploymentData := contractDeploymentCalldata contractCheck.code
  match tx.recipient with
  | some deployerAddress =>
    verifyConstructorDeployment env.abi env.runExport deployerAddress tx.input deploymentData
  | none => verifyCreateDeployment tx.input deploymentData

/-! ## Authenticity of the deployer path -/

/-- The checker returns, and prints that it verified the deployment. -/
def Verified (result : Outcome String (List String)) : Prop :=
  ∃ lines, result = .ok lines ∧ constructorVerifiedLine ∈ lines

variable {abi : Abi Param Value} {output : Except String Text} {deployer : Address}
  {calldata deploymentData code : Bytes}

/-- A call is verified when it passes every check, and then the checker returns. -/
theorem verified_iff_checks :
    Verified (verifyConstructorDeployment abi output deployer calldata deploymentData) ↔
      ∃ constructor call args,
        getConstructorSignature abi.parse output = .ok (some constructor) ∧
        abi.deployCall.decode calldata = .ok call ∧ call.bytecode = deploymentData ∧
        4 ≤ call.initData.length ∧
        (abi.input constructor).decode (call.initData.drop 4) = .ok args := by
  unfold Verified verifyConstructorDeployment
  refine ⟨fun h => ?_, fun h => ?_⟩
  · obtain ⟨lines, h, -⟩ := h
    obtain ⟨found, hfound, h⟩ := Outcome.bind_eq_ok.1 h
    cases found with
    | none => cases h
    | some constructor =>
      obtain ⟨call, hcall, h⟩ := Outcome.bind_eq_ok.1 h
      split_ifs at h with hcode hlen
      obtain ⟨args, hargs, -⟩ := Outcome.bind_eq_ok.1 h
      exact ⟨constructor, call, args, Outcome.ofExcept_eq_ok.1 hfound,
        Outcome.ofExcept_eq_ok.1 hcall, not_not.1 hcode, not_lt.1 hlen,
        Outcome.ofExcept_eq_ok.1 hargs⟩
  · obtain ⟨constructor, call, args, hfound, hcall, hcode, hlen, hargs⟩ := h
    simp only [hfound, decodeDeployCall, hcall, Outcome.ofExcept_ok, Outcome.ok_bind, hcode,
      ne_eq, not_true_eq_false, if_false, not_lt.2 hlen, hargs, Outcome.pure_eq]
    exact ⟨_, rfl, by simp⟩

/-- The checker verifies exactly the calls that deploy the project with some selector. -/
theorem verifyConstructorDeployment_verified_iff :
    Verified (verifyConstructorDeployment abi output deployer calldata
      (contractDeploymentCalldata code)) ↔
      ∃ constructor selector,
        getConstructorSignature abi.parse output = .ok (some constructor) ∧
        selector.length = 4 ∧ IsDeployment abi constructor code selector calldata := by
  rw [verified_iff_checks]
  refine ⟨fun h => ?_, fun h => ?_⟩
  · obtain ⟨constructor, call, args, hfound, hcall, hcode, hlen, hargs⟩ := h
    have hsplit : call =
        { bytecode := contractDeploymentCalldata code,
          initData := call.initData.take 4 ++ call.initData.drop 4,
          initValue := call.initValue, salt := call.salt } := by
      rw [List.take_append_drop, ← hcode]
    refine ⟨constructor, call.initData.take 4, hfound, by simp [hlen], args,
      call.initData.drop 4, call.initValue, call.salt, ?_, ?_⟩
    · exact (abi.input constructor).decode_eq_ok.1 hargs
    · rw [← hsplit]
      exact abi.deployCall.decode_eq_ok.1 hcall
  · obtain ⟨constructor, selector, hfound, hlen, args, encoded, initValue, salt, hargs, hcall⟩ := h
    refine ⟨constructor, _, args, hfound, abi.deployCall.decode_eq_ok.2 hcall, rfl, ?_, ?_⟩
    · simp [hlen]
    · rw [← hlen, List.drop_left]
      exact (abi.input constructor).decode_eq_ok.2 hargs

/-- The calldata deploys the local project : it initialises the contract by its constructor. -/
def Authentic (abi : Abi Param Value) (output : Except String Text) (code calldata : Bytes) :
    Prop :=
  ∃ constructor, getConstructorSignature abi.parse output = .ok (some constructor) ∧
    IsDeployment abi constructor code stylusConstructorSelector calldata

/-- Calldata that deploys a project deploys it with one selector. -/
theorem IsDeployment.selector_unique {constructor : Constructor Param} {selector selector' : Bytes}
    (hlen : selector.length = selector'.length)
    (h : IsDeployment abi constructor code selector calldata)
    (h' : IsDeployment abi constructor code selector' calldata) : selector = selector' := by
  obtain ⟨args, encoded, initValue, salt, -, hcall⟩ := h
  obtain ⟨args', encoded', initValue', salt', -, hcall'⟩ := h'
  have hdata := congrArg DeployCall.initData (abi.deployCall.encode_inj hcall hcall')
  exact (List.append_inj hdata hlen).1

/-- What the deployer is sent for a project is verified as a deployment of the project. -/
theorem verified_parseConstructorArgs {connect : Text → Except String Unit} {cfg : DeployConfig}
    {constructor : Constructor Param} {contract : ContractCheck} {out : DeployerArgs}
    (hfound : getConstructorSignature abi.parse output = .ok (some constructor))
    (h : parseConstructorArgs abi connect cfg constructor contract = .ok out) :
    Verified (verifyConstructorDeployment abi output deployer out.txCalldata
      (contractDeploymentCalldata contract.code)) :=
  verifyConstructorDeployment_verified_iff.2
    ⟨constructor, stylusConstructorSelector, hfound, rfl, parseConstructorArgs_isDeployment h⟩

/-- Verification is authentic exactly on the calldata that does not deploy the project with
another selector than the constructor's. -/
theorem verified_iff_authentic_iff (abi : Abi Param Value) (output : Except String Text)
    (deployer : Address) (code calldata : Bytes) :
    (Verified (verifyConstructorDeployment abi output deployer calldata
        (contractDeploymentCalldata code)) ↔ Authentic abi output code calldata) ↔
      ∀ constructor selector,
        getConstructorSignature abi.parse output = .ok (some constructor) →
        selector.length = 4 → IsDeployment abi constructor code selector calldata →
        selector = stylusConstructorSelector := by
  rw [verifyConstructorDeployment_verified_iff]
  refine ⟨fun h constructor selector hfound hlen hcall => ?_, fun h => ?_⟩
  · obtain ⟨constructor', hfound', hcall'⟩ := h.1 ⟨constructor, selector, hfound, hlen, hcall⟩
    obtain rfl : constructor = constructor' := by
      rw [hfound] at hfound'
      exact Option.some.inj (Except.ok.inj hfound')
    exact hcall.selector_unique hlen hcall'
  · refine ⟨fun hv => ?_, fun hauth => ?_⟩
    · obtain ⟨constructor, selector, hfound, hlen, hcall⟩ := hv
      obtain rfl := h constructor selector hfound hlen hcall
      exact ⟨constructor, hfound, hcall⟩
    · obtain ⟨constructor, hfound, hcall⟩ := hauth
      exact ⟨constructor, _, hfound, rfl, hcall⟩

/-- A call that creates the empty contract and then calls `selector` of it, without
arguments. -/
def emptyCall (selector : Bytes) : DeployCall :=
  { bytecode := contractDeploymentCalldata [], initData := selector, initValue := 0,
    salt := filled 32 0 }

/-- The calldata of that call. -/
def emptyCalldata (selector : Bytes) : Bytes :=
  (encodeDeployCall (emptyCall selector)).toOption.getD []

theorem emptyCall_isDeployment (selector : Bytes) (hlen : selector.length = 4) :
    IsDeployment uintAbi { inputs := [], stateMutability := .nonPayable } [] selector
      (emptyCalldata selector) := by
  have hcode : (contractDeploymentCalldata []).length < 2 ^ 64 := by decide
  have hdata : selector.length < 2 ^ 64 := by omega
  refine ⟨[], [], 0, filled 32 0, rfl, ?_⟩
  rw [List.append_nil]
  change encodeDeployCall (emptyCall selector) = .ok (emptyCalldata selector)
  rw [emptyCalldata, encodeDeployCall, if_pos ⟨hcode, hdata⟩]
  rfl

theorem getConstructorSignature_empty :
    getConstructorSignature uintAbi.parse (.ok "constructor()".toList) =
      .ok (some { inputs := [], stateMutability := .nonPayable }) :=
  rfl

/-- The deployment of a project without constructor parameters, by its constructor. -/
theorem emptyCalldata_authentic :
    Verified (verifyConstructorDeployment uintAbi (.ok "constructor()".toList)
        (filled 20 0) (emptyCalldata stylusConstructorSelector)
        (contractDeploymentCalldata [])) ↔
      Authentic uintAbi (.ok "constructor()".toList) []
        (emptyCalldata stylusConstructorSelector) := by
  refine (verified_iff_authentic_iff _ _ _ _ _).2 ?_
  intro constructor selector hfound hlen hcall
  rw [getConstructorSignature_empty] at hfound
  obtain rfl := Option.some.inj (Except.ok.inj hfound)
  have hempty := emptyCall_isDeployment stylusConstructorSelector rfl
  exact hcall.selector_unique hlen hempty

/-- The deployment of the same project by another call is verified, and not authentic. -/
theorem foreignSelector_not_authentic :
    ¬(Verified (verifyConstructorDeployment uintAbi (.ok "constructor()".toList)
        (filled 20 0) (emptyCalldata [0xde, 0xad, 0xbe, 0xef])
        (contractDeploymentCalldata [])) ↔
      Authentic uintAbi (.ok "constructor()".toList) []
        (emptyCalldata [0xde, 0xad, 0xbe, 0xef])) := by
  intro h
  have hcall := emptyCall_isDeployment [0xde, 0xad, 0xbe, 0xef] rfl
  obtain ⟨constructor, hfound, hauth⟩ :=
    h.1 (verifyConstructorDeployment_verified_iff.2
      ⟨_, _, getConstructorSignature_empty, rfl, hcall⟩)
  rw [getConstructorSignature_empty] at hfound
  obtain rfl := Option.some.inj (Except.ok.inj hfound)
  have hlen : [0xde, 0xad, 0xbe, 0xef].length = stylusConstructorSelector.length := rfl
  have hne : [0xde, 0xad, 0xbe, 0xef] ≠ stylusConstructorSelector := by decide
  exact hne (hcall.selector_unique hlen hauth)

/-! ## Failure of either path -/

/-- The transaction carries this bytecode, to the deployer or as init code. -/
def Carries (abi : Abi Param Value) (tx : Transaction) (bytecode : Bytes) : Prop :=
  match tx.recipient with
  | some _ => ∃ call, decodeDeployCall abi tx.input = .ok call ∧ call.bytecode = bytecode
  | none => tx.input = bytecode

/-- `Ok` is returned only for the project's bytecode, and any other bytecode is an error. -/
def SignalsFailure (env : Env Param Value) (cfg : VerifyConfig) (tx : Transaction)
    (code : Bytes) : Prop :=
  ((verify env cfg).IsOk → Carries env.abi tx (contractDeploymentCalldata code)) ∧
    (¬Carries env.abi tx (contractDeploymentCalldata code) → (verify env cfg).IsErr)

/-- The deployer checker returns an error for calldata without the expected bytecode. -/
theorem verifyConstructorDeployment_isErr
    (h : ¬∃ call, decodeDeployCall abi calldata = .ok call ∧ call.bytecode = deploymentData) :
    (verifyConstructorDeployment abi output deployer calldata deploymentData).IsErr := by
  unfold verifyConstructorDeployment
  cases getConstructorSignature abi.parse output with
  | error e => simp
  | ok found =>
    cases found with
    | none => simp
    | some constructor =>
      cases hcall : decodeDeployCall abi calldata with
      | error e => simp
      | ok call =>
        have hne : call.bytecode ≠ deploymentData := fun heq => h ⟨call, hcall, heq⟩
        simp [hne]

/-- The creation checker returns, and tells a match from a mismatch by what it prints. -/
theorem verifyCreateDeployment_eq_ok (hcalldata : 43 ≤ calldata.length)
    (hdata : 43 ≤ deploymentData.length) :
    ∃ details, verifyCreateDeployment calldata deploymentData =
      .ok ((if deploymentData = calldata then createVerifiedLine else failedLine) :: details) := by
  unfold verifyCreateDeployment
  split_ifs with heq
  · exact ⟨[], rfl⟩
  · rw [extractContractEvmDeploymentPrelude_of_le hcalldata,
      extractContractEvmDeploymentPrelude_of_le hdata, extractCompressedWasm_of_le hdata,
      extractCompressedWasm_of_le hcalldata]
    exact ⟨_, rfl⟩

/-- Failure is signalled for a call of the deployer, and for a creation only if it does not
fail. -/
theorem signalsFailure_iff (env : Env Param Value) (cfg : VerifyConfig) (tx : Transaction)
    (contractCheck : ContractCheck)
    (hfetch : fetchDeployment env cfg = .ok (tx, contractCheck)) (hlen : 43 ≤ tx.input.length) :
    SignalsFailure env cfg tx contractCheck.code ↔
      tx.recipient.isSome ∨ tx.input = contractDeploymentCalldata contractCheck.code := by
  have hdata : 43 ≤ (contractDeploymentCalldata contractCheck.code).length := by
    rw [length_contractDeploymentCalldata]
    omega
  rw [SignalsFailure, verify, hfetch, Outcome.ok_bind]
  cases hrecipient : tx.recipient with
  | some deployer =>
    simp only [Carries, hrecipient, Option.isSome_some, true_or, iff_true]
    refine ⟨fun hok => ?_, verifyConstructorDeployment_isErr⟩
    by_contra hne
    have herr : (verifyConstructorDeployment env.abi env.runExport deployer tx.input
        (contractDeploymentCalldata contractCheck.code)).IsErr :=
      verifyConstructorDeployment_isErr hne
    obtain ⟨e, he⟩ := herr
    simp [he] at hok
  | none =>
    obtain ⟨details, hok⟩ := verifyCreateDeployment_eq_ok hlen hdata
    simp [Carries, hrecipient, hok]

/-- A world in which the transaction `tx` is found and the local project is `code`. -/
def worldOf (tx : Transaction) (code : Bytes) : Env NamedParam U256 where
  abi := uintAbi
  connect _ := .ok ()
  hexDecode _ := .ok (List.replicate 32 0)
  getTransactionByHash _ := .ok (some tx)
  cargoClean := .ok true
  check _ := .ok (.active code)
  runExport := .ok "constructor()".toList

/-- A verification of the transaction whose hash is all zeros. -/
def sampleConfig : VerifyConfig where
  commonCfg :=
    { endpoint := "http://localhost:8547".toList, verbose := false,
      sourceFilesForProjectHash := [], maxFeePerGasGwei := none, features := none }
  deploymentTx := List.replicate 64 '0'
  noVerify := true
  cargoStylusVersion := none

theorem fetchDeployment_worldOf (tx : Transaction) (code : Bytes) :
    fetchDeployment (worldOf tx code) sampleConfig = .ok (tx, .active code) :=
  rfl

/-- 43 zeros sent to a deployer are an error. -/
theorem zeros_signalsFailure :
    SignalsFailure
      (worldOf { recipient := some (filled 20 0), input := List.replicate 43 0 } [])
      sampleConfig
      { recipient := some (filled 20 0), input := List.replicate 43 0 } [] :=
  (signalsFailure_iff _ _ _ _ (fetchDeployment_worldOf _ _) (by decide)).2 (Or.inl rfl)

/-- A creation with 43 zeros is not the empty contract, and verifying it returns `Ok`. -/
theorem zeroCreation_not_signalsFailure :
    fetchDeployment (worldOf { recipient := none, input := List.replicate 43 0 } []) sampleConfig =
        .ok ({ recipient := none, input := List.replicate 43 0 }, .active []) ∧
      43 ≤ (List.replicate 43 (0 : UInt8)).length ∧
      ¬SignalsFailure (worldOf { recipient := none, input := List.replicate 43 0 } []) sampleConfig
        { recipient := none, input := List.replicate 43 0 } [] := by
  refine ⟨fetchDeployment_worldOf _ _, by decide, fun h => ?_⟩
  have hlen : 43 ≤ (List.replicate 43 (0 : UInt8)).length := by decide
  have hdata : 43 ≤ (contractDeploymentCalldata []).length := by decide
  obtain ⟨details, hok⟩ := verifyCreateDeployment_eq_ok hlen hdata
  have hcarries := h.1
  rw [verify, fetchDeployment_worldOf] at hcarries
  have hne : List.replicate 43 0 ≠ contractDeploymentCalldata [] := by decide
  exact hne (hcarries ⟨_, hok⟩)

end CargoStylus
