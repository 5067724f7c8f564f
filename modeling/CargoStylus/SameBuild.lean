import Mathlib.Data.Finset.Insert
import Mathlib.Data.Finset.Dedup
import CargoStylus.Build
import CargoStylus.DeployPlan

/-!
# Code and constructor of one build

`deploy` and `verify` run `cargo` twice. One run builds the WASM that is checked, with the
features of the command line. The other runs the export binary, which prints the signature of
the constructor, and is asked for no feature but `export-abi`.

A project is a function of the features it is built with (`Crate`). So a command takes the
constructor from the build whose code it uses exactly if that build has the constructor of the
build with `export-abi` alone (`usesOneBuild_iff`).
-/

namespace CargoStylus

open Rust

/-! ## The features of a run of `cargo` -/

/-- A list of features, separated by spaces or commas. -/
def splitFeatures (features : Text) : List Text :=
  ((features.splitOnP isWhitespace).flatMap (·.splitOn ',')).filter (· ≠ [])

/-- The flag for features. -/
def featuresFlag : Text :=
  "--features=".toList

/-- The features of one argument. -/
def featuresOfArg (arg : Text) : List Text :=
  if featuresFlag.isPrefixOf arg then splitFeatures (stripPrefix featuresFlag arg) else []

/-- The features that `cargo` is asked for. What is behind `--` it passes on. -/
def cliFeatures : List Text → List Text
  | [] => []
  | arg :: args => if arg = "--".toList then [] else featuresOfArg arg ++ cliFeatures args

/-- The set of features that `cargo` builds with. -/
def requestedFeatures (args : List Text) : Finset Text :=
  (cliFeatures args).toFinset

/-- The features of the command line. -/
def featureSet (features : Option Text) : Finset Text :=
  (features.elim [] splitFeatures).toFinset

/-- The configuration that `build_wasm_from_features` builds with. -/
def featuresConfig (rustStable : Bool) (features : Option Text) : BuildConfig :=
  { BuildConfig.new rustStable with features }

/-- The arguments of `cargo` for the export binary. -/
def runExportArgs (hostArch command : Text) (features : Option Text) : List Text :=
  ["run".toList, "--quiet".toList, "--features=export-abi,".toList ++ features.getD [],
    "--target=".toList ++ hostArch, "--".toList, command]

/-- The run in which `get_constructor_signature` reads the signature. -/
def signatureRunArgs (hostArch : Text) : List Text :=
  runExportArgs hostArch "constructor".toList none

/-- The feature of the export binary. -/
def exportAbi : Text :=
  "export-abi".toList

theorem featuresOfArg_features (features : Text) :
    featuresOfArg (featuresFlag ++ features) = splitFeatures features := by
  rw [featuresOfArg, stripPrefix_append, if_pos]
  exact List.isPrefixOf_iff_prefix.2 (List.prefix_append _ _)

theorem cliFeatures_cons {arg : Text} {args : List Text} (h : 2 < arg.length) :
    cliFeatures (arg :: args) = featuresOfArg arg ++ cliFeatures args := by
  have hne : arg ≠ "--".toList := by
    rintro rfl
    exact absurd h (by decide)
  rw [cliFeatures, if_neg hne]

theorem length_append_gt {front : Text} (h : 2 < front.length) (s : Text) :
    2 < (front ++ s).length := by
  rw [List.length_append]
  omega

/-- The WASM is built with the features of the command line. -/
theorem requestedFeatures_buildArgs (rustStable : Bool) (features : Option Text) :
    requestedFeatures (buildArgs (featuresConfig rustStable features)) = featureSet features := by
  rcases features with _ | features
  · cases rustStable <;> decide
  · have hflag : ∀ args, cliFeatures ((featuresFlag ++ features) :: args) =
        splitFeatures features ++ cliFeatures args := by
      intro args
      rw [cliFeatures_cons (length_append_gt (by decide) _), featuresOfArg_features]
    have hargs : cliFeatures (buildArgs (featuresConfig rustStable (some features))) =
        splitFeatures features := by
      cases rustStable
      · exact (hflag _).trans (List.append_nil _)
      · exact (hflag _).trans (List.append_nil _)
    rw [requestedFeatures, hargs]
    rfl

theorem featuresOfArg_target (hostArch : Text) :
    featuresOfArg ("--target=".toList ++ hostArch) = [] := by
  rw [featuresOfArg, if_neg]
  have hstart : ∀ s : Text, featuresFlag.isPrefixOf ("--target=".toList ++ s) = false :=
    fun _ => rfl
  rw [hstart]
  exact Bool.false_ne_true

theorem splitOnP_append {p : Char → Bool} : ∀ {front : Text}, (∀ c ∈ front, p c = false) →
    ∀ s, (front ++ s).splitOnP p = (s.splitOnP p).modifyHead (front ++ ·)
  | [], _, s => by
    rw [List.nil_append]
    rcases s.splitOnP p with _ | ⟨word, words⟩ <;> rfl
  | c :: front, h, s => by
    rw [List.cons_append, List.splitOnP_cons_eq_if_modifyHead, h c List.mem_cons_self,
      splitOnP_append (List.forall_mem_cons.1 h).2 s]
    rcases s.splitOnP p with _ | ⟨word, words⟩ <;> rfl

/-- A feature in front of a list. -/
theorem splitFeatures_cons {feature : Text} (hne : feature ≠ []) (hcomma : ',' ∉ feature)
    (hspace : feature.any isWhitespace = false) (features : Text) :
    splitFeatures (feature ++ ',' :: features) = feature :: splitFeatures features := by
  have hfront : ∀ c ∈ feature ++ [','], isWhitespace c = false := by
    intro c hc
    rcases List.mem_append.1 hc with hc | hc
    · exact Bool.eq_false_iff.2 (List.any_eq_false.1 hspace c hc)
    · obtain rfl := List.mem_singleton.1 hc
      decide
  have hsplit := splitOnP_append hfront features
  rw [List.append_assoc, List.singleton_append] at hsplit
  rw [splitFeatures, splitFeatures, hsplit]
  rcases hwords : features.splitOnP isWhitespace with _ | ⟨word, words⟩
  · exact absurd hwords (List.splitOnP_ne_nil _ _)
  · rw [List.modifyHead_cons, List.flatMap_cons, List.flatMap_cons, List.append_assoc,
      List.singleton_append, List.splitOn_append_cons_self_of_not_mem hcomma, List.cons_append,
      List.filter_cons_of_pos (by simpa using hne)]

/-- The export binary is built with the features it is asked for, besides its own. -/
theorem requestedFeatures_runExportArgs (hostArch command : Text) (features : Option Text) :
    requestedFeatures (runExportArgs hostArch command features) =
      insert exportAbi (featureSet features) := by
  have htarget : cliFeatures ["--target=".toList ++ hostArch, "--".toList, command] = [] := by
    rw [cliFeatures_cons (length_append_gt (by decide) _), featuresOfArg_target]
    rfl
  have hflag : featuresOfArg ("--features=export-abi,".toList ++ features.getD []) =
      exportAbi :: features.elim [] splitFeatures := by
    have hsplit := @splitFeatures_cons exportAbi (by decide) (by decide) rfl (features.getD [])
    rw [← featuresOfArg_features] at hsplit
    refine hsplit.trans ?_
    rcases features with _ | features <;> rfl
  have hargs : cliFeatures (runExportArgs hostArch command features) =
      featuresOfArg ("--features=export-abi,".toList ++ features.getD []) ++
      cliFeatures ["--target=".toList ++ hostArch, "--".toList, command] := by
    change cliFeatures (("--features=export-abi,".toList ++ features.getD []) :: _) = _
    exact cliFeatures_cons (length_append_gt (by decide) _)
  rw [requestedFeatures, hargs, htarget, hflag, List.append_nil, List.toFinset_cons]
  rfl

/-- For the signature it is asked for none. -/
theorem requestedFeatures_signatureRunArgs (hostArch : Text) :
    requestedFeatures (signatureRunArgs hostArch) = {exportAbi} :=
  requestedFeatures_runExportArgs hostArch _ none

/-! ## The builds of a project -/

variable {Param Value : Type}

/-- What a build of a project gives. -/
structure CrateBuild (abi : Abi Param Value) where
  /-- The code of the contract. -/
  code : Bytes
  constructor : Option (Constructor Param)
  /-- What it prints for `constructor`, run natively. -/
  signature : Text
  parse_signature : parseConstructor abi.parse signature = .ok constructor

/-- A project, by the features it is built with. -/
abbrev Crate (abi : Abi Param Value) :=
  Finset Text → CrateBuild abi

variable {abi : Abi Param Value}

/-- A command that runs in a project : it checks the code of one run of `cargo`, and reads what
another prints. -/
structure RunsIn (crate : Crate abi) (rustStable : Bool) (hostArch : Text)
    (check : CheckConfig → Except String ContractCheck) (output : Except String Text)
    (cfg : CheckConfig) : Prop where
  code : ∀ contract, check cfg = .ok contract → contract.code =
    (crate (requestedFeatures (buildArgs (featuresConfig rustStable cfg.commonCfg.features)))).code
  output : ∀ text, output = .ok text → text =
    (crate (requestedFeatures (signatureRunArgs hostArch))).signature

/-! ## What the commands use -/

/-- Arguments that `deploy` accepts without `--wasm-file`, with what it found. -/
structure AcceptsArgs (env : DeployEnv Param Value) (cfg : DeployConfig) (contract : ContractCheck)
    (found : Option (Constructor Param)) (deployer : Option DeployerArgs) : Prop where
  wasmFile : cfg.checkConfig.wasmFile = none
  check : env.check cfg.checkConfig = .ok contract
  constructor : findConstructor env cfg = .ok found
  args : deployerArgs env cfg contract found = .ok deployer

/-- The deployment is that of a build, by its constructor. -/
structure DeploysBuild (build : CrateBuild abi) (env : DeployEnv Param Value) (cfg : DeployConfig)
    (contract : ContractCheck) (found : Option (Constructor Param))
    (deployer : Option DeployerArgs) : Prop where
  code : contract.code = build.code
  constructor : found = build.constructor
  path : deployer.isSome ↔ build.constructor.isSome
  encoding : ∀ out, deployer = some out → ∃ constructor, build.constructor = some constructor ∧
    parseConstructorArgs abi env.connect cfg constructor contract = .ok out
  run : deploy env cfg = deploy { env with output := .ok build.signature } cfg

/-- A call of the deployer that `verify` compares, with the constructor it found. -/
structure ComparesCall (env : Env Param Value) (cfg : VerifyConfig) (tx : Transaction)
    (contract : ContractCheck) (found : Option (Constructor Param)) : Prop where
  fetch : fetchDeployment env cfg = .ok (tx, contract)
  recipient : tx.recipient.isSome
  constructor : getConstructorSignature env.abi.parse env.runExport = .ok found

/-- The call is compared with a build, by its constructor. -/
structure VerifiesBuild (build : CrateBuild abi) (env : Env Param Value) (cfg : VerifyConfig)
    (tx : Transaction) (contract : ContractCheck) (found : Option (Constructor Param)) :
    Prop where
  code : contract.code = build.code
  constructor : found = build.constructor
  decoding : Verified (verify env cfg) → ∃ constructor call args,
    build.constructor = some constructor ∧ abi.deployCall.decode tx.input = .ok call ∧
    call.bytecode = contractDeploymentCalldata build.code ∧
    (abi.input constructor).decode (call.initData.drop 4) = .ok args
  run : verify env cfg = verify { env with runExport := .ok build.signature } cfg

/-- What `verify` checks. -/
def verifyCheckConfig (cfg : VerifyConfig) : CheckConfig where
  commonCfg := cfg.commonCfg
  dataFee := { dataFeeBumpPercent := 20 }
  wasmFile := none
  contractAddress := none

/-- With these features, both commands take code and constructor from the build with these
features. -/
structure UsesOneBuild (crate : Crate abi) (features : Option Text) : Prop where
  deploy : ∀ (env : DeployEnv Param Value) (cfg : DeployConfig) (rustStable : Bool)
    (hostArch : Text) (contract : ContractCheck) (found : Option (Constructor Param))
    (deployer : Option DeployerArgs), env.abi = abi →
    cfg.checkConfig.commonCfg.features = features →
    RunsIn crate rustStable hostArch env.check env.output cfg.checkConfig →
    AcceptsArgs env cfg contract found deployer →
    DeploysBuild (crate (featureSet features)) env cfg contract found deployer
  verify : ∀ (env : Env Param Value) (cfg : VerifyConfig) (rustStable : Bool) (hostArch : Text)
    (tx : Transaction) (contract : ContractCheck) (found : Option (Constructor Param)),
    env.abi = abi → cfg.commonCfg.features = features →
    RunsIn crate rustStable hostArch env.check env.runExport (verifyCheckConfig cfg) →
    ComparesCall env cfg tx contract found →
    VerifiesBuild (crate (featureSet features)) env cfg tx contract found

/-! ## Which constructor is found -/

variable {features : Option Text} {rustStable : Bool} {hostArch : Text}
  {check : CheckConfig → Except String ContractCheck} {output : Except String Text}
  {contract : ContractCheck} {found : Option (Constructor Param)}

section

variable {crate : Crate abi} {cfg : CheckConfig}

/-- The code is that of the build with the features of the command line. -/
theorem RunsIn.code_eq (h : RunsIn crate rustStable hostArch check output cfg)
    (hcheck : check cfg = .ok contract) :
    contract.code = (crate (featureSet cfg.commonCfg.features)).code := by
  rw [h.code contract hcheck, requestedFeatures_buildArgs]

/-- The constructor is that of the build with `export-abi` alone. -/
theorem RunsIn.found_eq (h : RunsIn crate rustStable hostArch check output cfg)
    (hfound : getConstructorSignature abi.parse output = .ok found) :
    found = (crate {exportAbi}).constructor := by
  rcases output with e | text
  · cases hfound
  · have htext := h.output text rfl
    rw [requestedFeatures_signatureRunArgs] at htext
    have hparse : parseConstructor abi.parse text = .ok found := hfound
    rw [htext, (crate {exportAbi}).parse_signature] at hparse
    exact (Except.ok.inj hparse).symm

end

theorem getConstructorSignature_signature (build : CrateBuild abi) :
    getConstructorSignature abi.parse (.ok build.signature) = .ok build.constructor :=
  build.parse_signature

section

variable {env : DeployEnv Param Value} {cfg : DeployConfig} {deployer : Option DeployerArgs}

theorem AcceptsArgs.signature_eq (h : AcceptsArgs env cfg contract found deployer) :
    getConstructorSignature env.abi.parse env.output = .ok found := by
  have hfound := h.constructor
  rw [findConstructor, h.wasmFile] at hfound
  simp only [Option.isSome_none, Bool.false_eq_true, if_false] at hfound
  split_ifs at hfound
  exact Outcome.ofExcept_eq_ok.1 hfound

/-- With the constructor of the build, the deployment is that of the build. -/
theorem AcceptsArgs.deploysBuild {build : CrateBuild env.abi}
    (h : AcceptsArgs env cfg contract found deployer) (hcode : contract.code = build.code)
    (hfound : found = build.constructor) :
    DeploysBuild build env cfg contract found deployer where
  code := hcode
  constructor := hfound
  path := by
    rw [← hfound]
    rcases deployer with _ | out
    · rw [(deployerArgs_eq_none.1 h.args).1]
      rfl
    · obtain ⟨constructor, rfl, -⟩ := deployerArgs_eq_some h.args
      simp
  encoding := by
    rintro out rfl
    obtain ⟨constructor, hconstructor, hargs⟩ := deployerArgs_eq_some h.args
    exact ⟨constructor, hfound ▸ hconstructor, hargs⟩
  run := by
    have hfind : findConstructor { env with output := .ok build.signature } cfg =
        findConstructor env cfg := by
      have hsame : getConstructorSignature env.abi.parse env.output =
          getConstructorSignature env.abi.parse (.ok build.signature) := by
        rw [h.signature_eq, getConstructorSignature_signature, hfound]
      unfold findConstructor
      rw [hsame]
    unfold CargoStylus.deploy
    rw [hfind]
    rfl

end

section

variable {env : Env Param Value} {cfg : VerifyConfig} {tx : Transaction}

/-- What is compared is what was checked. -/
theorem ComparesCall.checked (h : ComparesCall env cfg tx contract found) :
    env.check (verifyCheckConfig cfg) = .ok contract := by
  have hfetch := h.fetch
  unfold fetchDeployment at hfetch
  obtain ⟨_, -, hfetch⟩ := Outcome.bind_eq_ok.1 hfetch
  obtain ⟨hash, -, hfetch⟩ := Outcome.bind_eq_ok.1 hfetch
  split_ifs at hfetch
  obtain ⟨found, -, hfetch⟩ := Outcome.bind_eq_ok.1 hfetch
  rcases found with _ | found
  · cases hfetch
  obtain ⟨success, -, hfetch⟩ := Outcome.bind_eq_ok.1 hfetch
  split_ifs at hfetch
  obtain ⟨contractCheck, hcheck, hfetch⟩ := Outcome.bind_eq_ok.1 hfetch
  obtain ⟨-, rfl⟩ := Prod.mk.inj (Outcome.ok.inj hfetch)
  exact Outcome.ofExcept_eq_ok.1 (Outcome.mapErr_eq_ok.1 hcheck)

theorem verify_of_fetch {deployerAddress : Address}
    (hfetch : fetchDeployment env cfg = .ok (tx, contract))
    (hrecipient : tx.recipient = some deployerAddress) :
    verify env cfg = verifyConstructorDeployment env.abi env.runExport deployerAddress tx.input
      (contractDeploymentCalldata contract.code) := by
  rw [verify, hfetch, Outcome.ok_bind]
  simp only [hrecipient]

/-- With the constructor of the build, the call is compared with the build. -/
theorem ComparesCall.verifiesBuild {build : CrateBuild env.abi}
    (h : ComparesCall env cfg tx contract found) (hcode : contract.code = build.code)
    (hfound : found = build.constructor) :
    VerifiesBuild build env cfg tx contract found := by
  obtain ⟨deployerAddress, hrecipient⟩ := Option.isSome_iff_exists.1 h.recipient
  have hverify := verify_of_fetch h.fetch hrecipient
  refine ⟨hcode, hfound, fun hverified => ?_, ?_⟩
  · rw [hverify, hcode] at hverified
    obtain ⟨constructor, call, args, hconstructor, hcall, hbytecode, -, hargs⟩ :=
      verified_iff_checks.1 hverified
    rw [h.constructor, hfound] at hconstructor
    exact ⟨constructor, call, args, Except.ok.inj hconstructor, hcall, hbytecode, hargs⟩
  · have hfetch : fetchDeployment { env with runExport := .ok build.signature } cfg =
        .ok (tx, contract) := h.fetch
    rw [hverify, verify_of_fetch hfetch hrecipient, verifyConstructorDeployment,
      verifyConstructorDeployment, h.constructor, hfound, getConstructorSignature_signature]

end

/-! ## When it is the right one -/

/-- A world in which the project is checked, and its transaction calls the deployer. -/
def callWorld (crate : Crate abi) (features : Option Text) : Env Param Value where
  abi := abi
  connect _ := .ok ()
  hexDecode _ := .ok (List.replicate 32 0)
  getTransactionByHash _ := .ok (some { recipient := some (filled 20 0), input := [] })
  cargoClean := .ok true
  check _ := .ok (.active (crate (featureSet features)).code)
  runExport := .ok (crate {exportAbi}).signature

/-- A verification with these features. -/
def verifyConfig (features : Option Text) : VerifyConfig where
  commonCfg :=
    { endpoint := [], verbose := false, sourceFilesForProjectHash := [],
      maxFeePerGasGwei := none, features }
  deploymentTx := []
  noVerify := true
  cargoStylusVersion := none

theorem runsIn_callWorld (crate : Crate abi) (features : Option Text) :
    RunsIn crate true [] (callWorld crate features).check (callWorld crate features).runExport
      (verifyCheckConfig (verifyConfig features)) where
  code := by
    intro contract hcheck
    obtain rfl := Except.ok.inj hcheck
    rw [requestedFeatures_buildArgs]
    rfl
  output := by
    intro text htext
    rw [requestedFeatures_signatureRunArgs]
    exact (Except.ok.inj htext).symm

theorem comparesCall_callWorld (crate : Crate abi) (features : Option Text) :
    ComparesCall (callWorld crate features) (verifyConfig features)
      { recipient := some (filled 20 0), input := [] }
      (.active (crate (featureSet features)).code) (crate {exportAbi}).constructor where
  fetch := rfl
  recipient := rfl
  constructor := (crate {exportAbi}).parse_signature

/-- The commands use one build exactly if the constructor does not depend on the features of
the command line. -/
theorem usesOneBuild_iff (crate : Crate abi) (features : Option Text) :
    UsesOneBuild crate features ↔
      (crate {exportAbi}).constructor = (crate (featureSet features)).constructor := by
  refine ⟨fun h => ?_, fun h => ⟨?_, ?_⟩⟩
  · exact (h.verify _ _ true [] _ _ _ rfl rfl (runsIn_callWorld crate features)
      (comparesCall_callWorld crate features)).constructor
  · rintro env cfg rustStable hostArch contract found deployer rfl rfl hruns haccepts
    exact haccepts.deploysBuild (hruns.code_eq haccepts.check)
      ((hruns.found_eq haccepts.signature_eq).trans h)
  · rintro env cfg rustStable hostArch tx contract found rfl rfl hruns hcompares
    exact hcompares.verifiesBuild (hruns.code_eq hcompares.checked)
      ((hruns.found_eq hcompares.constructor).trans h)

/-- A contract with a constructor only in the builds with the feature `init`. -/
def initCrate : Crate uintAbi := fun features =>
  if "init".toList ∈ features then
    { code := [0x69], constructor := some { inputs := [], stateMutability := .nonPayable },
      signature := "constructor()".toList, parse_signature := rfl }
  else { code := [], constructor := none, signature := [], parse_signature := rfl }

/-- `cargo stylus deploy --features=init`. -/
def initConfig : DeployConfig where
  checkConfig := verifyCheckConfig (verifyConfig (some "init".toList))
  auth := { privateKeyPath := none, privateKey := none, keystorePath := some [],
            keystorePasswordPath := none }
  estimateGas := false
  noVerify := true
  cargoStylusVersion := none
  noActivate := false
  deployerAddress := filled 20 0
  deployerSalt := filled 32 0
  constructorArgs := []
  constructorValue := 0
  constructorSignature := none

/-- A project with a code of one byte, and a wallet. -/
def initEnv : DeployEnv NamedParam U256 where
  abi := uintAbi
  check _ := .ok (.active [0x69])
  output := .ok []
  connect _ := .ok ()
  alloyWallet _ _ := .ok (filled 20 1)
  convertGweiToWei _ := .error "not a number"
  create sender _ := sender

theorem runsIn_initEnv :
    RunsIn initCrate true [] initEnv.check initEnv.output initConfig.checkConfig where
  code := by
    intro contract hcheck
    obtain rfl := Except.ok.inj hcheck
    rw [requestedFeatures_buildArgs]
    rfl
  output := by
    intro text htext
    obtain rfl := Except.ok.inj htext
    rw [requestedFeatures_signatureRunArgs]
    rfl

theorem acceptsArgs_initEnv :
    AcceptsArgs initEnv initConfig (.active [0x69]) none none where
  wasmFile := rfl
  check := rfl
  constructor := rfl
  args := rfl

/-- The contract is created without the constructor that its code has. -/
theorem initCrate_not_usesOneBuild :
    ¬UsesOneBuild initCrate (some "init".toList) := by
  intro h
  have hpath := (h.deploy _ _ true [] _ _ _ rfl rfl runsIn_initEnv acceptsArgs_initEnv).path
  exact absurd (hpath.2 rfl) (by decide)

end CargoStylus
