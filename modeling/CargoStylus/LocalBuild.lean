import CargoStylus.DeployVerify
import CargoStylus.Fees
import CargoStylus.SameBuild
import CargoStylus.SourceFiles
import CargoStylus.Toolchain

/-!
# The code of a local project

What the check of a contract compiles : the toolchain file gives the channel, `cargo` builds the
artifact, the files of the project are hashed, and the artifact is compressed with the hash.
All of it is read from one machine (`Machine`). With `--wasm-file` nothing is built, and the
hash is zero.

Two machines compile a project to the same code if they have the same files, listed in any
order, and `cargo` builds the same artifact on both (`compile_eq_ok_of_same`). So what is
deployed on one is verified on the other, wherever the project is (`verified_elsewhere`). The
files do not count if the artifact is valid (`compile_eq_of_valid`), since nothing of the
hash is left in the code.

The init code that is printed is the one that a deployment of the same project sends
(`getInitcode_sent`).
-/

namespace CargoStylus

open Rust Rust.Interaction Rust.Interaction.Prog

/-! ## Building -/

/-- `wrap_err` of an error that is reported. Nothing wraps the end of the process. -/
def wrapReport {α : Type} (message : String) : Outcome BuildFailure α → Outcome BuildFailure α
  | .err (.exit status) => .err (.exit status)
  | .err _ => .err (.report message)
  | .ok a => .ok a
  | .panic m => .panic m

@[simp] theorem wrapReport_eq_ok {α : Type} {message : String} {x : Outcome BuildFailure α}
    {a : α} : wrapReport message x = .ok a ↔ x = .ok a := by
  rcases x with a' | (e | path | status) | m <;> simp [wrapReport]

@[simp] theorem orReport_eq_ok {α : Type} {x : Outcome String α} {a : α} :
    orReport x = .ok a ↔ x = .ok a := by
  cases x <;> simp [orReport]

/-- What a command reads on one machine when it builds a project. -/
structure Machine where
  build : BuildEnv
  readDir : ReadDir
  toolchain : ToolchainLibs
  /-- The contents of `rust-toolchain.toml`. -/
  toolchainFile : Except String Text
  glob : Glob
  project : Project
  openFile : PathBuf → Except String OpenFile
  /-- Run `cargo --version` : whether it succeeds, and what it prints. -/
  cargoVersion : Except String (Bool × Bytes)
  keccak256 : Bytes → FixedBytes 32

namespace Machine

variable (m : Machine)

/-- The hash of the files, as the threads that read and hash them end. -/
def hashFiles (cargoVersionOutput : Bytes) (sourceFilePatterns : List Text) (cfg : BuildConfig) :
    Outcome String (FixedBytes 32) := do
  let paths ← hashedPaths m.glob m.project sourceFilePatterns
  let (received, result) :=
    Feed.drain ((paths.map (sourceFile m.openFile)).map readFilePreimage)
  let _ ← .ofExcept result
  return m.keccak256 (cargoVersionOutput ++ [cfg.optLevel.byte] ++ received.flatten)

/-- The hash of the files, with what `cargo --version` prints. -/
def hashProject (sourceFilePatterns : List Text) (cfg : BuildConfig) :
    Outcome String (FixedBytes 32) := do
  let (success, stdout) ← .mapErr ("failed to execute cargo command: " ++ ·)
    (.ofExcept m.cargoVersion)
  if success then m.hashFiles stdout sourceFilePatterns cfg
  else .err "cargo version command failed"

/-- Build the project on its channel, and hash its files. -/
def buildWasmFromFeatures (features : Option Text) (sourceFiles : List Text) :
    Outcome BuildFailure (PathBuf × FixedBytes 32) := do
  let toolchainChannel ← orReport (extractToolchainChannel m.toolchain m.toolchainFile)
  let rustStable := !containsText "nightly".toList toolchainChannel
  let cfg := featuresConfig rustStable features
  let wasm ← buildDylib m.build m.readDir cfg
  let projectHash ← orReport (m.hashProject sourceFiles cfg)
  return (wasm, projectHash)

/-- The WASM that is checked, with the hash of the project it was built from. -/
def buildWasm (cfg : CheckConfig) : Outcome BuildFailure (PathBuf × FixedBytes 32) :=
  match cfg.wasmFile with
  | some wasm => .ok (wasm, filled 32 0)
  | none => m.buildWasmFromFeatures cfg.commonCfg.features cfg.commonCfg.sourceFilesForProjectHash

/-- The code of a WASM file that was built. -/
def compressBuilt (built : PathBuf × FixedBytes 32) : Outcome BuildFailure Bytes := do
  let (_, code) ← orReport (.wrapErr "failed to compress WASM"
    (compressWasm m.build.libs built.1 (m.build.read built.1) built.2))
  return code

/-- The code of the contract that is checked. -/
def compile (cfg : CheckConfig) : Outcome BuildFailure Bytes := do
  let built ← wrapReport "failed to build wasm" (m.buildWasm cfg)
  m.compressBuilt built

end Machine

/-- However the threads that read and hash the files interleave, they end with this hash. -/
theorem hashFiles_eq_of_run {m : Machine} {version : Bytes} {patterns : List Text}
    {cfg : BuildConfig} {paths : List PathBuf} {s : Feed String Bytes}
    {result : Except String (FixedBytes 32)}
    (hpaths : hashedPaths m.glob m.project patterns = .ok paths)
    (hrun : Hashes (paths.map (sourceFile m.openFile)) s)
    (hresult : hashFiles m.keccak256 version cfg s = some result) :
    m.hashFiles version patterns cfg = .ofExcept result := by
  obtain ⟨r, hr, rfl⟩ := Option.map_eq_some_iff.1 hresult
  rw [Machine.hashFiles, hpaths, Outcome.ok_bind, Feed.result_eq hrun hr]
  rcases r with e | ⟨⟩ <;> rfl

/-! ## The same project on two machines -/

variable {m m' : Machine} {features : Option Text} {patterns : List Text} {cfg cfg' : CheckConfig}
  {code : Bytes}

/-- The same files, listed in any order, and the same tools. -/
structure SameProject (m m' : Machine) : Prop where
  toolchain : m.toolchain = m'.toolchain
  toolchainFile : m.toolchainFile = m'.toolchainFile
  glob : m.glob = m'.glob
  project : m.project.Reordered m'.project
  openFile : m.openFile = m'.openFile
  cargoVersion : m.cargoVersion = m'.cargoVersion
  keccak256 : m.keccak256 = m'.keccak256
  libs : m.build.libs = m'.build.libs

/-- The configuration that is built, on the channel of the project. -/
def Builds (m : Machine) (features : Option Text) (cfg : BuildConfig) : Prop :=
  ∃ channel, extractToolchainChannel m.toolchain m.toolchainFile = .ok channel ∧
    cfg = featuresConfig (!containsText "nightly".toList channel) features

/-- `cargo` builds an artifact with these contents, and no other file is taken for it. -/
def BuildsArtifact (m : Machine) (features : Option Text) (contents : Bytes) : Prop :=
  ∀ cfg, Builds m features cfg → ∃ cwd name entries,
    BuiltCrate m.build m.readDir cfg cwd name entries ∧ OnlyArtifact name entries ∧
    HasArtifact name entries ∧
    m.build.read (Path.join (releasePath cwd) (utf8 (artifactName name))) = .ok contents

/-- Reading the directories in another order finds the same hash. -/
theorem hashProject_eq_ok_of_same (h : SameProject m m') {cfg : BuildConfig}
    {projectHash : FixedBytes 32} (hhash : m.hashProject patterns cfg = .ok projectHash) :
    m'.hashProject patterns cfg = .ok projectHash := by
  obtain ⟨⟨success, stdout⟩, hversion, hhash⟩ := Outcome.bind_eq_ok.1 hhash
  rw [h.cargoVersion] at hversion
  refine Outcome.bind_eq_ok.2 ⟨(success, stdout), hversion, ?_⟩
  rcases success
  · cases hhash
  · obtain ⟨paths, hpaths, hhash⟩ := Outcome.bind_eq_ok.1 hhash
    rw [h.glob] at hpaths
    refine Outcome.bind_eq_ok.2 ⟨paths, (hashedPaths_of_reordered h.project).1 hpaths, ?_⟩
    rw [h.openFile, h.keccak256] at hhash
    exact hhash

/-- Where the file is does not count for what it is compressed to. -/
theorem compressWasm_eq_ok_of_path {libs : WasmLibs} {path : PathBuf} (path' : PathBuf)
    {file : Except String Bytes} {projectHash : FixedBytes 32} {out : Bytes × Bytes}
    (h : compressWasm libs path file projectHash = .ok out) :
    compressWasm libs path' file projectHash = .ok out := by
  obtain ⟨wasm, hread, h⟩ := Outcome.bind_eq_ok.1 h
  exact Outcome.bind_eq_ok.2
    ⟨wasm, Outcome.wrapErr_eq_ok.2 (Outcome.wrapErr_eq_ok.1 hread), h⟩

/-- The build finds the artifact, if it can be compressed. -/
theorem buildDylib_eq_ok {cfg : BuildConfig} {cwd : PathBuf} {name : Text}
    {entries : List Entry} {contents : Bytes} {path : PathBuf}
    (hbuilt : BuiltCrate m.build m.readDir cfg cwd name entries)
    (honly : OnlyArtifact name entries) (hhas : HasArtifact name entries)
    (hread : m.build.read (Path.join (releasePath cwd) (utf8 (artifactName name))) =
      .ok contents) :
    buildDylib m.build m.readDir cfg = .ok path ↔
      path = Path.join (releasePath cwd) (utf8 (artifactName name)) ∧
        (compressWasm m.build.libs [] (.ok contents) (filled 32 0)).IsOk := by
  rw [buildDylib, findArtifact_eq hbuilt honly, exactArtifact, if_pos hhas, Outcome.ok_bind,
    compressArtifact, hread]
  refine ⟨fun h => ?_, fun h => ?_⟩
  · obtain ⟨out, hout, h⟩ := Outcome.bind_eq_ok.1 h
    have hcompress := Outcome.wrapErr_eq_ok.1 (orReport_eq_ok.1 hout)
    exact ⟨(Outcome.ok.inj h).symm, out, compressWasm_eq_ok_of_path [] hcompress⟩
  · obtain ⟨rfl, out, hout⟩ := h
    refine Outcome.bind_eq_ok.2 ⟨out, ?_, rfl⟩
    exact orReport_eq_ok.2 (Outcome.wrapErr_eq_ok.2 (compressWasm_eq_ok_of_path _ hout))

/-- What is compiled is the artifact, compressed with the hash of the files. -/
theorem compile_eq_ok {contents : Bytes} (hfile : cfg.wasmFile = none)
    (hbuilds : BuildsArtifact m cfg.commonCfg.features contents) :
    m.compile cfg = .ok code ↔ ∃ build projectHash wasm, Builds m cfg.commonCfg.features build ∧
      m.hashProject cfg.commonCfg.sourceFilesForProjectHash build = .ok projectHash ∧
      (compressWasm m.build.libs [] (.ok contents) (filled 32 0)).IsOk ∧
      compressWasm m.build.libs [] (.ok contents) projectHash = .ok (wasm, code) := by
  simp only [Machine.compile, Outcome.bind_eq_ok, wrapReport_eq_ok, Machine.buildWasm, hfile,
    Machine.buildWasmFromFeatures, orReport_eq_ok, Machine.compressBuilt, Outcome.wrapErr_eq_ok,
    Outcome.pure_eq, Outcome.ok.injEq]
  refine ⟨fun h => ?_, fun h => ?_⟩
  · obtain ⟨_, ⟨channel, hchannel, path, hpath, projectHash, hhash, rfl⟩, ⟨wasm, code'⟩,
      hcompress, rfl⟩ := h
    have hbuild : Builds m cfg.commonCfg.features _ := ⟨channel, hchannel, rfl⟩
    obtain ⟨cwd, name, entries, hbuilt, honly, hhas, hread⟩ := hbuilds _ hbuild
    obtain ⟨rfl, hzero⟩ := (buildDylib_eq_ok hbuilt honly hhas hread).1 hpath
    rw [hread] at hcompress
    exact ⟨_, projectHash, wasm, hbuild, hhash, hzero, compressWasm_eq_ok_of_path [] hcompress⟩
  · obtain ⟨build, projectHash, wasm, hbuild, hhash, hzero, hcompress⟩ := h
    obtain ⟨cwd, name, entries, hbuilt, honly, hhas, hread⟩ := hbuilds _ hbuild
    obtain ⟨channel, hchannel, rfl⟩ := hbuild
    have hpath := (buildDylib_eq_ok hbuilt honly hhas hread).2 ⟨rfl, hzero⟩
    refine ⟨_, ⟨channel, hchannel, _, hpath, projectHash, hhash, rfl⟩, (wasm, code), ?_, rfl⟩
    rw [hread]
    exact compressWasm_eq_ok_of_path _ hcompress

/-- The same project is compiled to the same code, wherever it is. -/
theorem compile_eq_ok_of_same {contents : Bytes} (h : SameProject m m')
    (hcommon : cfg.commonCfg.features = cfg'.commonCfg.features ∧
      cfg.commonCfg.sourceFilesForProjectHash = cfg'.commonCfg.sourceFilesForProjectHash)
    (hfile : cfg.wasmFile = none) (hfile' : cfg'.wasmFile = none)
    (hbuilds : BuildsArtifact m cfg.commonCfg.features contents)
    (hbuilds' : BuildsArtifact m' cfg'.commonCfg.features contents)
    (hcompile : m.compile cfg = .ok code) : m'.compile cfg' = .ok code := by
  obtain ⟨build, projectHash, wasm, hbuild, hhash, hzero, hcompress⟩ :=
    (compile_eq_ok hfile hbuilds).1 hcompile
  rw [h.libs] at hzero hcompress
  rw [hcommon.1] at hbuild
  rw [hcommon.2] at hhash
  refine (compile_eq_ok hfile' hbuilds').2
    ⟨build, projectHash, wasm, ?_, hashProject_eq_ok_of_same h hhash, hzero, hcompress⟩
  obtain ⟨channel, hchannel, hbuild⟩ := hbuild
  rw [h.toolchain, h.toolchainFile] at hchannel
  exact ⟨channel, hchannel, hbuild⟩

/-- The hash does not change what a valid module is compressed to. -/
theorem compressWasm_hash_irrelevant {libs : WasmLibs} {path : PathBuf} {wasm : Bytes}
    (hvalid : libs.Valid wasm) (projectHash projectHash' : FixedBytes 32) :
    compressWasm libs path (.ok wasm) projectHash =
      compressWasm libs path (.ok wasm) projectHash' := by
  obtain ⟨text, parsed, sections, hprint, hparse, hmodule, h⟩ :=
    compressWasm_of_valid hvalid path projectHash
  obtain ⟨text', parsed', sections', hprint', hparse', hmodule', h'⟩ :=
    compressWasm_of_valid hvalid path projectHash'
  obtain rfl := Except.ok.inj (hprint.symm.trans hprint')
  obtain rfl := Except.ok.inj (hparse.symm.trans hparse')
  obtain rfl := hmodule.unique hmodule'
  rw [h, h']

/-- Projects with the same valid artifact are compiled to the same code, whatever files they
have and whichever of them are hashed. -/
theorem compile_eq_of_valid {contents code' : Bytes} (hlibs : m.build.libs = m'.build.libs)
    (hvalid : m.build.libs.Valid contents) (hfile : cfg.wasmFile = none)
    (hfile' : cfg'.wasmFile = none)
    (hbuilds : BuildsArtifact m cfg.commonCfg.features contents)
    (hbuilds' : BuildsArtifact m' cfg'.commonCfg.features contents)
    (hcompile : m.compile cfg = .ok code) (hcompile' : m'.compile cfg' = .ok code') :
    code = code' := by
  obtain ⟨_, projectHash, wasm, -, -, -, hcompress⟩ := (compile_eq_ok hfile hbuilds).1 hcompile
  obtain ⟨_, projectHash', wasm', -, -, -, hcompress'⟩ :=
    (compile_eq_ok hfile' hbuilds').1 hcompile'
  rw [compressWasm_hash_irrelevant hvalid projectHash projectHash', hlibs, hcompress'] at hcompress
  exact (Prod.mk.inj (Outcome.ok.inj hcompress)).2.symm

/-! ## Checking, deploying and verifying it -/

/-- How a command ends that does not return a value. -/
def failure {α : Type} : Outcome BuildFailure α → Except String α
  | .ok a => .ok a
  | .err (.report e) => .error e
  | .err (.noWasmFound path) =>
    .error ("could not find WASM in release dir (" ++ String.ofList (fromUtf8Lossy path) ++ ").")
  | .err (.exit status) => .error s!"exit status: {status}"
  | .panic e => .error e

/-- The check of a contract that is built on the machine. -/
def Machine.checkEnv (m : Machine) (activate : ActivateEnv)
    (contractExists : Bytes → Except String Bool) : CheckEnv :=
  { activate with compile := fun cfg => failure (m.compile cfg), contractExists }

/-- What is checked is the project on the machine, in some run. -/
def ChecksOn (m : Machine) (check : CheckConfig → Except String ContractCheck)
    (cfg : CheckConfig) : Prop :=
  ∃ activate contractExists log,
    Runs (CargoStylus.check (m.checkEnv activate contractExists) cfg) log (.ofExcept (check cfg))

theorem failure_eq_ok {α : Type} {x : Outcome BuildFailure α} {a : α} :
    failure x = .ok a ↔ x = .ok a := by
  rcases x with a' | (e | path | status) | e <;> simp [failure]

theorem code_checkedContract (code : Bytes) (opts : DataFeeOpts) (quoted : Option U256) :
    (checkedContract code opts quoted).code = code := by
  cases quoted <;> rfl

/-- The code that is checked is what the machine compiles. -/
theorem ChecksOn.compile {check : CheckConfig → Except String ContractCheck}
    {contract : ContractCheck} (h : ChecksOn m check cfg) (hcheck : check cfg = .ok contract) :
    m.compile cfg = .ok contract.code := by
  obtain ⟨activate, contractExists, log, hrun⟩ := h
  rw [hcheck] at hrun
  obtain ⟨code, hcompile, -, rfl⟩ := (wp_iff_runs.1 check_spec log _ hrun).2 contract rfl
  rw [code_checkedContract]
  exact failure_eq_ok.1 hcompile

section

variable {Param Value : Type} {env : DeployEnv Param Value} {deployCfg : DeployConfig}
  {venv : Env Param Value} {vcfg : VerifyConfig} {log : RpcLog} {o : Outcome String Unit}
  {tx : TransactionRequest} {txHash : B256} {found : Transaction} {contract : ContractCheck}

/-- Without `--wasm-file` the constructor is the one that the local project exports. -/
theorem getConstructorSignature_of_find {constructor : Constructor Param}
    (hfile : deployCfg.checkConfig.wasmFile = none)
    (hfind : findConstructor env deployCfg = .ok (some constructor)) :
    getConstructorSignature env.abi.parse env.output = .ok (some constructor) := by
  rw [findConstructor, hfile] at hfind
  simp only [Option.isSome_none, Bool.false_eq_true, if_false] at hfind
  split_ifs at hfind
  exact Outcome.ofExcept_eq_ok.1 hfind

/-- A project is deployed from `m` without `--wasm-file`, and a project on `m'` is verified
against the transaction that was sent. If there is a constructor, the project on `m'` exports
one that takes the same types. -/
structure DeployedThenVerified (m m' : Machine) (env : DeployEnv Param Value)
    (deployCfg : DeployConfig) (venv : Env Param Value) (vcfg : VerifyConfig) : Prop where
  wasmFile : deployCfg.checkConfig.wasmFile = none
  checks : ChecksOn m env.check deployCfg.checkConfig
  checks' : ChecksOn m' venv.check (verifyCheckConfig vcfg)
  abi : venv.abi = env.abi
  exports : ∀ constructor, findConstructor env deployCfg = .ok (some constructor) →
    ExportsTypesOf venv.abi venv.runExport constructor
  fetched : ∃ log o tx txHash found contract, Runs (deploy env deployCfg) log o ∧
    (accepted log).head? = some (tx, txHash) ∧ Keeps venv log ∧
    decode0x venv vcfg.deploymentTx = .ok txHash.1 ∧
    fetchDeployment venv vcfg = .ok (found, contract)

/-- It is verified exactly if both projects are compiled to the same code. -/
theorem DeployedThenVerified.printsVerified_iff
    (h : DeployedThenVerified m m' env deployCfg venv vcfg) :
    PrintsVerified (verify venv vcfg) ↔ ∃ code, m.compile deployCfg.checkConfig = .ok code ∧
      m'.compile (verifyCheckConfig vcfg) = .ok code := by
  obtain ⟨log, o, tx, txHash, found, contract, hrun, hfirst, hkeeps, hhash, hfetch⟩ := h.fetched
  obtain ⟨deployed, hcheck, hdeployed⟩ :=
    deployed_of_plan (wp_iff_runs.1 deploy_sends log o hrun) hfirst
  obtain rfl := found_eq_mined hfirst hkeeps hhash hfetch
  obtain ⟨-, -, -, -, hchecked⟩ := fetchDeployment_eq_ok hfetch
  have hcompile := h.checks.compile hcheck
  have hcompile' := h.checks'.compile hchecked
  rw [hdeployed.printsVerified_iff h.abi h.exports hfetch]
  refine ⟨fun hcode => ⟨deployed.code, hcompile, hcode ▸ hcompile'⟩, fun hcode => ?_⟩
  obtain ⟨code, hcode, hcode'⟩ := hcode
  obtain rfl := Outcome.ok.inj (hcompile.symm.trans hcode)
  exact Outcome.ok.inj (hcompile'.symm.trans hcode')

/-- Both projects are compiled. -/
theorem DeployedThenVerified.compiles (h : DeployedThenVerified m m' env deployCfg venv vcfg) :
    ∃ code code', m.compile deployCfg.checkConfig = .ok code ∧
      m'.compile (verifyCheckConfig vcfg) = .ok code' := by
  obtain ⟨log, o, tx, txHash, found, contract, hrun, hfirst, -, -, hfetch⟩ := h.fetched
  obtain ⟨deployed, hcheck, -⟩ :=
    deployed_of_plan (wp_iff_runs.1 deploy_sends log o hrun) hfirst
  obtain ⟨-, -, -, -, hchecked⟩ := fetchDeployment_eq_ok hfetch
  exact ⟨_, _, h.checks.compile hcheck, h.checks'.compile hchecked⟩

/-- The same, where both projects print the same when they are run with `export-abi`. -/
structure DeployedThenFetched (m m' : Machine) (env : DeployEnv Param Value)
    (deployCfg : DeployConfig) (venv : Env Param Value) (vcfg : VerifyConfig) : Prop where
  wasmFile : deployCfg.checkConfig.wasmFile = none
  checks : ChecksOn m env.check deployCfg.checkConfig
  checks' : ChecksOn m' venv.check (verifyCheckConfig vcfg)
  abi : venv.abi = env.abi
  output : venv.runExport = env.output
  fetched : ∃ log o tx txHash found contract, Runs (deploy env deployCfg) log o ∧
    (accepted log).head? = some (tx, txHash) ∧ Keeps venv log ∧
    decode0x venv vcfg.deploymentTx = .ok txHash.1 ∧
    fetchDeployment venv vcfg = .ok (found, contract)

theorem DeployedThenFetched.toVerified (h : DeployedThenFetched m m' env deployCfg venv vcfg) :
    DeployedThenVerified m m' env deployCfg venv vcfg where
  wasmFile := h.wasmFile
  checks := h.checks
  checks' := h.checks'
  abi := h.abi
  exports := by
    intro constructor hfind
    rw [h.abi, h.output]
    exact exportsTypesOf_self (getConstructorSignature_of_find h.wasmFile hfind)
  fetched := h.fetched

/-- What is deployed from one machine is verified on another that has the same project. -/
theorem verified_elsewhere {contents : Bytes}
    (h : DeployedThenFetched m m' env deployCfg venv vcfg) (hsame : SameProject m m')
    (hcommon : deployCfg.checkConfig.commonCfg.features = vcfg.commonCfg.features ∧
      deployCfg.checkConfig.commonCfg.sourceFilesForProjectHash =
        vcfg.commonCfg.sourceFilesForProjectHash)
    (hbuilds : BuildsArtifact m deployCfg.checkConfig.commonCfg.features contents)
    (hbuilds' : BuildsArtifact m' vcfg.commonCfg.features contents) :
    PrintsVerified (verify venv vcfg) := by
  obtain ⟨code, -, hcompile, -⟩ := h.toVerified.compiles
  exact h.toVerified.printsVerified_iff.2 ⟨code, hcompile,
    compile_eq_ok_of_same hsame hcommon h.wasmFile rfl hbuilds hbuilds' hcompile⟩

/-! ### A project on two machines -/

/-- What `cargo --version` prints. -/
def fooVersion : Bytes :=
  utf8 "cargo 1.80.0 (376290515 2024-07-16)\n".toList

/-- A source file. -/
def plainSource : Text :=
  "pub fn f() {}\n".toList

/-- The same source with a comment, which is not in the artifact. -/
def commentedSource : Text :=
  "// f\npub fn f() {}\n".toList

/-- What the files of the project contain, with this source file. -/
def fooContents (source : Text) (path : PathBuf) : Bytes :=
  if path = toolchainFilePath then utf8 fixedText else utf8 source

/-- What is hashed of the project. -/
def fooStream (source : Text) : Bytes :=
  fooVersion ++ [1] ++ [toolchainFilePath, Path.dotPath [srcName, libName]].flatMap fun path =>
    fileRecord (path, fooContents source path)

theorem length_plainHash : ([0x12, 0xfc, 0x75, 0x2e, 0xf0, 0xc4, 0x24, 0xc2, 0xde, 0x32, 0x23, 0x72,
    0x83, 0x61, 0xf1, 0xe2, 0x51, 0x05, 0x00, 0xe7, 0x21, 0x00, 0x22, 0x50, 0xca, 0xc7, 0xba, 0xb0,
    0x2c, 0x52, 0xe0, 0x1d] : Bytes).length = 32 :=
  rfl

theorem length_commentedHash : ([0x55, 0xff, 0x0a, 0x62, 0x8a, 0xf8, 0xf4, 0x28, 0x99, 0x8a, 0xd8,
    0x36, 0x3e, 0x45, 0x96, 0x13, 0x66, 0xaa, 0x42, 0xae, 0xcf, 0x6d, 0xbe, 0x7d, 0x17, 0xdd, 0x8d,
    0x19, 0xbf, 0x53, 0xe0, 0x58] : Bytes).length = 32 :=
  rfl

/-- Keccak of what is hashed with either source. Other data is taken as a number. -/
def fooKeccak256 (data : Bytes) : FixedBytes 32 :=
  if data = fooStream plainSource then ⟨_, length_plainHash⟩
  else if data = fooStream commentedSource then ⟨_, length_commentedHash⟩
  else ⟨be 32 (BitVec.ofNat 256 (ofBe data)), length_be 32 _⟩

/-- A machine with a project that builds, with this source file. -/
def sourceMachine (source : Text) : Machine where
  build := fooEnv
  readDir _ := .ok [.dir targetName [], .file fooWasm]
  toolchain := fixedLibs
  toolchainFile := .ok fixedText
  glob := srcGlob
  project := libProject
  openFile path := .ok ⟨.ok (BitVec.ofNat 64 (fooContents source path).length),
    .ok (fooContents source path)⟩
  cargoVersion := .ok (true, fooVersion)
  keccak256 := fooKeccak256

/-- The machine that the project is deployed from. -/
def fooMachine : Machine :=
  sourceMachine plainSource

/-- The same files, listed in another order. -/
def fooMachine' : Machine :=
  { fooMachine with project := libProject' }

theorem sameProject_foo : SameProject fooMachine fooMachine' :=
  ⟨rfl, rfl, rfl, libProject_reordered, rfl, rfl, rfl, rfl⟩

theorem builds_foo {source : Text} {cfg : BuildConfig}
    (h : Builds (sourceMachine source) none cfg) : cfg = BuildConfig.new true := by
  obtain ⟨channel, hchannel, rfl⟩ := h
  obtain rfl := Outcome.ok.inj (hchannel.symm.trans extractToolchainChannel_fixedText)
  decide

theorem fooWasm_name : fooWasm.1 = utf8 (artifactName "foo".toList) :=
  rfl

theorem buildsArtifact_foo (source : Text) :
    BuildsArtifact (sourceMachine source) none memoryModule := by
  intro cfg hcfg
  obtain rfl := builds_foo hcfg
  refine ⟨_, _, _, builtCrate_foo _, ?_, ⟨fooWasm, List.mem_singleton.2 rfl, fooWasm_name⟩, rfl⟩
  intro file hfile _
  rw [List.mem_singleton.1 hfile, fooWasm_name]

/-- The code of the project. -/
def fooCode : Bytes :=
  [0xef, 0xf0, 0x00, 0x00, 0x0b, 0x06, 0x80] ++ memoryModule ++ [0x03]

theorem compressWasm_foo (projectHash : FixedBytes 32) :
    compressWasm sectionLibs [] (.ok memoryModule) projectHash = .ok (memoryModule, fooCode) := by
  rw [compressWasm_hash_irrelevant sectionLibs_valid_memoryModule projectHash (filled 32 0)]
  rfl

theorem isSelected_lib : isSelected [] (Path.dotPath [srcName, libName]) = true := by
  have hname : Path.fileName (Path.dotPath [srcName, libName]) = some libName.1 :=
    Path.fileName_dotPath [srcName] libName
  have hdefault : isDefault libName.1 = true := by
    rw [isDefault, libName, fromUtf8Lossy_utf8]
    decide
  rw [isSelected, hname]
  exact hdefault

/-- The toolchain file is no file that is hashed by default. -/
theorem isSelected_toolchainFile : isSelected [] (Path.dotPath [toolchainFileName]) = false := by
  have hname : Path.fileName (Path.dotPath [toolchainFileName]) = some toolchainFileName.1 :=
    Path.fileName_dotPath [] toolchainFileName
  have hdefault : isDefault toolchainFileName.1 = false := by
    rw [isDefault, toolchainFileName, fromUtf8Lossy_utf8]
    decide
  rw [isSelected, hname]
  exact hdefault

theorem hashedPaths_foo : hashedPaths srcGlob libProject [] =
    .ok [toolchainFilePath, Path.dotPath [srcName, libName]] := by
  have hskip : ¬Skipped srcName := by decide
  have hfails : ¬ListingFails [.file toolchainFileName, .dir srcName [.file libName]] := by
    rw [← none_mem_foundIn]
    simp [foundIn, Entry.found, hskip]
  have hnames : foundNames [.file toolchainFileName, .dir srcName [.file libName]] =
      [[toolchainFileName], [srcName, libName]] := by
    simp [foundNames, foundIn, Entry.found, hskip, List.reduceOption]
  have hselected : selectedPaths (isSelected []) [[toolchainFileName], [srcName, libName]] =
      [Path.dotPath [srcName, libName]] := by
    simp [selectedPaths, isSelected_lib, isSelected_toolchainFile]
  have hsorted : Path.sortPaths [toolchainFilePath, Path.dotPath [srcName, libName]] =
      [toolchainFilePath, Path.dotPath [srcName, libName]] :=
    List.mergeSort_of_pairwise (by decide)
  have hpaths : ∀ a ∈ [Path.dotPath [srcName, libName], toolchainFilePath],
      ∀ b ∈ [Path.dotPath [srcName, libName], toolchainFilePath],
        Path.components a = Path.components b → a = b := by decide
  refine hashedPaths_eq_ok.2 ⟨rfl, _, rfl, hfails, [], rfl, ?_⟩
  rw [hnames, hselected]
  exact hsorted.symm.trans (Path.sortPaths_eq_of_perm (.swap _ _ _) hpaths).symm

theorem sourceFile_foo (source : Text) (path : PathBuf) :
    sourceFile (sourceMachine source).openFile path =
      plainFile (path, fooContents source path) :=
  rfl

theorem fits_foo {source : Text} (hfits : (utf8 source).length < 2 ^ 64) {path : PathBuf}
    (hpath : path ∈ [toolchainFilePath, Path.dotPath [srcName, libName]]) :
    Fits (path, fooContents source path) := by
  have hlengths : ∀ path ∈ [toolchainFilePath, Path.dotPath [srcName, libName]],
      path.length < 100 := by decide
  have htext : (utf8 fixedText).length < 100 := by decide
  refine ⟨(hlengths path hpath).trans (by norm_num), ?_⟩
  unfold fooContents
  split_ifs
  · exact htext.trans (by norm_num)
  · exact hfits

theorem hashProject_foo {source : Text} (hfits : (utf8 source).length < 2 ^ 64) :
    (sourceMachine source).hashProject [] (BuildConfig.new true) =
      .ok (fooKeccak256 (fooStream source)) := by
  have hpreimages : ([toolchainFilePath, Path.dotPath [srcName, libName]].map
      (sourceFile (sourceMachine source).openFile)).map readFilePreimage =
      ([toolchainFilePath, Path.dotPath [srcName, libName]].map fun path =>
        fileRecord (path, fooContents source path)).map .ok := by
    rw [List.map_map, List.map_map]
    refine List.map_congr_left fun path hpath => ?_
    rw [Function.comp_apply, sourceFile_foo]
    exact readFilePreimage_plainFile (fits_foo hfits hpath)
  have hstream : fooVersion ++ [(BuildConfig.new true).optLevel.byte] ++
      ([toolchainFilePath, Path.dotPath [srcName, libName]].map fun path =>
        fileRecord (path, fooContents source path)).flatten = fooStream source :=
    rfl
  have hhash : (sourceMachine source).hashFiles fooVersion [] (BuildConfig.new true) =
      .ok (fooKeccak256 (fooStream source)) := by
    refine Outcome.bind_eq_ok.2 ⟨_, hashedPaths_foo, ?_⟩
    rw [hpreimages, Feed.drain_map_ok, ← hstream]
    rfl
  exact Outcome.bind_eq_ok.2 ⟨(true, fooVersion), rfl, hhash⟩

theorem compile_foo {source : Text} (hfits : (utf8 source).length < 2 ^ 64) :
    (sourceMachine source).compile (verifyCheckConfig (verifyConfig none)) = .ok fooCode :=
  (compile_eq_ok rfl (buildsArtifact_foo source)).2 ⟨_, _, memoryModule,
    ⟨_, extractToolchainChannel_fixedText, rfl⟩, hashProject_foo hfits, ⟨_, compressWasm_foo _⟩,
    compressWasm_foo _⟩

/-- What a deployment of the project reads. There is no constructor. -/
def fooDeployEnv : DeployEnv NamedParam U256 :=
  { readyEnv with check := fun _ => .ok (.active fooCode), output := .ok [] }

/-- A deployment that does not activate. -/
def fooDeployConfig : DeployConfig :=
  { noActivateConfig with checkConfig := verifyCheckConfig (verifyConfig none) }

/-- A node that has the creation, and the project on the other machine. -/
def fooVerifyEnv : Env NamedParam U256 :=
  { worldOf { recipient := none, input := contractDeploymentCalldata fooCode } fooCode with
    runExport := .ok [] }

theorem runs_check_active {env : CheckEnv} (hendpoint : cfg.commonCfg.endpoint ≠ oldTestnet)
    (hcompile : env.compile cfg = .ok code) (hactive : env.contractExists code = .ok true) :
    Runs (CargoStylus.check env cfg) [⟨.connect cfg.commonCfg.endpoint, .ok ()⟩]
      (.ok (.active code)) := by
  rw [check_of_endpoint hendpoint]
  exact runs_lift_bind (Outcome.ofExcept_eq_ok.2 hcompile) (runs_ask (.connect _) ()
    (runs_lift_bind (Outcome.ofExcept_eq_ok.2 hactive) (.done _)))

theorem checksOn_foo (hendpoint : cfg.commonCfg.endpoint ≠ oldTestnet)
    (h : m.compile cfg = .ok fooCode) : ChecksOn m (fun _ => .ok (.active fooCode)) cfg :=
  ⟨keystoreEnv, fun _ => .ok true, _, runs_check_active hendpoint (failure_eq_ok.2 h) rfl⟩

theorem keeps_foo : Keeps fooVerifyEnv
    ((answered calmNode (deploy fooDeployEnv fooDeployConfig)).1.map
      fun r => ⟨r, .ok (calmNode r)⟩) := by
  intro tx txHash h
  obtain ⟨rfl, -⟩ := Prod.mk.inj (List.mem_singleton.1 h)
  rfl

theorem compile_plainSource :
    fooMachine.compile (verifyCheckConfig (verifyConfig none)) = .ok fooCode :=
  compile_foo (by decide)

theorem deployedThenFetched_foo : DeployedThenFetched fooMachine fooMachine' fooDeployEnv
    fooDeployConfig fooVerifyEnv (verifyConfig none) where
  wasmFile := rfl
  checks := checksOn_foo (by decide) compile_plainSource
  checks' := checksOn_foo (by decide) (compile_eq_ok_of_same sameProject_foo ⟨rfl, rfl⟩ rfl rfl
    (buildsArtifact_foo _) (buildsArtifact_foo plainSource) compile_plainSource)
  abi := rfl
  output := rfl
  fetched := ⟨_, _, _, _, _, _, runs_answered calmNode _, rfl, keeps_foo, rfl, rfl⟩

theorem verified_elsewhere_foo : PrintsVerified (verify fooVerifyEnv (verifyConfig none)) :=
  verified_elsewhere deployedThenFetched_foo sameProject_foo ⟨rfl, rfl⟩
    (buildsArtifact_foo plainSource) (buildsArtifact_foo plainSource)

/-- What is deployed from one machine is verified on another that builds the same valid
artifact, whatever files the two projects have. -/
theorem verified_of_artifact {contents : Bytes}
    (h : DeployedThenVerified m m' env deployCfg venv vcfg)
    (hlibs : m.build.libs = m'.build.libs) (hvalid : m.build.libs.Valid contents)
    (hbuilds : BuildsArtifact m deployCfg.checkConfig.commonCfg.features contents)
    (hbuilds' : BuildsArtifact m' vcfg.commonCfg.features contents) :
    PrintsVerified (verify venv vcfg) := by
  obtain ⟨code, code', hcompile, hcompile'⟩ := h.compiles
  have hcode := compile_eq_of_valid hlibs hvalid h.wasmFile rfl hbuilds hbuilds' hcompile hcompile'
  exact h.printsVerified_iff.2 ⟨code, hcompile, hcode ▸ hcompile'⟩

/-- The other project has a comment more. -/
theorem deployedThenVerified_foo : DeployedThenVerified fooMachine (sourceMachine commentedSource)
    fooDeployEnv fooDeployConfig fooVerifyEnv (verifyConfig none) where
  wasmFile := rfl
  checks := checksOn_foo (by decide) compile_plainSource
  checks' := checksOn_foo (by decide) (compile_foo (by decide))
  abi := rfl
  exports := by rintro _ ⟨⟩
  fetched := ⟨_, _, _, _, _, _, runs_answered calmNode _, rfl, keeps_foo, rfl, rfl⟩

theorem verified_of_artifact_foo :
    PrintsVerified (verify fooVerifyEnv (verifyConfig none)) :=
  verified_of_artifact deployedThenVerified_foo rfl sectionLibs_valid_memoryModule
    (buildsArtifact_foo plainSource) (buildsArtifact_foo commentedSource)

/-! ## The init code that is printed -/

/-- The arguments of `cargo stylus get-initcode`. -/
structure GetInitcodeConfig where
  features : Option Text
  sourceFilesForProjectHash : List Text
  output : Option PathBuf

/-- Build and print initcode, or write it to a file. The value is its hex. -/
def getInitcode (m : Machine) (createFile : PathBuf → Except String Unit)
    (writeAll : PathBuf → Bytes → Except String Unit) (cfg : GetInitcodeConfig) :
    Outcome BuildFailure Text := do
  let built ← m.buildWasmFromFeatures cfg.features cfg.sourceFilesForProjectHash
  let code ← m.compressBuilt built
  let initcode := contractDeploymentCalldata code
  let hexInitcode := hexEncode initcode
  match cfg.output with
  | some path => do
    orReport (.wrapErr "failed to create output file" (.ofExcept (createFile path)))
    orReport (.ofExcept (writeAll path (utf8 hexInitcode)))
    return hexInitcode
  | none => return hexInitcode

theorem getInitcode_eq_ok {createFile : PathBuf → Except String Unit}
    {writeAll : PathBuf → Bytes → Except String Unit} {initCfg : GetInitcodeConfig} {text : Text}
    (h : getInitcode m createFile writeAll initCfg = .ok text) :
    ∃ built code, m.buildWasmFromFeatures initCfg.features initCfg.sourceFilesForProjectHash =
      .ok built ∧ m.compressBuilt built = .ok code ∧
      text = hexEncode (contractDeploymentCalldata code) := by
  obtain ⟨built, hbuilt, h⟩ := Outcome.bind_eq_ok.1 h
  obtain ⟨code, hcode, h⟩ := Outcome.bind_eq_ok.1 h
  refine ⟨built, code, hbuilt, hcode, ?_⟩
  rcases houtput : initCfg.output with _ | path
  · rw [houtput] at h
    exact (Outcome.ok.inj h).symm
  · rw [houtput] at h
    obtain ⟨_, -, h⟩ := Outcome.bind_eq_ok.1 h
    obtain ⟨_, -, h⟩ := Outcome.bind_eq_ok.1 h
    exact (Outcome.ok.inj h).symm

/-- What is printed is in hex the init code that a deployment of the same project sends, and
run as init code it returns the code that was deployed. -/
theorem getInitcode_sent {createFile : PathBuf → Except String Unit}
    {writeAll : PathBuf → Bytes → Except String Unit} {initCfg : GetInitcodeConfig} {text : Text}
    (h : getInitcode m createFile writeAll initCfg = .ok text)
    (hcommon : deployCfg.checkConfig.commonCfg.features = initCfg.features ∧
      deployCfg.checkConfig.commonCfg.sourceFilesForProjectHash =
        initCfg.sourceFilesForProjectHash)
    (hfile : deployCfg.checkConfig.wasmFile = none)
    (hchecks : ChecksOn m env.check deployCfg.checkConfig)
    (hrun : Runs (deploy env deployCfg) log o)
    (hfirst : (accepted log).head? = some (tx, txHash)) :
    ∃ initCode deployed, hexDecode text = some initCode ∧ Carries env.abi tx.mined initCode ∧
      env.check deployCfg.checkConfig = .ok deployed ∧
      (deployed.code.length < 2 ^ 64 → ∀ pcs halt,
        Evm.Executes initCode Evm.State.initial pcs halt ↔
          pcs = initPath ∧ halt = .returned deployed.code) := by
  obtain ⟨deployed, hcheck, hdeployed⟩ :=
    deployed_of_plan (wp_iff_runs.1 deploy_sends log o hrun) hfirst
  obtain ⟨built, code, hbuilt, hcode, rfl⟩ := getInitcode_eq_ok h
  have hcompile := hchecks.compile hcheck
  rw [Machine.compile, Machine.buildWasm, hfile, hcommon.1, hcommon.2] at hcompile
  obtain ⟨built', hbuilt', hcode'⟩ := Outcome.bind_eq_ok.1 hcompile
  obtain rfl := Outcome.ok.inj (hbuilt.symm.trans (wrapReport_eq_ok.1 hbuilt'))
  obtain rfl := Outcome.ok.inj (hcode.symm.trans hcode')
  exact ⟨_, deployed, hexDecode_hexEncode _, hdeployed.carries, hcheck,
    fun hlen => (executes_contractDeploymentCalldata _ hlen).iff_of_executes⟩

/-- `cargo stylus get-initcode`. -/
def fooInitcode : GetInitcodeConfig where
  features := none
  sourceFilesForProjectHash := []
  output := none

theorem getInitcode_foo : getInitcode fooMachine (fun _ => .ok ()) (fun _ _ => .ok ()) fooInitcode =
    .ok (hexEncode (contractDeploymentCalldata fooCode)) := by
  obtain ⟨built, hbuilt, hcode⟩ := Outcome.bind_eq_ok.1 compile_plainSource
  refine Outcome.bind_eq_ok.2 ⟨built, wrapReport_eq_ok.1 hbuilt, ?_⟩
  exact Outcome.bind_eq_ok.2 ⟨fooCode, hcode, rfl⟩

theorem getInitcode_sent_foo : ∃ initCode deployed,
    hexDecode (hexEncode (contractDeploymentCalldata fooCode)) = some initCode ∧
      Carries uintAbi
        ((createTx (filled 20 1) fooCode).withFee (some 0) 0).mined initCode ∧
      fooDeployEnv.check fooDeployConfig.checkConfig = .ok deployed ∧
      (deployed.code.length < 2 ^ 64 → ∀ pcs halt,
        Evm.Executes initCode Evm.State.initial pcs halt ↔
          pcs = initPath ∧ halt = .returned deployed.code) :=
  getInitcode_sent getInitcode_foo ⟨rfl, rfl⟩ rfl (checksOn_foo (by decide) compile_plainSource)
    (runs_answered calmNode (deploy fooDeployEnv fooDeployConfig)) rfl

end

end CargoStylus
