import CargoStylus.Agreement
import CargoStylus.Build
import CargoStylus.Guest
import CargoStylus.Provider
import CargoStylus.TraceNew

/-!
# Replaying a transaction

`cargo stylus replay` runs itself again in a debugger. There it fetches the trace of the
transaction, builds the contract as a shared library and runs its entry point, with the records
of the trace for its host I/Os.

The trace of a frame without EVM frames is read back as that frame (`parse_reportFrame`). So the
command prints what became of the transaction if the contract makes the run that was traced, and
only then (`replay_prints_iff`).

There has to be one shared library, and whether it was built now is not looked at
(`findSharedLibrary_eq_ok`). The trace of a simulated transaction is read back in the same way,
and is never taken for an activation (`simulate_reportFrame`).
-/

namespace CargoStylus

open Rust Json

/-! ## What a node reports of a frame -/

/-- What the node reports of a host I/O with this record. -/
def Hostio.info (h : Hostio TraceFrame) : HostioInfo :=
  ⟨h.kind.recordName, h.kind.args, h.kind.outs, h.startInk, h.endInk⟩

/-- The type of a frame, by the name of its record. -/
def frameType : String → String
  | "evm_call_contract" => "CALL"
  | "evm_delegate_call_contract" => "DELEGATECALL"
  | "evm_static_call_contract" => "STATICCALL"
  | "evm_create1" => "CREATE"
  | "evm_create2" => "CREATE2"
  | "evm_self_destruct" => "SELFDESTRUCT"
  | _ => ""

/-- The type of the frame that a host I/O enters. -/
def HostioKind.callType {F : Type} : HostioKind F → String
  | callContract .. => "CALL"
  | delegateCallContract .. => "DELEGATECALL"
  | staticCallContract .. => "STATICCALL"
  | evmCall name _ => frameType name
  | _ => ""

/-- The address of a frame, which every frame below the first has. -/
def TraceFrame.getTo (frame : TraceFrame) : Address :=
  frame.address.getD (filled 20 0)

mutual

/-- The events while a frame is traced whose records are these. -/
def reportFrame : TraceFrame → CallTree
  | .mk steps _ => reportSteps steps
termination_by structural f => f

/-- The events while these records are made. -/
def reportSteps : List (Hostio TraceFrame) → CallTree
  | [] => .nil
  | h :: hs => reportStep h (reportSteps hs)
termination_by structural hs => hs

/-- The events of one record, before the rest. -/
def reportStep : Hostio TraceFrame → CallTree → CallTree
  | ⟨kind, startInk, endInk⟩ =>
    reportKind kind ⟨kind.recordName, kind.args, kind.outs, startInk, endInk⟩
termination_by structural h => h

/-- The events of a record : a call enters the frame it records. -/
def reportKind : HostioKind TraceFrame → HostioInfo → CallTree → CallTree
  | .callContract _ _ _ _ _ _ frame, info, rest =>
    .call ⟨"CALL", frame.getTo⟩ (reportFrame frame) info rest
  | .delegateCallContract _ _ _ _ _ frame, info, rest =>
    .call ⟨"DELEGATECALL", frame.getTo⟩ (reportFrame frame) info rest
  | .staticCallContract _ _ _ _ _ frame, info, rest =>
    .call ⟨"STATICCALL", frame.getTo⟩ (reportFrame frame) info rest
  | .evmCall name frame, _, rest => .frame ⟨frameType name, frame.getTo⟩ (reportFrame frame) rest
  | _, info, rest => .hostio info rest
termination_by structural kind => kind

end

/-- No step of the frame, at any depth, is an EVM frame. -/
def TraceFrame.NoEvmCall : TraceFrame → Prop :=
  All fun kind => ∀ name f, kind ≠ .evmCall name f

theorem reportStep_eq {h : Hostio TraceFrame} (hevm : ∀ name f, h.kind ≠ .evmCall name f)
    (rest : CallTree) : reportStep h rest = match h.kind.frame? with
      | some f => .call ⟨h.kind.callType, f.getTo⟩ (reportFrame f) h.info rest
      | none => .hostio h.info rest := by
  obtain ⟨kind, startInk, endInk⟩ := h
  cases kind
  case evmCall name f => exact absurd rfl (hevm name f)
  all_goals rfl

theorem reportStep_of_none {h : Hostio TraceFrame} (hevm : ∀ name f, h.kind ≠ .evmCall name f)
    (hframe : h.kind.frame? = none) (rest : CallTree) :
    reportStep h rest = .hostio h.info rest := by
  rw [reportStep_eq hevm, hframe]

theorem reportStep_of_some {h : Hostio TraceFrame} (hevm : ∀ name f, h.kind ≠ .evmCall name f)
    {f : TraceFrame} (hframe : h.kind.frame? = some f) (rest : CallTree) :
    reportStep h rest = .call ⟨h.kind.callType, f.getTo⟩ (reportFrame f) h.info rest := by
  rw [reportStep_eq hevm, hframe]

theorem callName_callType {h : Hostio TraceFrame} (hevm : ∀ name f, h.kind ≠ .evmCall name f)
    (hframe : h.kind.frame?.isSome) : callName h.kind.callType = some h.info.name := by
  obtain ⟨kind, startInk, endInk⟩ := h
  cases kind
  case evmCall name f => exact absurd rfl (hevm name f)
  case callContract | delegateCallContract | staticCallContract => rfl
  all_goals cases hframe

theorem wellFormed_reportFrame (f : TraceFrame) (hevm : f.NoEvmCall) :
    (reportFrame f).WellFormed := by
  induction f using TraceFrame.induct with
  | step steps address ih =>
    rw [reportFrame]
    have hsteps : ∀ hs : List (Hostio TraceFrame), (∀ h ∈ hs, h ∈ steps) →
        (reportSteps hs).WellFormed := by
      intro hs hmem
      induction hs with
      | nil => trivial
      | cons h hs ihs =>
        rw [List.forall_mem_cons] at hmem
        have hrest := ihs hmem.2
        have hkind := hevm.kinds h hmem.1
        rw [reportSteps]
        rcases hframe : h.kind.frame? with _ | f
        · rw [reportStep_of_none hkind hframe]
          refine ⟨fun hnests => ?_, hrest⟩
          have hsome := (frame?_isSome hkind).2 hnests
          rw [hframe] at hsome
          cases hsome
        · rw [reportStep_of_some hkind hframe]
          have hname := callName_callType hkind (hframe ▸ rfl)
          exact ⟨hname, ih h hmem.1 f hframe (hevm.nested h hmem.1 f hframe), hrest⟩
    exact hsteps steps fun _ h => h

/-- The record of a step. -/
def reportedValue (h : Hostio TraceFrame) : Value :=
  match h.kind.frame? with
  | some f => .object (h.info.fields ++
      (CallFrame.mk h.kind.callType f.getTo).fields (reportFrame f).records)
  | none => .object h.info.fields

theorem records_reportSteps : ∀ hs : List (Hostio TraceFrame),
    (∀ h ∈ hs, ∀ name f, h.kind ≠ .evmCall name f) →
    (reportSteps hs).records = hs.map reportedValue
  | [], _ => rfl
  | h :: hs, hevm => by
    rw [List.forall_mem_cons] at hevm
    have hrest := records_reportSteps hs hevm.2
    rw [reportSteps, List.map_cons, reportedValue, ← hrest]
    rcases hframe : h.kind.frame? with _ | f
    · rw [reportStep_of_none hevm.1 hframe]
      rfl
    · rw [reportStep_of_some hevm.1 hframe]
      rfl

theorem Hostio.of_info {h : Hostio TraceFrame} (hname : h.kind.NameOk)
    (hlog : ∀ text, h.kind ≠ .consoleLog text) : h.Of h.info :=
  ⟨⟨rfl, hname, argsFrom_args hlog, outsFrom_outs _⟩, rfl, rfl⟩

/-- What is reported of a frame is parsed as its steps. -/
theorem parse_records (f : TraceFrame) (hf : f.Encodable) (hevm : f.NoEvmCall) :
    List.Forall₂ (fun v s => parseStep v = .ok s) (reportFrame f).records f.steps := by
  induction f using TraceFrame.induct with
  | step steps address ih =>
    rw [reportFrame, records_reportSteps steps hevm.kinds, List.forall₂_map_left_iff,
      TraceFrame.steps_mk, List.forall₂_same]
    intro h hmem
    obtain ⟨hlog, hname, haddress⟩ := hf.kinds h hmem
    have hinfo := Hostio.of_info hname hlog
    rw [reportedValue]
    rcases hframe : h.kind.frame? with _ | f
    · exact parseStep_hostio hinfo hframe
    · refine parseStep_call.2 ⟨hinfo, fun g hg => ?_⟩
      obtain rfl := Option.some.inj (hframe.symm.trans hg)
      obtain ⟨a, ha⟩ := Option.isSome_iff_exists.1 (haddress f hframe)
      refine ⟨?_, ih h hmem f hframe (hf.nested h hmem f hframe) (hevm.nested h hmem f hframe)⟩
      rw [TraceFrame.getTo, ha]
      rfl

/-- The tracer ends with the records of the frame. -/
theorem result_reportFrame {f : TraceFrame} (hevm : f.NoEvmCall) :
    (Tracer.init.run (reportFrame f).events).bind Tracer.result =
      some (.array (reportFrame f).records) := by
  obtain ⟨t, hrun, -, hresult⟩ := run_init _ (wellFormed_reportFrame f hevm)
  rw [hrun, Option.bind_some, hresult]

/-- **The trace of a frame is read back as the frame**, from the events that are reported of
it. -/
theorem parse_reportFrame {f : TraceFrame} (hf : f.Encodable) (hevm : f.NoEvmCall) :
    parseFrame (.array (reportFrame f).records) f.address = .ok f :=
  parseFrame_eq_ok.2 ⟨_, rfl, rfl, parse_records f hf hevm⟩

theorem records_ne_nil {f : TraceFrame} (hf : f.Encodable) (hevm : f.NoEvmCall)
    (hsteps : f.steps ≠ []) : (reportFrame f).records ≠ [] := by
  intro hnil
  have hparsed := parse_records f hf hevm
  rw [hnil, List.forall₂_nil_left_iff] at hparsed
  exact hsteps hparsed

/-- A contract that is entered has a record without an address, so the trace is not taken for an
activation. -/
theorem not_activation_reportFrame {f : TraceFrame} (hevm : f.NoEvmCall)
    (hentered : ∃ h ∈ f.steps, h.kind.frame? = none) :
    isActivationTrace (.array (reportFrame f).records) = false := by
  obtain ⟨steps, address⟩ := f
  obtain ⟨h, hmem, hframe⟩ := hentered
  rw [reportFrame, records_reportSteps steps hevm.kinds, isActivationTrace, List.all_eq_false]
  refine ⟨reportedValue h, List.mem_map_of_mem hmem, ?_⟩
  rw [reportedValue, hframe]
  exact Bool.false_ne_true

/-! ## Simulated transactions -/

/-- The arguments of `cargo stylus simulate`. -/
structure SimulateArgs where
  endpoint : Text
  sender : Option Address
  recipient : Option Address
  gas : Option U64
  gasPrice : Option U128
  value : Option U256
  data : Option Bytes
  useNativeTracer : Bool

/-- The transaction that is simulated. -/
def SimulateArgs.txRequest (args : SimulateArgs) : TransactionRequest where
  sender := args.sender
  kind := args.recipient.map .call
  value := args.value
  input := args.data
  gas := args.gas
  maxFeePerGas := args.gasPrice

/-- `Trace::simulate`, with what a tracer returns of a call on the latest block. -/
def Trace.simulate
    (debugTraceCall : TransactionRequest → (useNativeTracer : Bool) → Except String (Option Value))
    (args : SimulateArgs) : Outcome TraceNewError (Trace TransactionRequest) := do
  let json ← ofResponse "Malformed tracing result"
    (debugTraceCall args.txRequest args.useNativeTracer)
  if isEmptyArray json then .err (.message "No trace frames found.")
  else
    let topFrame ← parseTrace json none
    return { topFrame, tx := args.txRequest, json }

theorem simulate_reportFrame {f : TraceFrame} (hf : f.Encodable) (hevm : f.NoEvmCall)
    (haddress : f.address = none) (hne : f.steps ≠ [])
    {debugTraceCall : TransactionRequest → Bool → Except String (Option Value)}
    {args : SimulateArgs} (htrace : debugTraceCall args.txRequest args.useNativeTracer =
      .ok ((Tracer.init.run (reportFrame f).events).bind Tracer.result)) :
    ∃ json, Trace.simulate debugTraceCall args = .ok ⟨f, args.txRequest, json⟩ := by
  rw [result_reportFrame hevm] at htrace
  have hparse := parse_reportFrame hf hevm
  rw [haddress] at hparse
  refine ⟨.array (reportFrame f).records, ?_⟩
  rcases hrecords : (reportFrame f).records with _ | ⟨v, vs⟩
  · exact absurd hrecords (records_ne_nil hf hevm hne)
  · rw [hrecords] at htrace hparse
    rw [Trace.simulate, htrace, ofResponse, Outcome.ok_bind, parseTrace_of_ok hparse]
    rfl

/-! ## The shared library -/

/-- The directory of the shared libraries. -/
def soDir (project : PathBuf) (triple : Text) : PathBuf :=
  Path.join project (utf8 ("target/".toList ++ triple ++ "/debug/".toList))

/-- The loop of `find_shared_library`, over the files left, with the one that was found. -/
def findFile (extension : Text) :
    Option PathBuf → List PathBuf → Outcome String (Option PathBuf)
  | file, [] => .ok file
  | file, entry :: entries =>
    match Path.fileName entry with
    | none => findFile extension file entries
    | some name =>
      let ext := fromUtf8Lossy name
      if containsText extension ext then
        match file with
        | some other => do
          let other ← .unwrap "called `Option::unwrap()` on a `None` value" (Path.fileName other)
          .err ("more than one .so found: " ++ String.ofList ext ++ " and " ++
            String.ofList (fromUtf8Lossy other))
        | none => findFile extension (some entry) entries
      else findFile extension file entries

/-- The only file of the project's debug build whose name has the extension. -/
def findSharedLibrary (triple : Except String Text) (readDir : ReadDir) (project : PathBuf)
    (extension : Text) : Outcome String PathBuf := do
  let triple ← .ofExcept triple
  let entries ← .mapErr (("failed to open " ++
    String.ofList (fromUtf8Lossy (soDir project triple)) ++ ": ") ++ ·)
    (.ofExcept (readDir (soDir project triple)))
  let file ← findFile extension none (releaseFiles (soDir project triple) entries)
  .ofOption "failed to find .so" file

/-- The files that are taken for shared libraries. -/
def sharedLibraries (extension : Text) (entries : List Entry) : List Path.FileName :=
  (fileNames entries).filter fun name => containsText extension (fromUtf8Lossy name.1)

theorem findFile_some_eq_ok {extension : Text} {dir other : PathBuf} {file : Option PathBuf} :
    ∀ {names : List Path.FileName},
      findFile extension (some other) (names.map fun name => Path.join dir name.1) = .ok file ↔
        names.filter (fun name => containsText extension (fromUtf8Lossy name.1)) = [] ∧
          file = some other
  | [] => by
    simp [findFile, eq_comm]
  | name :: names => by
    rw [List.map_cons, findFile, Path.fileName_join_fileName, List.filter_cons]
    dsimp only
    split_ifs
    · refine iff_of_false (fun h => ?_) fun h => h.1
      obtain ⟨_, -, h⟩ := Outcome.bind_eq_ok.1 h
      cases h
    · exact findFile_some_eq_ok

theorem findFile_none_eq_ok {extension : Text} {dir file : PathBuf} :
    ∀ {names : List Path.FileName},
      findFile extension none (names.map fun name => Path.join dir name.1) = .ok (some file) ↔
        ∃ name, names.filter (fun name => containsText extension (fromUtf8Lossy name.1)) =
          [name] ∧ file = Path.join dir name.1
  | [] => by
    refine iff_of_false nofun ?_
    rintro ⟨name, h, -⟩
    cases h
  | name :: names => by
    rw [List.map_cons, findFile, Path.fileName_join_fileName, List.filter_cons]
    dsimp only
    split_ifs
    · rw [findFile_some_eq_ok, Option.some.injEq]
      refine ⟨fun h => ⟨name, congrArg (name :: ·) h.1, h.2⟩, fun h => ?_⟩
      obtain ⟨name', hnames, rfl⟩ := h
      obtain ⟨rfl, hnil⟩ := List.cons.inj hnames
      exact ⟨hnil, rfl⟩
    · exact findFile_none_eq_ok

/-- **The shared library is the only one**, in whatever order the directory lists its files. -/
theorem findSharedLibrary_eq_ok {triple : Except String Text} {readDir : ReadDir}
    {project file : PathBuf} {extension : Text} :
    findSharedLibrary triple readDir project extension = .ok file ↔
      ∃ host entries name, triple = .ok host ∧ readDir (soDir project host) = .ok entries ∧
        sharedLibraries extension entries = [name] ∧
          file = Path.join (soDir project host) name.1 := by
  simp only [findSharedLibrary, Outcome.bind_eq_ok, Outcome.ofExcept_eq_ok, Outcome.mapErr_eq_ok,
    Outcome.ofOption_eq_ok, exists_eq_right, releaseFiles, findFile_none_eq_ok, sharedLibraries]
  refine ⟨fun h => ?_, fun h => ?_⟩
  · obtain ⟨host, hhost, entries, hentries, name, hnames, hfile⟩ := h
    exact ⟨host, entries, name, hhost, hentries, hnames, hfile⟩
  · obtain ⟨host, entries, name, hhost, hentries, hnames, hfile⟩ := h
    exact ⟨host, hhost, entries, hentries, name, hnames, hfile⟩

/-! ## The command -/

/-- The arguments of `cargo stylus trace`. -/
structure TraceArgs where
  endpoint : Text
  tx : B256
  project : PathBuf
  useNativeTracer : Bool

/-- The arguments of `cargo stylus replay`. -/
structure ReplayArgs where
  trace : TraceArgs
  features : Option (List Text)
  package : Option Text
  /-- Whether this process is the child of another. -/
  child : Bool

/-- What a replay works with. A transaction has the input that the node says it has. -/
structure ReplayEnv where
  macos : Bool
  commandExists : Text → Bool
  /-- `std::env::args` -/
  args : List Text
  /-- Becomes another process, or fails. -/
  exec : Text → List Text → Except String Unit
  connect : Text → Except String Unit
  node : TraceNode (Option Bytes)
  /-- `rustc_host::from_cli` -/
  hostTriple : Except String Text
  /-- Runs `cargo` in a directory, to whatever end. -/
  cargo : PathBuf → List Text → Except String Unit
  readDir : ReadDir
  /-- The entry point of a library, which takes the length of the input. -/
  load : PathBuf → Except String (ℕ → Guest)
  /-- What lies behind the buffers that the host functions copy from. -/
  behind : Option Memory

/-- How a replay goes on, or ends. -/
inductive ReplayEnd where
  | execs (program : Text) (args : List Text)
  | prints (line : String)

/-- An error that has no more to it. -/
def orMessage {α : Type} : Outcome String α → Outcome TraceNewError α
  | .ok a => .ok a
  | .err e => .err (.message e)
  | .panic m => .panic m

@[simp] theorem orMessage_eq_ok {α : Type} {o : Outcome String α} {a : α} :
    orMessage o = .ok a ↔ o = .ok a := by
  cases o <;> simp [orMessage]

/-- The arguments of `gdb`. -/
def gdbArgs : List Text :=
  ["--quiet".toList, "-ex=set breakpoint pending on".toList, "-ex=b user_entrypoint".toList,
    "-ex=r".toList, "--args".toList]

/-- The arguments of `lldb`. -/
def lldbArgs : List Text :=
  ["--source-quietly".toList, "-o".toList, "b user_entrypoint".toList, "-o".toList, "r".toList,
    "--".toList]

section

variable (env : ReplayEnv)

/-- The debugger to run in, with its own arguments. -/
def debugger : Option (Text × List Text) :=
  if env.commandExists "rust-gdb".toList && !env.macos then some ("rust-gdb".toList, gdbArgs)
  else if env.commandExists "rust-lldb".toList then some ("rust-lldb".toList, lldbArgs)
  else if env.commandExists "gdb".toList && !env.macos then some ("gdb".toList, gdbArgs)
  else if env.commandExists "lldb".toList then some ("lldb".toList, lldbArgs)
  else none

/-- Runs the same command in a debugger. -/
def replayParent : Outcome TraceNewError ReplayEnd := do
  let (cmdName, debuggerArgs) ← .ofOption (.message "no debugger found") (debugger env)
  let cmdArgs := debuggerArgs ++ env.args ++ ["--child".toList]
  orMessage (.mapErr (("failed to exec " ++ String.ofList cmdName ++ " ") ++ ·)
    (.ofExcept (env.exec cmdName cmdArgs)))
  return .execs cmdName cmdArgs

/-- Build the library for the host. Whether `cargo` succeeds is not looked at. -/
def buildSharedLibrary (path : PathBuf) (package : Option Text) (features : Option (List Text)) :
    Outcome String Unit := do
  let featureArgs := match features with
    | some f => ["--features".toList, join [','] f]
    | none => []
  let packageArgs := match package with
    | some p => ["--package".toList, p]
    | none => []
  let triple ← .ofExcept env.hostTriple
  .ofExcept (env.cargo path (["build".toList] ++ featureArgs ++ packageArgs ++
    ["--lib".toList, "--locked".toList, "--target".toList, triple]))

/-- What is printed of the status of the entry point. -/
def statusLine : ℕ → String
  | 0 => "call completed successfully"
  | 1 => "call reverted"
  | x => s!"call exited with unknown status code: {red}{x}{clear}"

/-- The replay itself : trace, build, load the library and run its entry point. -/
def replayChild (args : ReplayArgs) : Outcome TraceNewError ReplayEnd := do
  orMessage (.ofExcept (env.connect args.trace.endpoint))
  let trace ← Trace.new env.node args.trace.tx args.trace.useNativeTracer
  orMessage (buildSharedLibrary env args.trace.project args.package args.features)
  let libraryExtension := if env.macos then ".dylib".toList else ".so".toList
  let sharedLibrary ← orMessage
    (findSharedLibrary env.hostTriple env.readDir args.trace.project libraryExtension)
  let input ← .ofOption (.message "missing transaction input") trace.tx
  let main ← orMessage (.ofExcept (env.load sharedLibrary))
  let (status, _) ← orMessage ((main input.length).replay
    { startReplay trace.topFrame with behind := env.behind })
  return .prints (statusLine status)

/-- The command runs itself in a debugger, and is the child there. -/
def replay (args : ReplayArgs) : Outcome TraceNewError ReplayEnd :=
  if args.child then replayChild env args else replayParent env

end

/-! ## What is printed -/

/-- The node has run the tracer over a transaction with the records `f` and the input. -/
structure TraceNode.Traced (node : TraceNode (Option Bytes)) (tx : B256) (f : TraceFrame)
    (input : Bytes) : Prop where
  receipt : node.getTransactionReceipt tx = .ok (some f.address)
  request : node.getTransactionByHash tx = .ok (some (some input))
  trace : node.debugTraceTransaction tx false =
    .ok ((Tracer.init.run (reportFrame f).events).bind Tracer.result)

/-- A frame of a contract, without EVM frames, that the tracer can write. -/
structure TraceFrame.Entered (f : TraceFrame) : Prop where
  encodable : f.Encodable
  noEvmCall : f.NoEvmCall
  hostio : ∃ h ∈ f.steps, h.kind.frame? = none

/-- Its trace is built. -/
theorem TraceNode.Traced.trace_new {node : TraceNode (Option Bytes)} {tx : B256} {f : TraceFrame}
    {input : Bytes} (h : node.Traced tx f input) (hf : f.Entered) :
    ∃ json, Trace.new node tx false = .ok ⟨f, some input, json⟩ := by
  have htrace := h.trace
  rw [result_reportFrame hf.noEvmCall] at htrace
  obtain ⟨step, hstep, -⟩ := hf.hostio
  have hne := records_ne_nil hf.encodable hf.noEvmCall (List.ne_nil_of_mem hstep)
  have hparse := parse_reportFrame hf.encodable hf.noEvmCall
  refine ⟨.array (reportFrame f).records,
    (trace_new_eq h.receipt h.request htrace hne hparse).trans ?_⟩
  rw [not_activation_reportFrame hf.noEvmCall hf.hostio]
  rfl

/-- A replay that has all it needs : the trace of a frame, and the library of a contract. -/
structure Prepared (env : ReplayEnv) (args : ReplayArgs) (f : TraceFrame) (guest : Guest) :
    Prop where
  child : args.child = true
  jsTracer : args.trace.useNativeTracer = false
  connects : env.connect args.trace.endpoint = .ok ()
  builds : buildSharedLibrary env args.trace.project args.package args.features = .ok ()
  frame : f.Entered
  guest : ∃ input lib entrypoint, env.node.Traced args.trace.tx f input ∧
    findSharedLibrary env.hostTriple env.readDir args.trace.project
      (if env.macos then ".dylib".toList else ".so".toList) = .ok lib ∧
    env.load lib = .ok entrypoint ∧ entrypoint input.length = guest

/-- The command is the replay of the guest over the frame. -/
theorem Prepared.replay_eq {env : ReplayEnv} {args : ReplayArgs} {f : TraceFrame} {guest : Guest}
    (h : Prepared env args f guest) : replay env args = (do
      let (status, _) ← orMessage (guest.replay { startReplay f with behind := env.behind })
      return .prints (statusLine status)) := by
  obtain ⟨input, lib, entrypoint, htraced, hlib, hload, rfl⟩ := h.guest
  obtain ⟨json, hnew⟩ := htraced.trace_new h.frame
  rw [replay, if_pos h.child, replayChild, h.connects, h.jsTracer, hnew, h.builds]
  simp only [hlib, hload, orMessage, Outcome.ofExcept, Outcome.ofOption, Outcome.ok_bind]

/-- **The replay prints a status** exactly if the contract makes the run on chain that the first
of the traced records are of, with that status. -/
theorem replay_prints_iff {env : ReplayEnv} {args : ReplayArgs} {f : TraceFrame} {guest : Guest}
    (h : Prepared env args f guest) (hsteps : ∀ h ∈ f.steps, h.kind.Replayable)
    (hapart : guest.Apart) (line : String) :
    replay env args = .ok (.prints line) ↔ ∃ status steps rest, line = statusLine status ∧
      f.steps = steps ++ rest ∧ guest.OnChain steps status := by
  have hframe : { startReplay f with behind := env.behind }.frame = some f.reader := rfl
  have hiff := replays_iff_onChain f hsteps guest hapart hframe
  rw [h.replay_eq]
  refine ⟨fun hprints => ?_, fun honChain => ?_⟩
  · obtain ⟨⟨status, s'⟩, hreplay, hline⟩ := Outcome.bind_eq_ok.1 hprints
    obtain rfl := ReplayEnd.prints.inj (Outcome.ok.inj hline)
    obtain ⟨steps, rest, hsplit, hrun⟩ := (hiff status).1 ⟨s', orMessage_eq_ok.1 hreplay⟩
    exact ⟨status, steps, rest, rfl, hsplit, hrun⟩
  · obtain ⟨status, steps, rest, rfl, hsplit, hrun⟩ := honChain
    obtain ⟨s', hreplay⟩ := (hiff status).2 ⟨steps, rest, hsplit, hrun⟩
    exact Outcome.bind_eq_ok.2 ⟨(status, s'), orMessage_eq_ok.2 hreplay, rfl⟩

theorem senderFrame_entered : senderFrame.Entered where
  encodable := .cons ⟨fun _ => nofun, trivial, nofun⟩ nofun
    (.cons ⟨fun _ => nofun, trivial, nofun⟩ nofun
      (.cons ⟨fun _ => nofun, trivial, nofun⟩ nofun .nil))
  noEvmCall := .cons (fun _ _ => nofun) nofun (.cons (fun _ _ => nofun) nofun
    (.cons (fun _ _ => nofun) nofun .nil))
  hostio := ⟨_, List.mem_cons_self, rfl⟩

/-- The shared library of the contract. -/
def librarySender : Path.FileName :=
  ⟨utf8 "libsender.so".toList, by decide⟩

/-- A host with the shared library of that contract. -/
def senderEnv : ReplayEnv where
  macos := false
  commandExists _ := false
  args := ["cargo-stylus".toList]
  exec _ _ := .error "No such file or directory"
  connect _ := .ok ()
  node :=
    { getTransactionReceipt := fun _ => .ok (some none)
      getTransactionByHash := fun _ => .ok (some (some []))
      debugTraceTransaction := fun _ _ =>
        .ok ((Tracer.init.run (reportFrame senderFrame).events).bind Tracer.result) }
  hostTriple := .ok "x86_64-unknown-linux-gnu".toList
  cargo _ _ := .ok ()
  readDir _ := .ok [.file librarySender]
  load _ := .ok fun _ => senderGuest
  behind := none

/-- A replay on that host, as the child. -/
def senderArgs : ReplayArgs where
  trace :=
    { endpoint := "http://localhost:8547".toList
      tx := filled 32 0
      project := utf8 ['.']
      useNativeTracer := false }
  features := none
  package := none
  child := true

theorem sharedLibraries_sender :
    sharedLibraries ".so".toList [.file librarySender] = [librarySender] := by
  have hname : containsText ".so".toList (fromUtf8Lossy librarySender.1) = true := by
    rw [librarySender, fromUtf8Lossy_utf8]
    decide
  exact List.filter_eq_self.2 (List.forall_mem_singleton.2 hname)

theorem senderEnv_prepared : Prepared senderEnv senderArgs senderFrame senderGuest where
  child := rfl
  jsTracer := rfl
  connects := rfl
  builds := rfl
  frame := senderFrame_entered
  guest := ⟨[], _, _, ⟨rfl, rfl, rfl⟩, findSharedLibrary_eq_ok.2
    ⟨_, _, librarySender, rfl, rfl, sharedLibraries_sender, rfl⟩, rfl, rfl⟩

theorem replay_prints_senderFrame :
    replay senderEnv senderArgs = .ok (.prints "call completed successfully") :=
  (replay_prints_iff senderEnv_prepared senderFrame_replayable senderGuest_apart _).2
    ⟨0, _, [], rfl, (List.append_nil _).symm, senderGuest_onChain⟩

end CargoStylus
