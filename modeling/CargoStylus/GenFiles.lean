import CargoStylus.Rust.Interaction
import CargoStylus.Rust.Path
import CargoStylus.Rust.Utf8
import CargoStylus.StorageLayout

/-!
# The files of the C bindings

`cGenInput` writes the bindings for the output of the Solidity compiler : an object of solidity
files, each an object of contracts. There is one path. The name of the file is pushed and its
directory made, the name of each header and each router is pushed, written to and popped, and
at the end the name of the file is popped. Entries that are no objects are skipped, and a
contract with an ABI that cannot be read ends it.

If no request fails, the files of a contract are those of `outputs`, and they are written where
`pushes` says (`gen_contracts`). So the contents that are written are those of the headers and
routers of all contracts (`contents_gen`), and every other run breaks off this one
(`requests_prefix_gen`).
-/

namespace CargoStylus

open Rust Rust.Interaction Rust.Interaction.Prog Json

/-! ## The contents -/

/-- What `c_gen` calls in other crates. -/
structure GenLibs where
  /-- `JsonAbi`, from JSON, by its functions. -/
  parseAbi : Value → Except String (List AbiFunction)
  /-- The names are Solidity identifiers. -/
  parseAbi_names : ∀ raw abi, parseAbi raw = .ok abi → ∀ f ∈ abi, ' ' ∉ f.name
  selectorOf : SelectorOf
  keccak256 : Bytes → FixedBytes 32
  /-- `char::to_uppercase`. -/
  toUppercase : Char → Text
  toUppercase_ascii : ∀ c, c.toNat < 128 → toUppercase c = [c.toUpper]
  toUppercase_not_lower : ∀ c, ∀ d ∈ toUppercase c, ¬d.isLower

/-- The order in which the `methods` of each contract are iterated. -/
structure MapOrder where
  iterate (file contract : String) :
    List (Text × List AbiFunction) → List (Text × List AbiFunction)
  perm : ∀ file contract methods, (iterate file contract methods).Perm methods

/-- `str::to_uppercase`. -/
def GenLibs.uppercase (libs : GenLibs) (s : Text) : Text :=
  s.flatMap libs.toUppercase

/-- The include guard. -/
def uniqueIdentifier (libs : GenLibs) (file contract : String) : Text :=
  ['_', '_'] ++ libs.uppercase file.toList ++ ['_'] ++ libs.uppercase contract.toList ++ ['_']

/-- The entries of the storage layout. -/
def storageArr (properties : Fields) : List Value :=
  match Fields.get? properties "storageLayout" with
  | some (.object layoutVals) =>
    match Fields.get? layoutVals "storage" with
    | some (.array storageArr) => storageArr
    | _ => []
  | _ => []

/-- The functions of the ABI, if there is one. -/
def readAbi (libs : GenLibs) (properties : Fields) : Except String (List AbiFunction) :=
  match Fields.get? properties "abi" with
  | some raw => libs.parseAbi raw
  | none => .ok []

/-- The header and the router of a contract. -/
def contractFiles (libs : GenLibs) (order : MapOrder) (file contract : String)
    (properties : Fields) : Except String (Option Text × Option Text) := do
  let abi ← readAbi libs properties
  return cGen libs.selectorOf contract.toList (uniqueIdentifier libs file contract)
    (storageLines libs.keccak256 (storageArr properties))
    (order.iterate file contract (collectMethods abi))

/-! ## Writing -/

/-- What is asked of the file system. -/
inductive FileRequest where
  | createDirAll (path : Bytes)
  | write (path : Bytes) (contents : Text)
deriving DecidableEq

/-- Each request is done, or fails with a message. -/
abbrev FileIo := Prog FileRequest (fun _ => Unit) String

/-- The path and the contents of a file that is written. -/
abbrev FileWrite := Bytes × Text

/-- The file that a request writes. -/
def FileRequest.write? : FileRequest → Option FileWrite
  | createDirAll _ => none
  | write path contents => some (path, contents)

/-- The files that are written, in order. -/
def fileWrites (requests : List FileRequest) : List FileWrite :=
  requests.filterMap FileRequest.write?

/-- The name in the file system. -/
def osName (name : Text) : Bytes :=
  utf8 name

/-- The name of a contract's header. -/
def headerName (contract : String) : Text :=
  contract.toList ++ ['.', 'h']

/-- The name of a contract's router. -/
def routerName (contract : String) : Text :=
  contract.toList ++ ['_', 'm', 'a', 'i', 'n', '.', 'c']

/-- Push the name, write and pop, if there is something to write. The path after that. -/
def writeNamed (pathbuf : Bytes) (name : Text) : Option Text → FileIo Bytes
  | some contents => do
    ask (.write (Path.join pathbuf (osName name)) contents)
    return Path.pop (Path.join pathbuf (osName name))
  | none => return pathbuf

variable (libs : GenLibs) (order : MapOrder)

/-- The loop over the entries of an object, with the path at the start and at the end. -/
def eachEntry (step : Bytes → String → Value → FileIo Bytes) (pathbuf : Bytes) :
    Fields → FileIo Bytes
  | [] => return pathbuf
  | (name, val) :: entries => do
    let pathbuf ← step pathbuf name val
    eachEntry step pathbuf entries

/-- One contract of a solidity file. -/
def genContract (file : String) (pathbuf : Bytes) (contract : String) (val : Value) :
    FileIo Bytes :=
  match val.asObject with
  | some properties => do
    let (header, router) ← done (.ofExcept (contractFiles libs order file contract properties))
    let pathbuf ← writeNamed pathbuf (headerName contract) header
    writeNamed pathbuf (routerName contract) router
  | none => return pathbuf

/-- One solidity file. -/
def genFile (pathbuf : Bytes) (file : String) (val : Value) : FileIo Bytes :=
  match val.asObject with
  | some contracts => do
    ask (.createDirAll (Path.join pathbuf (osName file.toList)))
    let pathbuf ← eachEntry (genContract libs order file)
      (Path.join pathbuf (osName file.toList)) contracts
    return Path.pop pathbuf
  | none => return pathbuf

/-- The solidity files. -/
def genFiles (pathbuf : Bytes) (files : Fields) : FileIo Bytes :=
  eachEntry (genFile libs order) pathbuf files

/-- `input["contracts"].as_object()`. -/
def inputContracts (input : Value) : Option Fields := do
  let fields ← input.asObject
  let contracts ← Fields.get? fields "contracts"
  contracts.asObject

/-- The bindings for `input`, which was read from `inPath`. -/
def cGenInput (inPath outPath : Bytes) (input : Value) : FileIo Unit :=
  match inputContracts input with
  | some contracts => do
    let _ ← genFiles libs order (Path.join [] outPath) contracts
    return ()
  | none => done (.err ("did not find top-level contracts object in " ++
      String.ofList (fromUtf8Lossy inPath)))

/-! ## The run without failures -/

/-- The requests and the outcome where no request fails. -/
abbrev gen {α : Type} (p : FileIo α) : List FileRequest × Outcome String α :=
  answered (fun _ => ()) p

/-- The files of a contract, by their names. -/
def named (contract : String) (files : Option Text × Option Text) : List (Text × Text) :=
  (files.1.map fun header => (headerName contract, header)).toList ++
    (files.2.map fun router => (routerName contract, router)).toList

/-- The files for an entry, none for one that is skipped. -/
def contractOutput (file contract : String) (val : Value) : Except String (List (Text × Text)) :=
  match val.asObject with
  | some properties => named contract <$> contractFiles libs order file contract properties
  | none => .ok []

/-- The files of the contracts up to one with an ABI that cannot be read. -/
def outputs (file : String) : Fields → List (Text × Text) × Except String Unit
  | [] => ([], .ok ())
  | (contract, val) :: contracts =>
    match contractOutput libs order file contract val with
    | .ok files =>
      let rest := outputs file contracts
      (files ++ rest.1, rest.2)
    | .error e => ([], .error e)

/-- Write files one after the other. -/
def pushes (pathbuf : Bytes) : List (Text × Text) → List FileRequest
  | [] => []
  | (name, contents) :: files =>
    .write (Path.join pathbuf (osName name)) contents ::
      pushes (Path.pop (Path.join pathbuf (osName name))) files

/-- The path after that. -/
def leave (pathbuf : Bytes) : List (Text × Text) → Bytes
  | [] => pathbuf
  | (name, _) :: files => leave (Path.pop (Path.join pathbuf (osName name))) files

variable {libs} {order}

theorem pushes_append (pathbuf : Bytes) (files files' : List (Text × Text)) :
    pushes pathbuf (files ++ files') =
      pushes pathbuf files ++ pushes (leave pathbuf files) files' := by
  induction files generalizing pathbuf with
  | nil => rfl
  | cons file files ih => exact congrArg _ (ih _)

theorem leave_append (pathbuf : Bytes) (files files' : List (Text × Text)) :
    leave pathbuf (files ++ files') = leave (leave pathbuf files) files' := by
  induction files generalizing pathbuf with
  | nil => rfl
  | cons file files ih => exact ih _

theorem gen_writeNamed (pathbuf : Bytes) (name : Text) (contents : Option Text) :
    gen (writeNamed pathbuf name contents) =
      (pushes pathbuf (contents.map fun text => (name, text)).toList,
        .ok (leave pathbuf (contents.map fun text => (name, text)).toList)) := by
  cases contents <;> rfl

theorem contractOutput_skipped {file contract : String} {val : Value}
    (hval : val.asObject = none) : contractOutput libs order file contract val = .ok [] := by
  rw [contractOutput, hval]

theorem contractOutput_of_object {file contract : String} {val : Value} {properties : Fields}
    (hval : val.asObject = some properties) : contractOutput libs order file contract val =
      named contract <$> contractFiles libs order file contract properties := by
  rw [contractOutput, hval]

/-- A contract is written by its files. -/
theorem gen_genContract {file contract : String} {val : Value} {files : List (Text × Text)}
    (h : contractOutput libs order file contract val = .ok files) (pathbuf : Bytes) :
    gen (genContract libs order file pathbuf contract val) =
      (pushes pathbuf files, .ok (leave pathbuf files)) := by
  unfold genContract
  cases hval : val.asObject with
  | none =>
    rw [contractOutput_skipped hval] at h
    obtain rfl := Except.ok.inj h
    rfl
  | some properties =>
    rw [contractOutput_of_object hval] at h
    dsimp only
    cases hfiles : contractFiles libs order file contract properties with
    | error e =>
      rw [hfiles] at h
      cases h
    | ok contents =>
      rw [hfiles] at h
      obtain rfl := Except.ok.inj h
      rw [named, pushes_append, leave_append]
      change gen (writeNamed pathbuf (headerName contract) contents.1 >>= fun pathbuf =>
        writeNamed pathbuf (routerName contract) contents.2) = _
      exact answered_bind_ok (gen_writeNamed pathbuf _ contents.1) (gen_writeNamed _ _ contents.2)

theorem gen_genContract_error {file contract : String} {val : Value} {e : String}
    (h : contractOutput libs order file contract val = .error e) (pathbuf : Bytes) :
    gen (genContract libs order file pathbuf contract val) = ([], .err e) := by
  unfold genContract
  cases hval : val.asObject with
  | none =>
    rw [contractOutput_skipped hval] at h
    cases h
  | some properties =>
    rw [contractOutput_of_object hval] at h
    dsimp only
    cases hfiles : contractFiles libs order file contract properties with
    | error e' =>
      rw [hfiles] at h
      obtain rfl := Except.error.inj h
      rfl
    | ok contents =>
      rw [hfiles] at h
      cases h

/-- The end of the contracts of a file. -/
def afterContracts (pathbuf : Bytes) (files : List (Text × Text)) :
    Except String Unit → Outcome String Bytes
  | .ok _ => .ok (leave pathbuf files)
  | .error e => .err e

variable (libs order) in
/-- The contracts of a file are written by their files, up to one that ends the program. -/
theorem gen_contracts (file : String) : ∀ (pathbuf : Bytes) (contracts : Fields),
    gen (eachEntry (genContract libs order file) pathbuf contracts) =
      (pushes pathbuf (outputs libs order file contracts).1,
        afterContracts pathbuf (outputs libs order file contracts).1
          (outputs libs order file contracts).2)
  | _, [] => rfl
  | pathbuf, (contract, val) :: contracts => by
    rw [outputs]
    cases hfiles : contractOutput libs order file contract val with
    | error e => exact answered_bind_err (gen_genContract_error hfiles pathbuf)
    | ok files =>
      have hrest := gen_contracts file (leave pathbuf files) contracts
      have hafter : afterContracts (leave pathbuf files) (outputs libs order file contracts).1 =
          afterContracts pathbuf (files ++ (outputs libs order file contracts).1) := by
        funext result
        cases result <;> simp only [afterContracts, leave_append]
      dsimp only
      rw [pushes_append, ← hafter]
      exact answered_bind_ok (gen_genContract hfiles pathbuf) hrest

/-! ## The solidity files -/

/-- The name of a solidity file is pushed, its contracts are written, and one name is popped. -/
theorem gen_genFile {file : String} {val : Value} {contracts : Fields}
    (hval : val.asObject = some contracts)
    (h : (outputs libs order file contracts).2 = .ok ()) (pathbuf : Bytes) :
    gen (genFile libs order pathbuf file val) =
      (.createDirAll (Path.join pathbuf (osName file.toList)) ::
          pushes (Path.join pathbuf (osName file.toList)) (outputs libs order file contracts).1,
        .ok (Path.pop (leave (Path.join pathbuf (osName file.toList))
          (outputs libs order file contracts).1))) := by
  have hcontracts := gen_contracts libs order file
    (Path.join pathbuf (osName file.toList)) contracts
  rw [h] at hcontracts
  have hrun := answered_bind_ok (f := fun path => done (.ok (Path.pop path))) hcontracts rfl
  rw [List.append_nil] at hrun
  unfold genFile
  rw [hval]
  exact congrArg (fun run : List FileRequest × Outcome String Bytes => (_ :: run.1, run.2)) hrun

theorem gen_genFile_error {file : String} {val : Value} {contracts : Fields}
    (hval : val.asObject = some contracts) {e : String}
    (h : (outputs libs order file contracts).2 = .error e) (pathbuf : Bytes) :
    gen (genFile libs order pathbuf file val) =
      (.createDirAll (Path.join pathbuf (osName file.toList)) ::
          pushes (Path.join pathbuf (osName file.toList)) (outputs libs order file contracts).1,
        .err e) := by
  have hcontracts := gen_contracts libs order file
    (Path.join pathbuf (osName file.toList)) contracts
  rw [h] at hcontracts
  have hrun := answered_bind_err (f := fun path => done (.ok (Path.pop path))) hcontracts
  unfold genFile
  rw [hval]
  exact congrArg (fun run : List FileRequest × Outcome String Bytes => (_ :: run.1, run.2)) hrun

variable (libs order) in
theorem gen_genFile_skipped (file : String) {val : Value} (hval : val.asObject = none)
    (pathbuf : Bytes) : gen (genFile libs order pathbuf file val) = ([], .ok pathbuf) := by
  unfold genFile
  rw [hval]
  rfl

section

variable {pathbuf path : Bytes} {file : String} {val : Value} {files : Fields}
  {requests : List FileRequest} {e : String}

/-- One solidity file after the other. -/
theorem gen_genFiles_cons (h : gen (genFile libs order pathbuf file val) = (requests, .ok path)) :
    gen (genFiles libs order pathbuf ((file, val) :: files)) =
      (requests ++ (gen (genFiles libs order path files)).1,
        (gen (genFiles libs order path files)).2) :=
  answered_bind_ok h rfl

theorem gen_genFiles_cons_error
    (h : gen (genFile libs order pathbuf file val) = (requests, .err e)) :
    gen (genFiles libs order pathbuf ((file, val) :: files)) = (requests, .err e) :=
  answered_bind_err h

end

theorem gen_cGenInput {input : Value} (inPath outPath : Bytes) :
    (gen (cGenInput libs order inPath outPath input)).1 =
      (gen (genFiles libs order outPath ((inputContracts input).getD []))).1 := by
  unfold cGenInput
  cases inputContracts input with
  | none => rfl
  | some contracts =>
    rw [Path.join_nil]
    exact requests_bind_done _ _

/-! ## The contents of the files -/

theorem fileWrites_cons (request : FileRequest) (requests : List FileRequest) :
    fileWrites (request :: requests) = request.write?.toList ++ fileWrites requests := by
  unfold fileWrites
  rw [List.filterMap_cons]
  cases request.write? <;> rfl

theorem fileWrites_append (requests requests' : List FileRequest) :
    fileWrites (requests ++ requests') = fileWrites requests ++ fileWrites requests' :=
  List.filterMap_append

/-- A contract, with its header and its router. -/
structure GenContract where
  file : String
  contract : String
  files : Option Text × Option Text

/-- The contracts of a solidity file, by their properties. -/
def fileEntries (file : String) (contracts : Fields) : List (String × String × Fields) :=
  contracts.filterMap fun entry =>
    entry.2.asObject.map fun properties => (file, entry.1, properties)

/-- The contracts of all solidity files. -/
def contractEntries (files : Fields) : List (String × String × Fields) :=
  files.flatMap fun entry => fileEntries entry.1 (entry.2.asObject.getD [])

variable (libs order) in
/-- The contracts up to one with an ABI that cannot be read. -/
def generatedContracts : List (String × String × Fields) → List GenContract
  | [] => []
  | (file, contract, properties) :: entries =>
    match contractFiles libs order file contract properties with
    | .ok files => ⟨file, contract, files⟩ :: generatedContracts entries
    | .error _ => []

/-- What is written for the contracts, in order. -/
def contents (contracts : List GenContract) : List Text :=
  contracts.flatMap fun contract => contract.files.1.toList ++ contract.files.2.toList

theorem contents_pushes (pathbuf : Bytes) (files : List (Text × Text)) :
    (fileWrites (pushes pathbuf files)).map Prod.snd = files.map Prod.snd := by
  induction files generalizing pathbuf with
  | nil => rfl
  | cons file files ih =>
    rw [pushes, fileWrites_cons]
    exact congrArg (file.2 :: ·) (ih _)

theorem map_snd_named (contract : String) (files : Option Text × Option Text) :
    (named contract files).map Prod.snd = files.1.toList ++ files.2.toList := by
  obtain ⟨header, router⟩ := files
  cases header <;> cases router <;> rfl

/-- The contents for the entries behind those of a solidity file, if they are reached. -/
def restContents (rest : List Text) : Except String Unit → List Text
  | .ok _ => rest
  | .error _ => []

/-- What is written are the texts of the contracts. -/
theorem contents_generatedContracts (file : String) (rest : List (String × String × Fields)) :
    ∀ contracts : Fields,
      contents (generatedContracts libs order (fileEntries file contracts ++ rest)) =
        (outputs libs order file contracts).1.map Prod.snd ++
          restContents (contents (generatedContracts libs order rest))
            (outputs libs order file contracts).2
  | [] => rfl
  | (contract, val) :: contracts => by
    have hrest := contents_generatedContracts file rest contracts
    cases hval : val.asObject with
    | none =>
      have hentries : fileEntries file ((contract, val) :: contracts) =
          fileEntries file contracts :=
        List.filterMap_cons_none (congrArg (Option.map _) hval)
      rw [hentries, outputs, contractOutput_skipped hval]
      exact hrest
    | some properties =>
      have hentries : fileEntries file ((contract, val) :: contracts) =
          (file, contract, properties) :: fileEntries file contracts :=
        List.filterMap_cons_some (congrArg (Option.map _) hval)
      rw [hentries, outputs, contractOutput_of_object hval, List.cons_append, generatedContracts]
      cases contractFiles libs order file contract properties with
      | error e => rfl
      | ok files =>
        have hnamed := map_snd_named contract files
        change (files.1.toList ++ files.2.toList) ++ contents (generatedContracts libs order
          (fileEntries file contracts ++ rest)) = _
        rw [hrest, ← hnamed, ← List.append_assoc, ← List.map_append]
        rfl

/-- Where nothing fails the headers and routers of the contracts are written. -/
theorem contents_gen (pathbuf : Bytes) (files : Fields) :
    (fileWrites (gen (genFiles libs order pathbuf files)).1).map Prod.snd =
      contents (generatedContracts libs order (contractEntries files)) := by
  induction files generalizing pathbuf with
  | nil => rfl
  | cons entry files ih =>
    obtain ⟨file, val⟩ := entry
    have hentries : contractEntries ((file, val) :: files) =
        fileEntries file (val.asObject.getD []) ++ contractEntries files :=
      List.flatMap_cons
    rw [hentries]
    cases hval : val.asObject with
    | none =>
      rw [gen_genFiles_cons (gen_genFile_skipped libs order file hval pathbuf)]
      exact ih pathbuf
    | some contracts =>
      rw [Option.getD_some, contents_generatedContracts]
      cases hend : (outputs libs order file contracts).2 with
      | error e =>
        rw [gen_genFiles_cons_error (gen_genFile_error hval hend pathbuf), fileWrites_cons]
        exact (contents_pushes _ _).trans (List.append_nil _).symm
      | ok _ =>
        rw [gen_genFiles_cons (gen_genFile hval hend pathbuf), List.cons_append, fileWrites_cons,
          fileWrites_append, List.map_append, List.map_append, contents_pushes, ih]
        rfl

/-! ## Every other run breaks off -/

theorem failFast_writeNamed (pathbuf : Bytes) (name : Text) (contents : Option Text) :
    FailFast (writeNamed pathbuf name contents) := by
  cases contents with
  | none => exact failFast_done _
  | some contents => exact (failFast_ask _).bind fun _ => failFast_done _

theorem failFast_eachEntry {step : Bytes → String → Value → FileIo Bytes}
    (hstep : ∀ pathbuf name val, FailFast (step pathbuf name val)) :
    ∀ (pathbuf : Bytes) (entries : Fields), FailFast (eachEntry step pathbuf entries)
  | _, [] => failFast_done _
  | pathbuf, (name, val) :: entries =>
    (hstep pathbuf name val).bind fun _ => failFast_eachEntry hstep _ entries

theorem failFast_genContract (file : String) (pathbuf : Bytes) (contract : String) (val : Value) :
    FailFast (genContract libs order file pathbuf contract val) := by
  unfold genContract
  cases val.asObject with
  | none => exact failFast_done _
  | some properties =>
    exact (failFast_done _).bind fun _ => (failFast_writeNamed _ _ _).bind fun _ =>
      failFast_writeNamed _ _ _

theorem failFast_genFile (pathbuf : Bytes) (file : String) (val : Value) :
    FailFast (genFile libs order pathbuf file val) := by
  unfold genFile
  cases val.asObject with
  | none => exact failFast_done _
  | some contracts =>
    exact (failFast_ask _).bind fun _ => (failFast_eachEntry (failFast_genContract file) _ _).bind
      fun _ => failFast_done _

theorem failFast_genFiles (pathbuf : Bytes) (files : Fields) :
    FailFast (genFiles libs order pathbuf files) :=
  failFast_eachEntry failFast_genFile pathbuf files

/-- The first request that fails ends the run. -/
theorem failFast_cGenInput (inPath outPath : Bytes) (input : Value) :
    FailFast (cGenInput libs order inPath outPath input) := by
  unfold cGenInput
  cases inputContracts input with
  | none => exact failFast_done _
  | some contracts => exact (failFast_genFiles _ _).bind fun _ => failFast_done _

/-- A run makes the requests of the one where nothing fails, up to one that fails. -/
theorem requests_prefix_gen {α : Type} {p : FileIo α} (hp : FailFast p)
    {log : Log FileRequest (fun _ => Unit) String} {o : Outcome String α} (h : Runs p log o) :
    log.map Sigma.fst <+: (gen p).1 ∧ ((∀ entry ∈ log, ∃ x, entry.2 = .ok x) ∨ o.IsOk →
      log.map Sigma.fst = (gen p).1 ∧ o = (gen p).2) :=
  hp.requests_prefix h

/-! ## Without the other crates -/

theorem not_isLower_toUpper (c : Char) : ¬c.toUpper.isLower := by
  delta Char.toUpper Char.isLower
  split <;> grind [UInt32.toNat_add, Char.toNat_val]

/-- ABIs without functions, and names in ASCII. -/
def asciiLibs : GenLibs where
  parseAbi _ := .ok []
  parseAbi_names _ _ h f hf := by
    obtain rfl := Except.ok.inj h
    cases hf
  selectorOf _ := 0
  keccak256 _ := filled 32 0
  toUppercase c := [c.toUpper]
  toUppercase_ascii _ _ := rfl
  toUppercase_not_lower c d hd := by
    obtain rfl := List.mem_singleton.1 hd
    exact not_isLower_toUpper c

/-- The methods in the order in which they were inserted. -/
def insertionOrder : MapOrder where
  iterate _ _ methods := methods
  perm _ _ methods := .refl methods

/-- A contract with one variable and nothing else. -/
def storageContract : Fields :=
  [("storageLayout", .object [("storage", .array [.object [("label", .string "x"),
    ("offset", .number (.posInt 0)), ("slot", .string "0"), ("type", .string "t_uint256")]])])]

theorem sorted_storageContract : (Value.object storageContract).Sorted := by
  have hvariable : (Value.object [("label", .string "x"), ("offset", .number (.posInt 0)),
      ("slot", .string "0"), ("type", .string "t_uint256")]).Sorted := by
    refine .object (by decide) ?_
    simp only [List.forall_mem_cons, List.not_mem_nil, false_imp_iff, implies_true, and_true]
    exact ⟨.string _, .number _, .string _, .string _⟩
  exact .object (List.pairwise_singleton _ _) (List.forall_mem_singleton.2
    (.object (List.pairwise_singleton _ _) (List.forall_mem_singleton.2
      (.array (List.forall_mem_singleton.2 hvariable)))))

theorem storageVars_storageContract : storageVars (storageArr storageContract) =
    [⟨['x'], 0, ['t', '_', 'u', 'i', 'n', 't', '2', '5', '6'], 0⟩] := by
  decide

theorem storageLines_ne_nil {keccak256 : Bytes → FixedBytes 32} {storageArr : List Value}
    (h : storageVars storageArr ≠ []) : storageLines keccak256 storageArr ≠ [] := by
  obtain ⟨v, vars, hvars⟩ := List.exists_cons_of_ne_nil h
  intro hnil
  rw [storageLines, layoutMacros, hvars, List.flatMap_cons, List.flatMap_append, storageMacros,
    List.flatMap_cons, List.append_eq_nil_iff, List.append_eq_nil_iff] at hnil
  exact absurd (List.append_eq_nil_iff.1 hnil.1.1).2 (List.cons_ne_nil _ _)

theorem cGen_nil (selectorOf : SelectorOf) (contract uniq : Text) {storage : Text}
    (h : storage ≠ []) :
    cGen selectorOf contract uniq storage [] = (some (headerFile uniq storage), none) :=
  congrArg (fun header => (header, none)) (if_neg h)

/-- It has a header only. -/
theorem contractFiles_storageContract (file contract : String) : ∃ header,
    contractFiles asciiLibs insertionOrder file contract storageContract =
      .ok (some header, none) := by
  have hlines : storageLines asciiLibs.keccak256 (storageArr storageContract) ≠ [] := by
    refine storageLines_ne_nil ?_
    rw [storageVars_storageContract]
    exact List.cons_ne_nil _ _
  have habi : readAbi asciiLibs storageContract = .ok [] :=
    rfl
  refine ⟨headerFile (uniqueIdentifier asciiLibs file contract)
    (storageLines asciiLibs.keccak256 (storageArr storageContract)), ?_⟩
  unfold contractFiles
  rw [habi]
  exact congrArg Except.ok (cGen_nil _ _ _ hlines)

end CargoStylus
