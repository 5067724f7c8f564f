import CargoStylus.GenFiles
import CargoStylus.GenRouter
import Mathlib.Data.List.Chain

/-!
# Where the files of the C bindings are written

Each file is intended for the directory of its solidity file below the output path. One path is
pushed and popped on the way, and a pop takes one component back, however many were pushed. So
the files are where they are intended, and the path is the output path again at each solidity
file, exactly if the names are relative and of one component, but for the last ones
(`writesWhereItSays_iff`). For ordinary names that is so exactly if no solidity file but the
last one has a directory in its name (`filesFit_iff_of_ordinary`).

The input is a JSON text, and its objects are iterated in the order of their keys (`Value.read`).
-/

namespace CargoStylus

open Rust Rust.Interaction Rust.Interaction.Prog Json
open Rust.Path (body components pop)

/-! ## What is intended -/

/-- `base/name`, also if the name starts with a separator. -/
def under (base name : Bytes) : Bytes :=
  Path.join base (name.dropWhile (· = Path.separator))

/-- The files in the directory `target`. -/
def intended (target : Bytes) (files : List (Text × Text)) : List FileWrite :=
  files.map fun file => (under target (osName file.1), file.2)

variable (libs : GenLibs) (order : MapOrder)

/-- The files below `outPath`, up to a contract with an ABI that cannot be read. -/
def intendedFiles (outPath : Bytes) : Fields → List FileWrite
  | [] => []
  | (file, val) :: files =>
    match val.asObject with
    | some contracts =>
      intended (under outPath (osName file.toList)) (outputs libs order file contracts).1 ++
        match (outputs libs order file contracts).2 with
        | .ok _ => intendedFiles outPath files
        | .error _ => []
    | none => intendedFiles outPath files

/-- The files by the components of their paths. -/
def located (writes : List FileWrite) : List (List Path.Component × Text) :=
  writes.map fun write => (components write.1, write.2)

/-- In every run the path is `outPath` at each solidity file, and files are written where they
are intended : all of them, if no request fails. -/
structure WritesWhereItSays (inPath outPath : Bytes) (input : Value) : Prop where
  atFile {before after : Fields} {entry : String × Value} :
    inputContracts input = some (before ++ entry :: after) → ∀ log path,
      Runs (genFiles libs order (Path.join [] outPath) before) log (.ok path) →
        components path = components outPath
  writes : ∀ log o, Runs (cGenInput libs order inPath outPath input) log o →
    located (fileWrites (log.map Sigma.fst)) <+:
        located (intendedFiles libs order outPath ((inputContracts input).getD [])) ∧
      ((∀ entry ∈ log, ∃ x, entry.2 = .ok x) → located (fileWrites (log.map Sigma.fst)) =
        located (intendedFiles libs order outPath ((inputContracts input).getD [])))

/-! ## When it is so -/

/-- The names of the files for a contract : a header if it has functions or variables, and a
router if it has functions. -/
def contractNames (contract : String) (properties : Fields) (abi : List AbiFunction) :
    List Bytes :=
  (if abi = [] ∧ storageVars (storageArr properties) = [] then []
    else [osName (headerName contract)]) ++
  (if abi = [] then [] else [osName (routerName contract)])

/-- The names of the files for contracts, up to one with an ABI that cannot be read. -/
def bindingNames : Fields → List Bytes
  | [] => []
  | (contract, val) :: contracts =>
    match val.asObject with
    | some properties =>
      match readAbi libs properties with
      | .ok abi => contractNames contract properties abi ++ bindingNames contracts
      | .error _ => []
    | none => bindingNames contracts

/-- The ABI of each contract can be read. -/
def Legible (contracts : Fields) : Prop :=
  ∀ entry ∈ contracts, ∀ properties, entry.2.asObject = some properties →
    ∃ abi, readAbi libs properties = .ok abi

/-- The names lead on from the output path, and each but the last is of one component, unless the
next one starts from the root. -/
structure FileFits (outPath file : Bytes) (names : List Bytes) : Prop where
  fileExtends : names ≠ [] → Path.Extends (components outPath) file
  namesExtend : ∀ name ∈ names, Path.Extends (components outPath ++ body file) name
  single : names.IsChain fun name next =>
    (body name).length = 1 ∨ next.head? = some Path.separator

/-- Popping twice after the last file, or once if there is none, leads back to the output path. -/
def LeadsBack (outPath file : Bytes) (names : List Bytes) : Prop :=
  match names.getLast? with
  | some name => (body file ++ body name).length = 2 ∨
    (body file ++ body name).length = 1 ∧ components outPath = [.rootDir]
  | none => components (pop (Path.join outPath file)) = components outPath

/-- The names of each solidity file fit, and each but the last leads back. -/
def FilesFit (outPath : Bytes) : Fields → Prop
  | [] => True
  | (file, val) :: files =>
    match val.asObject with
    | some contracts =>
      FileFits outPath (osName file.toList) (bindingNames libs contracts) ∧
        (Legible libs contracts → files ≠ [] →
          LeadsBack outPath (osName file.toList) (bindingNames libs contracts) ∧
            FilesFit outPath files)
    | none => FilesFit outPath files

/-! ## The way -/

/-- From `base` to the place of each name in `target`, and always up one level in between. -/
def Arrives (target base : Bytes) : List Bytes → Prop
  | [] => True
  | name :: names =>
    components (Path.join base name) = components (under target name) ∧
      Arrives target (pop (under target name)) names

/-- The end of that way. -/
def endsAt (target base : Bytes) : List Bytes → Bytes
  | [] => base
  | name :: names => endsAt target (pop (under target name)) names

/-- The names of the files, as they are pushed. -/
def pushed (files : List (Text × Text)) : List Bytes :=
  files.map fun file => osName file.1

/-- Each step leads to where the next file is intended, and one level above the end of each
solidity file but the last is `outPath`. -/
def Leads (outPath : Bytes) : Fields → Prop
  | [] => True
  | (file, val) :: files =>
    match val.asObject with
    | some contracts =>
      let target := under outPath (osName file.toList)
      let base := Path.join outPath (osName file.toList)
      let names := pushed (outputs libs order file contracts).1
      Arrives target base names ∧
        ((outputs libs order file contracts).2 = .ok () → files ≠ [] →
          components (pop (endsAt target base names)) = components outPath ∧
            Leads outPath files)
    | none => Leads outPath files

variable {libs} {order}

/-! ## The files of one solidity file -/

theorem components_pop_congr {path path' : Bytes} (h : components path = components path') :
    components (pop path) = components (pop path') := by
  rw [Path.components_pop, Path.components_pop, h]

/-- The files are where they are intended exactly if the way leads there. -/
theorem located_pushes_iff {base path : Bytes} (h : components path = components base)
    (target : Bytes) (files : List (Text × Text)) :
    located (fileWrites (pushes path files)) = located (intended target files) ↔
      Arrives target base (pushed files) := by
  induction files generalizing base path with
  | nil => exact iff_of_true rfl trivial
  | cons file files ih =>
    obtain ⟨name, contents⟩ := file
    have hjoin := Path.components_join_congr h (osName name)
    have hcons : located (fileWrites (pushes path ((name, contents) :: files))) =
        located (intended target ((name, contents) :: files)) ↔
          components (Path.join path (osName name)) = components (under target (osName name)) ∧
            located (fileWrites (pushes (pop (Path.join path (osName name))) files)) =
              located (intended target files) := by
      rw [pushes, fileWrites_cons]
      exact List.cons_eq_cons.trans (and_congr_left' (Prod.mk.injEq _ _ _ _ ▸
        and_iff_left rfl))
    rw [hcons, hjoin]
    refine and_congr_right fun harrives => ih ?_
    exact components_pop_congr (hjoin.trans harrives)

theorem components_leave {target base path : Bytes} (h : components path = components base)
    {files : List (Text × Text)} (harrives : Arrives target base (pushed files)) :
    components (leave path files) = components (endsAt target base (pushed files)) := by
  induction files generalizing base path with
  | nil => exact h
  | cons file files ih =>
    have hjoin := Path.components_join_congr h (osName file.1)
    exact ih (components_pop_congr (hjoin.trans harrives.1)) harrives.2

theorem length_located_pushes (target path : Bytes) (files : List (Text × Text)) :
    (located (fileWrites (pushes path files))).length =
      (located (intended target files)).length := by
  have hlen : ∀ path, (fileWrites (pushes path files)).length = files.length := by
    induction files with
    | nil => exact fun _ => rfl
    | cons file files ih =>
      intro path
      rw [pushes, fileWrites_cons]
      exact congrArg (· + 1) (ih _)
  rw [located, located, List.length_map, List.length_map, hlen, intended, List.length_map]

/-! ## The loop over the solidity files -/

section

variable {outPath pathbuf path : Bytes} {file : String} {val : Value} {files : Fields}
  {requests : List FileRequest} {e : String}

variable (libs order outPath pathbuf files) in
/-- At each solidity file the path is `outPath`. -/
def AtFiles : Prop :=
  ∀ before entry after path, files = before ++ entry :: after →
    (gen (genFiles libs order pathbuf before)).2 = .ok path →
      components path = components outPath

theorem atFiles_nil : AtFiles libs order outPath pathbuf [] := by
  intro before entry after path h
  simp at h

theorem AtFiles.start {entry : String × Value}
    (h : AtFiles libs order outPath pathbuf (entry :: files)) :
    components pathbuf = components outPath :=
  h [] entry files pathbuf rfl rfl

theorem atFiles_cons_iff
    (h : gen (genFile libs order pathbuf file val) = (requests, .ok path)) :
    AtFiles libs order outPath pathbuf ((file, val) :: files) ↔
      components pathbuf = components outPath ∧ AtFiles libs order outPath path files := by
  refine ⟨fun hall => ⟨hall.start, fun before entry after path' hfiles hrun => ?_⟩,
    fun hall before entry after path' hfiles hrun => ?_⟩
  · refine hall ((file, val) :: before) entry after path' (congrArg _ hfiles) ?_
    rw [gen_genFiles_cons h, hrun]
  · rcases before with _ | ⟨first, before⟩
    · obtain rfl : pathbuf = path' := Outcome.ok.inj hrun
      exact hall.1
    · obtain ⟨rfl, hrest⟩ := List.cons.inj hfiles
      rw [gen_genFiles_cons h] at hrun
      exact hall.2 before entry after path' hrest hrun

theorem atFiles_cons_error_iff
    (h : gen (genFile libs order pathbuf file val) = (requests, .err e)) :
    AtFiles libs order outPath pathbuf ((file, val) :: files) ↔
      components pathbuf = components outPath := by
  refine ⟨fun hall => hall.start, fun hpath before entry after path' hfiles hrun => ?_⟩
  rcases before with _ | ⟨first, before⟩
  · obtain rfl : pathbuf = path' := Outcome.ok.inj hrun
    exact hpath
  · obtain ⟨rfl, -⟩ := List.cons.inj hfiles
    rw [gen_genFiles_cons_error h] at hrun
    cases hrun

end

theorem located_append_iff {target path path' : Bytes} {files : List (Text × Text)}
    {requests : List FileRequest} {rest : List FileWrite} {P : Prop}
    (h : located (fileWrites (pushes path files)) = located (intended target files) ↔ P) :
    located (fileWrites (.createDirAll path' :: (pushes path files ++ requests))) =
        located (intended target files ++ rest) ↔
      P ∧ located (fileWrites requests) = located rest := by
  rw [← h]
  have happend : ∀ ws ws', located (ws ++ ws') = located ws ++ located ws' :=
    fun ws ws' => List.map_append
  change located (fileWrites (pushes path files ++ requests)) = _ ↔ _
  rw [fileWrites_append, happend, happend]
  refine ⟨fun heq => ?_, fun heq => by rw [heq.1, heq.2]⟩
  exact List.append_inj heq (length_located_pushes target path files)

/-- Where nothing fails the files are as intended exactly if each step leads there. -/
theorem atFiles_and_located_iff {outPath : Bytes} : ∀ {pathbuf : Bytes} {files : Fields},
    components pathbuf = components outPath →
      (AtFiles libs order outPath pathbuf files ∧
          located (fileWrites (gen (genFiles libs order pathbuf files)).1) =
            located (intendedFiles libs order outPath files) ↔
        Leads libs order outPath files)
  | _, [], _ => iff_of_true ⟨atFiles_nil, rfl⟩ trivial
  | pathbuf, (file, val) :: files, hpath => by
    rw [Leads, intendedFiles]
    cases hval : val.asObject with
    | none =>
      have hstep := gen_genFile_skipped libs order file hval pathbuf
      rw [atFiles_cons_iff hstep, gen_genFiles_cons hstep, List.nil_append, and_assoc,
        and_iff_right hpath]
      exact atFiles_and_located_iff hpath
    | some contracts =>
      have hbase := Path.components_join_congr hpath (osName file.toList)
      have harrives := located_pushes_iff hbase (under outPath (osName file.toList))
        (outputs libs order file contracts).1
      dsimp only
      cases hend : (outputs libs order file contracts).2 with
      | error e =>
        have hstep := gen_genFile_error hval hend pathbuf
        rw [atFiles_cons_error_iff hstep, gen_genFiles_cons_error hstep, List.append_nil,
          and_iff_right hpath, fileWrites_cons]
        refine harrives.trans (and_iff_left ?_).symm
        intro h
        cases h
      | ok _ =>
        have hstep := gen_genFile hval hend pathbuf
        rw [atFiles_cons_iff hstep, gen_genFiles_cons hstep, and_assoc, and_iff_right hpath,
          List.cons_append, located_append_iff harrives, and_left_comm]
        refine and_congr_right fun ha => ?_
        have hback := components_pop_congr (components_leave hbase ha)
        rcases files with _ | ⟨next, files⟩
        · exact iff_of_true ⟨atFiles_nil, rfl⟩ fun _ hne => absurd rfl hne
        · refine ⟨fun h _ _ => ?_, fun h => ?_⟩
          · exact ⟨hback.symm.trans h.1.start, (atFiles_and_located_iff h.1.start).1 h⟩
          · obtain ⟨hout, hfit⟩ := h rfl (List.cons_ne_nil next files)
            exact (atFiles_and_located_iff (hback.trans hout)).2 hfit

/-! ## The names that are written -/

section

variable {selectorOf : SelectorOf} {methods : List (Text × List AbiFunction)}
  {abi : List AbiFunction} {contract uniq storage : Text}

/-- A header is written for functions and for storage lines. -/
theorem cGen_header_eq_none_iff (h : methods.Perm (collectMethods abi)) :
    (cGen selectorOf contract uniq storage methods).1 = none ↔ abi = [] ∧ storage = [] := by
  have hdeclarations : (generated methods).flatMap (Method.header selectorOf) = [] ↔ abi = [] :=
    flatMap_header_eq_nil_iff.trans (generated_eq_nil_iff h)
  unfold cGen
  dsimp only
  by_cases habi : abi = []
  · rw [if_pos (hdeclarations.2 habi), List.nil_append]
    split_ifs with hstorage
    · exact iff_of_true rfl ⟨habi, hstorage⟩
    · exact iff_of_false nofun fun hnil => hstorage hnil.2
  · rw [if_neg fun hnil => habi (hdeclarations.1 hnil), if_neg (by simp)]
    exact iff_of_false nofun fun hnil => habi hnil.1

/-- A router is written for functions. -/
theorem cGen_router_eq_none_iff (h : methods.Perm (collectMethods abi)) :
    (cGen selectorOf contract uniq storage methods).2 = none ↔ abi = [] := by
  have hrouter : (generated methods).flatMap Method.router = [] ↔ abi = [] :=
    flatMap_router_eq_nil_iff.trans (generated_eq_nil_iff h)
  unfold cGen
  dsimp only
  rw [← hrouter]
  split_ifs with hnil
  · exact iff_of_true rfl hnil
  · exact iff_of_false nofun hnil

end

theorem storageLines_eq_nil_iff {keccak256 : Bytes → FixedBytes 32} {storageArr : List Value} :
    storageLines keccak256 storageArr = [] ↔ storageVars storageArr = [] := by
  refine ⟨fun h => ?_, fun h => ?_⟩
  · by_contra hne
    exact storageLines_ne_nil hne h
  · rw [storageLines, layoutMacros, h]
    rfl

theorem pushed_append (files files' : List (Text × Text)) :
    pushed (files ++ files') = pushed files ++ pushed files' :=
  List.map_append

/-- The files of a contract have the names for it. -/
theorem contractOutput_of_readAbi (file contract : String) {val : Value} {properties : Fields}
    (hval : val.asObject = some properties) {abi : List AbiFunction}
    (habi : readAbi libs properties = .ok abi) :
    ∃ files, contractOutput libs order file contract val = .ok files ∧
      pushed files = contractNames contract properties abi := by
  have hperm := order.perm file contract (collectMethods abi)
  obtain ⟨header, hheader⟩ : ∃ header, (cGen libs.selectorOf contract.toList
      (uniqueIdentifier libs file contract) (storageLines libs.keccak256 (storageArr properties))
      (order.iterate file contract (collectMethods abi))) = header := ⟨_, rfl⟩
  have hnone := @cGen_header_eq_none_iff libs.selectorOf _ _ contract.toList
    (uniqueIdentifier libs file contract) (storageLines libs.keccak256 (storageArr properties))
    hperm
  have hrouter := @cGen_router_eq_none_iff libs.selectorOf _ _ contract.toList
    (uniqueIdentifier libs file contract) (storageLines libs.keccak256 (storageArr properties))
    hperm
  rw [storageLines_eq_nil_iff] at hnone
  rw [hheader] at hnone hrouter
  refine ⟨named contract header, ?_, ?_⟩
  · rw [contractOutput_of_object hval, contractFiles, habi, ← hheader]
    rfl
  · obtain ⟨header, router⟩ := header
    rw [contractNames, named, pushed_append]
    congr 1
    · split_ifs with hempty
      · rw [hnone.2 hempty]
        rfl
      · obtain ⟨text, rfl⟩ := Option.ne_none_iff_exists'.1 fun heq => hempty (hnone.1 heq)
        rfl
    · split_ifs with hempty
      · rw [hrouter.2 hempty]
        rfl
      · obtain ⟨text, rfl⟩ := Option.ne_none_iff_exists'.1 fun heq => hempty (hrouter.1 heq)
        rfl

theorem contractOutput_of_readAbi_error (file contract : String) {val : Value}
    {properties : Fields} (hval : val.asObject = some properties) {e : String}
    (habi : readAbi libs properties = .error e) :
    contractOutput libs order file contract val = .error e := by
  rw [contractOutput_of_object hval, contractFiles, habi]
  rfl

variable (libs order) in
theorem pushed_outputs (file : String) (contracts : Fields) :
    pushed (outputs libs order file contracts).1 = bindingNames libs contracts ∧
      ((outputs libs order file contracts).2 = .ok () ↔ Legible libs contracts) := by
  induction contracts with
  | nil => exact ⟨rfl, iff_of_true rfl fun entry hentry => absurd hentry List.not_mem_nil⟩
  | cons entry contracts ih =>
    obtain ⟨contract, val⟩ := entry
    obtain ⟨hnames, hlegible⟩ := ih
    rw [outputs, bindingNames, Legible, List.forall_mem_cons]
    cases hval : val.asObject with
    | none =>
      rw [contractOutput_skipped hval]
      refine ⟨hnames, hlegible.trans (and_iff_right ?_).symm⟩
      rintro _ ⟨⟩
    | some properties =>
      cases habi : readAbi libs properties with
      | error e =>
        rw [contractOutput_of_readAbi_error file contract hval habi]
        refine ⟨by simp only [habi]; rfl, iff_of_false (by rintro ⟨⟩) fun h => ?_⟩
        obtain ⟨abi, habi'⟩ := h.1 properties rfl
        rw [habi] at habi'
        cases habi'
      | ok abi =>
        obtain ⟨files, hfiles, hcontract⟩ := @contractOutput_of_readAbi libs order file contract _ _
          hval _ habi
        rw [hfiles]
        refine ⟨?_, hlegible.trans (and_iff_right ?_).symm⟩
        · simp only [habi]
          rw [pushed_append, hcontract, hnames]
        · rintro _ ⟨⟩
          exact ⟨abi, habi⟩

theorem separator_not_mem_osName {name : Text} (h : '/' ∉ name) :
    Path.separator ∉ osName name := by
  intro hmem
  obtain ⟨c, hc, hbyte⟩ := List.mem_flatMap.1 hmem
  rcases utf8EncodeChar_cases c with ⟨hascii, hencode⟩ | ⟨hlarge, -⟩
  · rw [hencode, List.mem_singleton] at hbyte
    have hnat := congrArg UInt8.toNat hbyte
    rw [UInt8.toNat_ofNat_of_lt' (hascii.trans (by decide))] at hnat
    have hslash : c = '/' := Char.ext (UInt32.toNat_inj.1 hnat.symm)
    exact h (hslash ▸ hc)
  · exact absurd (le_of_mem_utf8EncodeChar hlarge hbyte) (by decide)

/-- The names end with a letter. -/
theorem getLast?_osName {init : Text} {c : Char} (hc : c ∈ ['h', 'c']) :
    (osName (init ++ [c])).getLast? = some (UInt8.ofNat c.toNat) := by
  have hascii : c.toNat < 128 := by
    rcases List.mem_pair.1 hc with rfl | rfl <;> decide
  rw [osName, utf8, List.flatMap_append, List.flatMap_singleton, utf8EncodeChar_ascii hascii,
    List.getLast?_concat]

theorem mem_contractNames {contract : String} {properties : Fields} {abi : List AbiFunction}
    {name : Bytes} (h : name ∈ contractNames contract properties abi) :
    ∃ suffix ∈ [['.'], ['_', 'm', 'a', 'i', 'n', '.']], ∃ c ∈ ['h', 'c'],
      name = osName ((contract.toList ++ suffix) ++ [c]) := by
  unfold contractNames at h
  rcases List.mem_append.1 h with h | h
  · split_ifs at h
    · cases h
    · obtain rfl := List.mem_singleton.1 h
      refine ⟨_, List.mem_cons_self, 'h', by decide, ?_⟩
      rw [List.append_assoc]
      rfl
  · split_ifs at h
    · cases h
    · obtain rfl := List.mem_singleton.1 h
      refine ⟨_, List.mem_cons_of_mem _ List.mem_cons_self, 'c', by decide, ?_⟩
      rw [List.append_assoc]
      rfl

theorem mem_bindingNames {contracts : Fields} {name : Bytes}
    (h : name ∈ bindingNames libs contracts) :
    ∃ entry ∈ contracts, ∃ suffix ∈ [['.'], ['_', 'm', 'a', 'i', 'n', '.']], ∃ c ∈ ['h', 'c'],
      name = osName ((entry.1.toList ++ suffix) ++ [c]) := by
  induction contracts with
  | nil => cases h
  | cons entry contracts ih =>
    obtain ⟨contract, val⟩ := entry
    have hrest : name ∈ bindingNames libs contracts → ∃ entry ∈ (contract, val) :: contracts,
        ∃ suffix ∈ [['.'], ['_', 'm', 'a', 'i', 'n', '.']], ∃ c ∈ ['h', 'c'],
          name = osName ((entry.1.toList ++ suffix) ++ [c]) := by
      intro hmem
      obtain ⟨entry, hentry, hname⟩ := ih hmem
      exact ⟨entry, List.mem_cons_of_mem _ hentry, hname⟩
    rw [bindingNames] at h
    cases hval : val.asObject with
    | none =>
      rw [hval] at h
      exact hrest h
    | some properties =>
      rw [hval] at h
      dsimp only at h
      cases habi : readAbi libs properties with
      | error e =>
        rw [habi] at h
        cases h
      | ok abi =>
        rw [habi] at h
        rcases List.mem_append.1 h with h | h
        · exact ⟨_, List.mem_cons_self, mem_contractNames h⟩
        · exact hrest h

theorem body_ne_nil_of_mem_bindingNames {contracts : Fields} {name : Bytes}
    (h : name ∈ bindingNames libs contracts) : body name ≠ [] := by
  obtain ⟨_, -, _, -, c, hc, rfl⟩ := mem_bindingNames h
  have hletter : UInt8.ofNat c.toNat ≠ Path.separator ∧ UInt8.ofNat c.toNat ≠ Path.dot := by
    rcases List.mem_pair.1 hc with rfl | rfl <;> decide
  exact Path.body_ne_nil (getLast?_osName hc) hletter.1 hletter.2

/-! ## Where the way leads -/

section

variable {outPath target base file name : Bytes} {names : List Bytes}

theorem components_under (hbase : base ≠ []) (name : Bytes) :
    components (under base name) = components base ++ body name := by
  have hhead : (name.dropWhile (· = Path.separator)).head? ≠ some Path.separator := by
    intro hsep
    have hnot := List.head?_dropWhile_not (· = Path.separator) name
    rw [hsep] at hnot
    exact absurd rfl (of_decide_eq_false hnot)
  rw [under, Path.components_join hbase hhead, Path.body_dropWhile]

/-- From a place below the target, a name leads to where it is intended if nothing is in between
or it starts from the root, which the target is then. -/
theorem arrives_step (htarget : target ≠ []) {added : List Path.Component}
    (hbase : components base = components target ++ added) (name : Bytes) :
    components (Path.join base name) = components (under target name) ↔
      Path.Extends (components target) name ∧
        (added = [] ∨ name.head? = some Path.separator) := by
  have hne : base ≠ [] := by
    rintro rfl
    have hnil : components target = [] := (List.append_eq_nil_iff.1 hbase.symm).1
    exact htarget (Path.components_eq_nil_iff.1 hnil)
  rw [components_under htarget]
  by_cases hname : name.head? = some Path.separator
  · obtain ⟨child, rfl⟩ := List.head?_eq_some_iff.1 hname
    rw [Path.join, if_pos hname, Path.components_separator_cons, Path.body_separator_cons,
      ← List.singleton_append, List.append_cancel_right_eq]
    exact ⟨fun h => ⟨fun _ => h.symm, .inr hname⟩, fun h => (h.1 hname).symm⟩
  · rw [Path.components_join hne hname, hbase, List.append_cancel_right_eq,
      List.append_right_eq_self]
    exact ⟨fun h => ⟨fun habs => absurd habs hname, .inl h⟩, fun h => h.2.resolve_right hname⟩

/-- From such a place, the names lead to where they are intended. -/
theorem arrives_iff (htarget : target ≠ []) (hnames : ∀ name ∈ names, body name ≠ [])
    {added : List Path.Component} (hbase : components base = components target ++ added) :
    Arrives target base names ↔ (∀ name ∈ names, Path.Extends (components target) name) ∧
      (∀ name ∈ names.head?, added = [] ∨ name.head? = some Path.separator) ∧
      names.IsChain fun name next =>
        (body name).length = 1 ∨ next.head? = some Path.separator := by
  induction names generalizing base added with
  | nil => exact iff_of_true trivial ⟨nofun, nofun, .nil⟩
  | cons name names ih =>
    obtain ⟨hname, hnames⟩ := List.forall_mem_cons.1 hnames
    have hpop : components (pop (under target name)) =
        components target ++ (body name).dropLast := by
      rw [Path.components_pop, components_under htarget,
        Path.parentComponents_append _ hname (Path.rootDir_not_mem_body name)]
    have hone : (body name).dropLast = [] ↔ (body name).length = 1 := by
      have hpos := List.length_pos_of_ne_nil hname
      rw [← List.length_eq_zero_iff, List.length_dropLast]
      omega
    rw [Arrives, arrives_step htarget hbase, ih hnames hpop, List.forall_mem_cons,
      List.isChain_cons, hone]
    simp only [List.head?_cons, Option.mem_def, Option.some.injEq, forall_eq']
    tauto

theorem join_ne_nil (hout : outPath ≠ []) (child : Bytes) : Path.join outPath child ≠ [] := by
  rw [Path.join]
  split_ifs with hchild
  · rintro rfl
    cases hchild
  · exact fun h => hout (List.append_eq_nil_iff.1 h).1
  · exact fun h => hout (List.append_eq_nil_iff.1 h).1

/-- The files of a solidity file are where they are intended exactly if the names fit. -/
theorem arrives_iff_fileFits (hout : outPath ≠ []) (hnames : ∀ name ∈ names, body name ≠ []) :
    Arrives (under outPath file) (Path.join outPath file) names ↔
      FileFits outPath file names := by
  have htarget := components_under hout file
  have hne : under outPath file ≠ [] := join_ne_nil hout _
  by_cases hextends : Path.Extends (components outPath) file
  · have hbase : components (Path.join outPath file) =
        components (under outPath file) ++ [] := by
      rw [List.append_nil, htarget]
      exact (Path.components_join_iff hout file).2 hextends
    rw [arrives_iff hne hnames hbase, htarget]
    exact ⟨fun h => ⟨fun _ => hextends, h.1, h.2.2⟩,
      fun h => ⟨h.namesExtend, fun _ _ => .inl rfl, h.single⟩⟩
  · rcases names with _ | ⟨name, names⟩
    · exact iff_of_true trivial ⟨fun h => absurd rfl h, nofun, .nil⟩
    refine iff_of_false (fun h => ?_) fun h => hextends (h.fileExtends (List.cons_ne_nil _ _))
    obtain ⟨habsolute, hroot⟩ := Classical.not_imp.1 hextends
    have hjoin : Path.join outPath file = file := if_pos habsolute
    obtain ⟨child, rfl⟩ := List.head?_eq_some_iff.1 habsolute
    -- what is pushed onto an absolute name is below the root
    have hstart : components (under (under outPath (Path.separator :: child)) name) =
        .rootDir :: (body child ++ body name) ∨
        components (under (under outPath (Path.separator :: child)) name) =
          .rootDir :: body name := by
      rw [← h.1, hjoin]
      by_cases hname : name.head? = some Path.separator
      · obtain ⟨name, rfl⟩ := List.head?_eq_some_iff.1 hname
        rw [Path.join, if_pos hname, Path.components_separator_cons, Path.body_separator_cons]
        exact .inr rfl
      · rw [Path.components_join (List.cons_ne_nil _ _) hname, Path.components_separator_cons]
        exact .inl rfl
    rw [components_under hne, htarget, Path.body_separator_cons, List.append_assoc] at hstart
    rcases hstart with hstart | hstart
    · rw [← List.singleton_append, List.append_cancel_right_eq] at hstart
      exact hroot hstart
    · rw [← List.append_assoc, ← List.singleton_append, List.append_cancel_right_eq] at hstart
      rcases List.append_eq_singleton_iff.1 hstart with ⟨hnil, -⟩ | ⟨heq, -⟩
      · exact hout (Path.components_eq_nil_iff.1 hnil)
      · exact hroot heq

theorem endsAt_of_getLast? (h : names.getLast? = some name) :
    endsAt target base names = pop (under target name) := by
  induction names generalizing base with
  | nil => cases h
  | cons first names ih =>
    rcases names with _ | ⟨second, names⟩
    · obtain rfl := Option.some.inj h
      rfl
    · rw [List.getLast?_cons_cons] at h
      exact @ih (pop (under target first)) h

/-- Popping once more leads back to the output path exactly if the names return. -/
theorem components_pop_endsAt_iff (hout : outPath ≠ [])
    (hnames : ∀ name ∈ names, body name ≠ []) :
    components (pop (endsAt (under outPath file) (Path.join outPath file) names)) =
      components outPath ↔ LeadsBack outPath file names := by
  rw [LeadsBack]
  cases hlast : names.getLast? with
  | none =>
    obtain rfl := List.getLast?_eq_none_iff.1 hlast
    rfl
  | some name =>
    have hname := hnames name (List.mem_of_getLast? hlast)
    have hpos := List.length_pos_of_ne_nil hname
    have hne : under outPath file ≠ [] := join_ne_nil hout _
    have hroot : .rootDir ∉ body file ++ (body name).dropLast := by
      rw [List.mem_append, not_or]
      exact ⟨Path.rootDir_not_mem_body file,
        fun h => Path.rootDir_not_mem_body name (List.dropLast_subset _ h)⟩
    have hlen : (body file ++ (body name).dropLast).length + 1 =
        (body file ++ body name).length := by
      rw [List.length_append, List.length_append, List.length_dropLast]
      omega
    rw [endsAt_of_getLast? hlast, Path.components_pop, Path.components_pop, components_under hne,
      Path.parentComponents_append _ hname (Path.rootDir_not_mem_body name),
      components_under hout, List.append_assoc]
    dsimp only
    rw [← hlen]
    rcases eq_or_ne (body file ++ (body name).dropLast) [] with hnil | hadded
    · rw [hnil, List.append_nil, Path.parentComponents_eq_self_iff hout]
      exact ⟨fun h => .inr ⟨rfl, h⟩, fun h => (h.resolve_left (by decide)).2⟩
    · have hpos' := List.length_pos_of_ne_nil hadded
      rw [Path.parentComponents_append _ hadded hroot, List.append_right_eq_self,
        ← List.length_eq_zero_iff, List.length_dropLast]
      exact ⟨fun h => .inl (by omega), fun h => by omega⟩

end

/-- The way leads to each intended place exactly if the names fit. -/
theorem leads_iff_filesFit {outPath : Bytes} (hout : outPath ≠ []) (files : Fields) :
    Leads libs order outPath files ↔ FilesFit libs outPath files := by
  induction files with
  | nil => exact Iff.rfl
  | cons entry files ih =>
    obtain ⟨file, val⟩ := entry
    rw [Leads, FilesFit]
    cases val.asObject with
    | none => exact ih
    | some contracts =>
      obtain ⟨hnames, hlegible⟩ := pushed_outputs libs order file contracts
      have hbody := fun name => @body_ne_nil_of_mem_bindingNames libs contracts name
      dsimp only
      rw [hnames, hlegible, arrives_iff_fileFits hout hbody, components_pop_endsAt_iff hout hbody,
        ih]

/-! ## Names of one part -/

variable (libs) in
/-- A solidity file with a relative name that is not the directory itself, and contracts that can
be read and have no separator in their names. -/
structure OrdinaryFile (file : String) (contracts : Fields) : Prop where
  relative : (osName file.toList).head? ≠ some Path.separator
  body : Path.body (osName file.toList) ≠ []
  single : ∀ entry ∈ contracts, '/' ∉ entry.1.toList
  legible : Legible libs contracts

theorem name_of_ordinary {file : String} {contracts : Fields}
    (h : OrdinaryFile libs file contracts) {name : Bytes}
    (hname : name ∈ bindingNames libs contracts) :
    name.head? ≠ some Path.separator ∧ (body name).length = 1 := by
  have hpos := List.length_pos_of_ne_nil (body_ne_nil_of_mem_bindingNames hname)
  obtain ⟨entry, hentry, suffix, hsuffix, c, hc, rfl⟩ := mem_bindingNames hname
  have hslash : '/' ∉ (entry.1.toList ++ suffix) ++ [c] := by
    rw [List.mem_append, List.mem_append, List.mem_singleton, not_or, not_or]
    refine ⟨⟨h.single entry hentry, ?_⟩, ?_⟩
    · rcases List.mem_pair.1 hsuffix with rfl | rfl <;> decide
    · rcases List.mem_pair.1 hc with rfl | rfl <;> decide
  have hseparator := separator_not_mem_osName hslash
  refine ⟨fun hhead => hseparator (List.mem_of_mem_head? hhead), ?_⟩
  rw [Path.body_of_not_mem hseparator] at hpos ⊢
  exact le_antisymm Option.length_toList_le hpos

theorem fileFits_of_ordinary {outPath : Bytes} {file : String} {contracts : Fields}
    (h : OrdinaryFile libs file contracts) :
    FileFits outPath (osName file.toList) (bindingNames libs contracts) where
  fileExtends _ habsolute := absurd habsolute h.relative
  namesExtend _ hname habsolute := absurd habsolute (name_of_ordinary h hname).1
  single := List.Pairwise.isChain (List.pairwise_iff_forall_sublist.2 fun hsub =>
    .inl (name_of_ordinary h (hsub.subset List.mem_cons_self)).2)

theorem leadsBack_iff_of_ordinary {outPath : Bytes} (hout : outPath ≠ []) {file : String}
    {contracts : Fields} (h : OrdinaryFile libs file contracts) :
    LeadsBack outPath (osName file.toList) (bindingNames libs contracts) ↔
      (body (osName file.toList)).length = 1 := by
  have hpos := List.length_pos_of_ne_nil h.body
  rw [LeadsBack]
  cases hlast : (bindingNames libs contracts).getLast? with
  | none =>
    dsimp only
    rw [Path.components_pop_join hout h.relative h.body, List.append_right_eq_self,
      ← List.length_eq_zero_iff, List.length_dropLast]
    omega
  | some name =>
    have hname := (name_of_ordinary h (List.mem_of_getLast? hlast)).2
    dsimp only
    rw [List.length_append, hname]
    omega

/-- Ordinary files fit exactly if each that others follow has a name of one part. -/
theorem filesFit_iff_of_ordinary {outPath : Bytes} (hout : outPath ≠ []) {files : Fields}
    (h : ∀ entry ∈ files, ∀ contracts, entry.2.asObject = some contracts →
      OrdinaryFile libs entry.1 contracts) :
    FilesFit libs outPath files ↔ ∀ entry ∈ files.dropLast,
      entry.2.asObject ≠ none → (body (osName entry.1.toList)).length = 1 := by
  induction files with
  | nil => exact iff_of_true trivial fun entry hentry => absurd hentry List.not_mem_nil
  | cons entry files ih =>
    obtain ⟨file, val⟩ := entry
    have hrest := ih fun entry hentry => h entry (List.mem_cons_of_mem _ hentry)
    have hdrop : (∀ entry ∈ ((file, val) :: files).dropLast, entry.2.asObject ≠ none →
          (body (osName entry.1.toList)).length = 1) ↔
        (files ≠ [] → (val.asObject ≠ none → (body (osName file.toList)).length = 1) ∧
          ∀ entry ∈ files.dropLast, entry.2.asObject ≠ none →
            (body (osName entry.1.toList)).length = 1) := by
      rcases files with _ | ⟨next, files⟩
      · exact iff_of_true (fun entry hentry => absurd hentry List.not_mem_nil)
          fun hne => absurd rfl hne
      · rw [List.dropLast_cons_cons, List.forall_mem_cons]
        exact ⟨fun h _ => h, fun h => h (List.cons_ne_nil _ _)⟩
    rw [FilesFit, hdrop, ← hrest]
    cases hval : val.asObject with
    | none =>
      refine ⟨fun hfit _ => ⟨fun hne => absurd rfl hne, hfit⟩, fun hfit => ?_⟩
      rcases files with _ | ⟨next, files⟩
      · trivial
      · exact (hfit (List.cons_ne_nil _ _)).2
    | some contracts =>
      have hfile := h (file, val) List.mem_cons_self contracts hval
      dsimp only
      rw [and_iff_right (fileFits_of_ordinary hfile), leadsBack_iff_of_ordinary hout hfile]
      exact ⟨fun hfit hne => (hfit hfile.legible hne).imp_left fun hone _ => hone,
        fun hfit _ hne => (hfit hne).imp_left fun hone => hone (Option.some_ne_none _)⟩

/-! ## Every run -/

theorem leads_of_writesWhereItSays {inPath outPath : Bytes} {input : Value}
    (h : WritesWhereItSays libs order inPath outPath input) :
    Leads libs order outPath ((inputContracts input).getD []) := by
  refine (atFiles_and_located_iff (rfl : components outPath = components outPath)).1 ⟨?_, ?_⟩
  · intro before entry after path hfiles hrun
    have hruns := runs_answered (fun _ => ()) (genFiles libs order outPath before)
    rw [hrun, ← Path.join_nil outPath] at hruns
    have hinput : inputContracts input = some (before ++ entry :: after) := by
      cases hinput : inputContracts input with
      | none => simp [hinput] at hfiles
      | some files => exact congrArg some (by simpa [hinput] using hfiles)
    exact h.atFile hinput _ path hruns
  · have hruns := runs_answered (fun _ => ()) (cGenInput libs order inPath outPath input)
    have hall := (h.writes _ _ hruns).2 fun entry hentry => by
      obtain ⟨request, -, rfl⟩ := List.mem_map.1 hentry
      exact ⟨(), rfl⟩
    have hid := List.map_id (gen (cGenInput libs order inPath outPath input)).1
    rw [List.map_map] at hall
    rw [← gen_cGenInput inPath]
    exact (congrArg (fun requests => located (fileWrites requests)) hid).symm.trans hall

theorem writesWhereItSays_of_leads {outPath : Bytes} {input : Value}
    (h : Leads libs order outPath ((inputContracts input).getD [])) (inPath : Bytes) :
    WritesWhereItSays libs order inPath outPath input := by
  obtain ⟨hat, hlocated⟩ :=
    (atFiles_and_located_iff (rfl : components outPath = components outPath)).2 h
  refine ⟨fun {before after entry} hinput log path hrun => ?_, fun log o hrun => ?_⟩
  · have hwhole := requests_prefix_gen (failFast_genFiles _ _) hrun
    refine hat before entry after path (by rw [hinput, Option.getD_some]) ?_
    rw [← Path.join_nil outPath]
    exact (hwhole.2 (.inr ⟨path, rfl⟩)).2.symm
  · have hbroken := requests_prefix_gen (failFast_cGenInput inPath outPath input) hrun
    rw [← hlocated, ← gen_cGenInput inPath]
    refine ⟨(hbroken.1.filterMap _).map _, fun hall => ?_⟩
    rw [(hbroken.2 (.inl hall)).1]

/-- The files of every input are written where they are intended, and the path is the output
path at each solidity file, exactly if the names of the files fit. An output path is not empty. -/
theorem writesWhereItSays_iff (libs : GenLibs) (order : MapOrder) (inPath : Bytes)
    {outPath : Bytes} (hout : outPath ≠ []) (text : Value) :
    WritesWhereItSays libs order inPath outPath text.read ↔
      FilesFit libs outPath ((inputContracts text.read).getD []) :=
  Iff.trans ⟨leads_of_writesWhereItSays, fun h => writesWhereItSays_of_leads h inPath⟩
    (leads_iff_filesFit hout _)

/-- Two solidity files, with a contract each. -/
def twoFileInput (file file' : String) : Value :=
  .object [("contracts", .object [(file, .object [("A", .object storageContract)]),
    (file', .object [("B", .object storageContract)])])]

theorem read_twoFileInput {file file' : String} (h : file < file') :
    (twoFileInput file file').read = twoFileInput file file' := by
  have hcontract : ∀ name, (Value.object [(name, .object storageContract)]).Sorted := fun name =>
    .object (List.pairwise_singleton _ _) (List.forall_mem_singleton.2 sorted_storageContract)
  refine Value.read_of_sorted _ (.object (List.pairwise_singleton _ _)
    (List.forall_mem_singleton.2 (.object ?_ ?_)))
  · exact List.pairwise_cons.2 ⟨List.forall_mem_singleton.2 h, List.pairwise_singleton _ _⟩
  · exact List.forall_mem_cons.2 ⟨hcontract "A", List.forall_mem_singleton.2 (hcontract "B")⟩

/-- Such files fit exactly if the name of the first one is of one part. -/
theorem filesFit_twoFileInput_iff {outPath : Bytes} (hout : outPath ≠ []) {file file' : String}
    (hrelative : ∀ name ∈ [file, file'], (osName name.toList).head? ≠ some Path.separator)
    (hbody : ∀ name ∈ [file, file'], body (osName name.toList) ≠ []) :
    FilesFit asciiLibs outPath ((inputContracts (twoFileInput file file')).getD []) ↔
      (body (osName file.toList)).length = 1 := by
  have hfile : ∀ name ∈ [file, file'], ∀ contract, '/' ∉ contract.toList →
      OrdinaryFile asciiLibs name [(contract, .object storageContract)] := by
    intro name hname contract hslash
    refine ⟨hrelative name hname, hbody name hname, List.forall_mem_singleton.2 hslash,
      List.forall_mem_singleton.2 ?_⟩
    rintro _ ⟨⟩
    exact ⟨[], rfl⟩
  refine (filesFit_iff_of_ordinary hout (List.forall_mem_cons.2
    ⟨?_, List.forall_mem_singleton.2 ?_⟩)).trans ?_
  · rintro _ ⟨⟩
    exact hfile file List.mem_cons_self "A" (by decide)
  · rintro _ ⟨⟩
    exact hfile file' (List.mem_cons_of_mem _ List.mem_cons_self) "B" (by decide)
  · exact List.forall_mem_singleton.trans ⟨fun h => h (Option.some_ne_none _), fun h _ => h⟩

theorem twoFileInput_writesWhereItSays : WritesWhereItSays asciiLibs insertionOrder []
    (utf8 ['o', 'u', 't']) (twoFileInput "a.sol" "b.sol").read := by
  refine (writesWhereItSays_iff asciiLibs insertionOrder [] (by decide) _).2 ?_
  rw [read_twoFileInput (by decide)]
  exact (filesFit_twoFileInput_iff (by decide) (by decide) (by decide)).2 (by decide)

/-- The files of `b.sol` are written below `out/a`. -/
theorem nestedInput_not_writesWhereItSays : ¬WritesWhereItSays asciiLibs insertionOrder []
    (utf8 ['o', 'u', 't']) (twoFileInput "a/A.sol" "b.sol").read := by
  intro h
  have hfit := (leads_iff_filesFit (by decide) _).1 (leads_of_writesWhereItSays h)
  rw [read_twoFileInput (by decide)] at hfit
  have hone := (filesFit_twoFileInput_iff (by decide) (by decide) (by decide)).1 hfit
  exact absurd hone (by decide)

end CargoStylus
