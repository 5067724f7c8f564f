import CargoStylus.Config
import CargoStylus.Rust.Feed
import CargoStylus.Rust.SelfDelimiting
import CargoStylus.Rust.Utf8

/-!
# The hash of a project's files

The hash is of one stream : what `cargo --version` prints, a byte for the optimization
level, and for each file its path and its contents, each behind its length. A reader thread
reads the files in order and sends what it read to the thread that hashes.

The stream is read in one way only (`hashedStream_injective`), because the lengths tell
where a path and the contents end, and the byte of the level does not occur in the text
before it.

Opening or reading a file may fail, which is an error that the hashing thread returns.
`metadata().unwrap()` panics instead, which ends the reader thread, and the hashing thread
takes the end for the end of the files. So a hash is of all files exactly when no file is
opened and then fails to tell its length, with all the files before it read
(`hashFiles_whole_iff`).
-/

namespace CargoStylus

open Rust

/-- Optimization for size, as `s` or `z`. -/
inductive OptLevel where
  | s
  | z
deriving DecidableEq

/-- How `cargo` builds the project. -/
structure BuildConfig where
  optLevel : OptLevel
  stable : Bool
  features : Option Text
deriving DecidableEq

/-- The default, for a stable toolchain or another. -/
def BuildConfig.new (stable : Bool) : BuildConfig where
  optLevel := .s
  stable
  features := none

/-- An open file : `metadata` gives its length, and `contents` what it is read to. -/
structure OpenFile where
  metadata : Except String U64
  contents : Except String Bytes

/-- A path, and what opening it gives. -/
structure SourceFile where
  path : PathBuf
  file : Except String OpenFile

/-- What is hashed of a file. It panics if the length of the open file cannot be told. -/
def readFilePreimage (f : SourceFile) : Outcome String Bytes := do
  let name := String.ofList (fromUtf8Lossy f.path)
  let file ← .mapErr (fun e => "failed to open file " ++ name ++ ": " ++ e) (.ofExcept f.file)
  let len ← .expect "called `Result::unwrap()` on an `Err` value" file.metadata
  let contents ← .mapErr (fun e => "Unable to read file " ++ name ++ ": " ++ e)
    (.ofExcept file.contents)
  return be 8 (BitVec.ofNat 64 f.path.length) ++ f.path ++ be 8 len ++ contents

/-- The byte that is hashed for an optimization level. -/
def OptLevel.byte (level : OptLevel) : UInt8 :=
  if level = .z then 0 else 1

/-- What the hashing thread has absorbed. -/
def hashedStream (cargoVersionOutput : Bytes) (cfg : BuildConfig) (s : Feed String Bytes) : Bytes :=
  cargoVersionOutput ++ [cfg.optLevel.byte] ++ s.received.flatten

/-- The reader thread and the channel, while `files` are hashed. -/
def Hashes (files : List SourceFile) (s : Feed String Bytes) : Prop :=
  Feed.Reachable (files.map readFilePreimage) s

/-- What hashing returns, if it has. -/
def hashFiles (keccak256 : Bytes → FixedBytes 32) (cargoVersionOutput : Bytes)
    (cfg : BuildConfig) (s : Feed String Bytes) : Option (Except String (FixedBytes 32)) :=
  s.result.map fun r => r.map fun _ => keccak256 (hashedStream cargoVersionOutput cfg s)

/-! ## The stream is read in one way -/

/-- A file of some contents that is read. -/
def plainFile (f : PathBuf × Bytes) : SourceFile :=
  ⟨f.1, .ok ⟨.ok (BitVec.ofNat 64 f.2.length), .ok f.2⟩⟩

/-- What is hashed of a file. -/
def fileRecord (f : PathBuf × Bytes) : Bytes :=
  lengthPrefixed 8 f.1 ++ lengthPrefixed 8 f.2

/-- A path and contents whose lengths fit. -/
def Fits (f : PathBuf × Bytes) : Prop :=
  f.1.length < 2 ^ 64 ∧ f.2.length < 2 ^ 64

theorem be_length {b : Bytes} (h : b.length < 2 ^ 64) :
    be 8 (BitVec.ofNat 64 b.length) = toBe 8 b.length := by
  have hnat : (BitVec.ofNat 64 b.length).toNat = b.length := by
    rw [BitVec.toNat_ofNat, Nat.mod_eq_of_lt h]
  exact congrArg (toBe 8) hnat

theorem readFilePreimage_plainFile {f : PathBuf × Bytes} (h : Fits f) :
    readFilePreimage (plainFile f) = .ok (fileRecord f) := by
  have hread : readFilePreimage (plainFile f) =
      .ok (be 8 (BitVec.ofNat 64 f.1.length) ++ f.1 ++ be 8 (BitVec.ofNat 64 f.2.length) ++ f.2) :=
    rfl
  rw [hread, be_length h.1, be_length h.2, fileRecord, lengthPrefixed, lengthPrefixed,
    List.append_assoc, List.append_assoc]

theorem selfDelimiting_fileRecord : SelfDelimiting Fits fileRecord :=
  (selfDelimiting_lengthPrefixed 8).pair (selfDelimiting_lengthPrefixed 8)

theorem fileRecord_ne_nil (f : PathBuf × Bytes) : fileRecord f ≠ [] := by
  intro h
  have hlen := congrArg List.length h
  simp [fileRecord, lengthPrefixed] at hlen

theorem optLevel_byte_injective : Function.Injective OptLevel.byte := by
  intro a b h
  cases a <;> cases b <;> first | rfl | exact absurd h (by decide)

/-- Files that can be read are hashed in full, whatever the order of steps. -/
theorem received_of_plainFiles {files : List (PathBuf × Bytes)} {s : Feed String Bytes}
    {r : Except String Unit} (hfits : ∀ f ∈ files, Fits f) (h : Hashes (files.map plainFile) s)
    (hr : s.result = some r) : s.received = files.map fileRecord := by
  have hitems : (files.map plainFile).map readFilePreimage = (files.map fileRecord).map .ok := by
    rw [List.map_map, List.map_map]
    exact List.map_congr_left fun f hf => readFilePreimage_plainFile (hfits f hf)
  have hdrain := Feed.result_eq h hr
  rw [hitems, Feed.drain_map_ok] at hdrain
  exact (congrArg Prod.fst hdrain).symm

/-- What is hashed tells what `cargo` printed, the level and all the paths and contents, for
any two runs. -/
theorem hashedStream_injective {version version' : Bytes} {cfg cfg' : BuildConfig}
    {files files' : List (PathBuf × Bytes)} {s s' : Feed String Bytes}
    {r r' : Except String Unit}
    (hversion : ∀ x ∈ version, ¬(x = 0 ∨ x = 1)) (hversion' : ∀ x ∈ version', ¬(x = 0 ∨ x = 1))
    (hfits : ∀ f ∈ files, Fits f) (hfits' : ∀ f ∈ files', Fits f)
    (h : Hashes (files.map plainFile) s) (hr : s.result = some r)
    (h' : Hashes (files'.map plainFile) s') (hr' : s'.result = some r')
    (hstream : hashedStream version cfg s = hashedStream version' cfg' s') :
    version = version' ∧ cfg.optLevel.byte = cfg'.optLevel.byte ∧ files = files' := by
  have hbyte : ∀ cfg : BuildConfig, cfg.optLevel.byte = 0 ∨ cfg.optLevel.byte = 1 := by
    intro cfg
    cases cfg.optLevel
    · exact .inr rfl
    · exact .inl rfl
  rw [hashedStream, hashedStream, received_of_plainFiles hfits h hr,
    received_of_plainFiles hfits' h' hr'] at hstream
  obtain ⟨hheader, hrecords⟩ := (selfDelimiting_marked fun x => x = 0 ∨ x = 1).cancel
    (a := (version, cfg.optLevel.byte)) (b := (version', cfg'.optLevel.byte))
    ⟨hversion, hbyte cfg⟩ ⟨hversion', hbyte cfg'⟩ hstream
  obtain ⟨hversions, hbytes⟩ := Prod.mk.inj hheader
  rw [← List.flatMap_def, ← List.flatMap_def] at hrecords
  exact ⟨hversions, hbytes,
    selfDelimiting_fileRecord.flatMap_inj fileRecord_ne_nil hfits hfits' hrecords⟩

/-- `cargo`, in ASCII. -/
def cargoVersion : Bytes :=
  [0x63, 0x61, 0x72, 0x67, 0x6f]

theorem cargoVersion_noMarker : ∀ x ∈ cargoVersion, ¬(x = 0 ∨ x = 1) := by
  simp [cargoVersion]

/-- Two files of one byte. -/
def twoFiles : List (PathBuf × Bytes) :=
  [(utf8 "./a.rs".toList, [0x61]), (utf8 "./b.rs".toList, [0x62])]

/-- The end of a run on two files. -/
def twoFilesHashed : Feed String Bytes :=
  ⟨[], false, [], twoFiles.map fileRecord, some (.ok ())⟩

theorem twoFiles_fits : ∀ f ∈ twoFiles, Fits f := by
  simp [twoFiles, Fits, utf8, -String.reduceToList]
  decide

theorem hashes_twoFiles : Hashes (twoFiles.map plainFile) twoFilesHashed := by
  have hitems : (twoFiles.map plainFile).map readFilePreimage =
      (twoFiles.map fileRecord).map fun b => .ofExcept (.ok b) := by
    rw [List.map_map, List.map_map]
    exact List.map_congr_left fun f hf => readFilePreimage_plainFile (twoFiles_fits f hf)
  rw [Hashes, Feed.Reachable, hitems]
  exact .tail (.tail (.tail (.tail (.tail (.tail .refl (.send _)) .receive) (.send _)) .done)
    .receive) .close

theorem hashedStream_injective_twoFiles :
    Hashes (twoFiles.map plainFile) twoFilesHashed ∧
    (cargoVersion = cargoVersion ∧
      (BuildConfig.new false).optLevel.byte = (BuildConfig.new true).optLevel.byte ∧
      twoFiles = twoFiles) :=
  ⟨hashes_twoFiles, hashedStream_injective cargoVersion_noMarker cargoVersion_noMarker
    twoFiles_fits twoFiles_fits hashes_twoFiles rfl hashes_twoFiles rfl rfl⟩

/-! ## When a hash is of all files -/

/-- The file is opened, tells its length and is read. -/
def Readable (f : SourceFile) : Prop :=
  ∃ len contents, f.file = .ok ⟨.ok len, .ok contents⟩

/-- The file is opened, but does not tell its length. -/
def StatFails (f : SourceFile) : Prop :=
  ∃ e contents, f.file = .ok ⟨.error e, contents⟩

theorem readFilePreimage_isOk {f : SourceFile} : (readFilePreimage f).IsOk ↔ Readable f := by
  obtain ⟨path, file⟩ := f
  rcases file with e | ⟨e | len, contents⟩
  · simp [readFilePreimage, Readable, Outcome.mapErr]
  · simp [readFilePreimage, Readable, Outcome.mapErr, Outcome.expect]
  · rcases contents with e | contents
    · simp [readFilePreimage, Readable, Outcome.mapErr, Outcome.expect]
    · simp [readFilePreimage, Readable, Outcome.mapErr, Outcome.expect]

/-- Reading panics exactly where the length is not told. -/
theorem readFilePreimage_eq_panic {f : SourceFile} :
    (∃ m, readFilePreimage f = .panic m) ↔ StatFails f := by
  obtain ⟨path, file⟩ := f
  rcases file with e | ⟨e | len, contents⟩
  · simp [readFilePreimage, StatFails, Outcome.mapErr]
  · simp [readFilePreimage, StatFails, Outcome.mapErr, Outcome.expect]
  · rcases contents with e | contents
    · simp [readFilePreimage, StatFails, Outcome.mapErr, Outcome.expect]
    · simp [readFilePreimage, StatFails, Outcome.mapErr, Outcome.expect]

theorem preimages_of_readable : ∀ {files : List SourceFile}, (∀ f ∈ files, Readable f) →
    ∃ preimages : List Bytes, files.map readFilePreimage = preimages.map .ok
  | [], _ => ⟨[], rfl⟩
  | f :: files, h => by
    obtain ⟨b, hb⟩ := readFilePreimage_isOk.2 (h f List.mem_cons_self)
    obtain ⟨preimages, hpreimages⟩ :=
      preimages_of_readable fun g hg => h g (List.mem_cons_of_mem f hg)
    exact ⟨b :: preimages, by rw [List.map_cons, List.map_cons, hb, hpreimages]⟩

theorem readable_of_preimages {files : List SourceFile} {preimages : List Bytes}
    (h : files.map readFilePreimage = preimages.map .ok) : ∀ f ∈ files, Readable f := by
  intro f hf
  have hmem : readFilePreimage f ∈ preimages.map .ok := h ▸ List.mem_map_of_mem hf
  obtain ⟨b, -, hb⟩ := List.mem_map.1 hmem
  exact readFilePreimage_isOk.1 ⟨b, hb.symm⟩

/-- Every run gets to a result, and a result that is no error is the hash of all files. -/
def HashesWhole (keccak256 : Bytes → FixedBytes 32) (version : Bytes) (cfg : BuildConfig)
    (files : List SourceFile) : Prop :=
  ∀ s, Hashes files s →
    (∃ s', Relation.ReflTransGen Feed.Step s s' ∧ (hashFiles keccak256 version cfg s').isSome) ∧
    ∀ r, hashFiles keccak256 version cfg s = some r →
      (∃ preimages : List Bytes, files.map readFilePreimage = preimages.map .ok ∧
        r = .ok (keccak256 (version ++ [cfg.optLevel.byte] ++ preimages.flatten))) ∨
      ∃ e, r = .error e

theorem isSome_hashFiles {keccak256 : Bytes → FixedBytes 32} {version : Bytes}
    {cfg : BuildConfig} {s : Feed String Bytes} :
    (hashFiles keccak256 version cfg s).isSome ↔ s.result.isSome := by
  rw [hashFiles, Option.isSome_map]

theorem hashFiles_ends (keccak256 : Bytes → FixedBytes 32) (version : Bytes)
    (cfg : BuildConfig) {files : List SourceFile} {s : Feed String Bytes} (h : Hashes files s) :
    ∃ s', Relation.ReflTransGen Feed.Step s s' ∧
      s'.result = some (Feed.drain (files.map readFilePreimage)).2 ∧
      (hashFiles keccak256 version cfg s').isSome := by
  obtain ⟨s', hrun, hresult⟩ := Feed.exists_result_of_reachable s h
  exact ⟨s', hrun, hresult, isSome_hashFiles.2 (by rw [hresult]; rfl)⟩

/-- A file that does not tell its length, behind files that are read, ends the stream. -/
theorem truncated_of_statFails (keccak256 : Bytes → FixedBytes 32) (version : Bytes)
    (cfg : BuildConfig) {before : List SourceFile} {f : SourceFile} (after : List SourceFile)
    {values : List Bytes}
    (hbefore : before.map readFilePreimage = values.map .ok) (hstat : StatFails f) :
    ∃ s, Hashes (before ++ f :: after) s ∧ hashFiles keccak256 version cfg s =
      some (.ok (keccak256 (version ++ [cfg.optLevel.byte] ++ values.flatten))) := by
  obtain ⟨m, hpanic⟩ := readFilePreimage_eq_panic.2 hstat
  have hitems : (before ++ f :: after).map readFilePreimage =
      values.map .ok ++ .panic m :: after.map readFilePreimage := by
    rw [List.map_append, List.map_cons, hbefore, hpanic]
  have hdrain := Feed.drain_eq_ok.2 (.inr ⟨m, _, hitems⟩)
  have hstart : Hashes (before ++ f :: after)
      (Feed.start ((before ++ f :: after).map readFilePreimage)) :=
    .refl
  obtain ⟨s, hrun, hresult, -⟩ := hashFiles_ends keccak256 version cfg hstart
  have hreach : Hashes (before ++ f :: after) s := hstart.trans hrun
  have hreceived := Feed.result_eq hreach hresult
  rw [hdrain] at hresult hreceived
  have hvalues : values = s.received := congrArg Prod.fst hreceived
  refine ⟨s, hreach, ?_⟩
  rw [hashFiles, hresult, hvalues]
  rfl

theorem not_hashesWhole_of_statFails (keccak256 : Bytes → FixedBytes 32) (version : Bytes)
    (cfg : BuildConfig) {before after : List SourceFile} {f : SourceFile}
    (hbefore : ∀ g ∈ before, Readable g) (hstat : StatFails f) :
    ¬HashesWhole keccak256 version cfg (before ++ f :: after) := by
  intro h
  obtain ⟨values, hvalues⟩ := preimages_of_readable hbefore
  obtain ⟨s, hs, hhash⟩ :=
    truncated_of_statFails keccak256 version cfg after hvalues hstat
  rcases (h s hs).2 _ hhash with ⟨preimages, hall, -⟩ | ⟨e, he⟩
  · obtain ⟨len, contents, hf⟩ := readable_of_preimages hall f (by simp)
    obtain ⟨e, contents', hf'⟩ := hstat
    rw [hf] at hf'
    cases hf'
  · cases he

/-- Hashing never returns the hash of some of the files exactly if no file fails to tell its
length, with all the files before it read. -/
theorem hashFiles_whole_iff (keccak256 : Bytes → FixedBytes 32) (version : Bytes)
    (cfg : BuildConfig) (files : List SourceFile) :
    HashesWhole keccak256 version cfg files ↔
      ∀ before f after, files = before ++ f :: after → (∀ g ∈ before, Readable g) →
        ¬StatFails f := by
  refine ⟨fun h => ?_, fun h => ?_⟩
  · intro before f after hfiles hbefore hstat
    subst hfiles
    exact not_hashesWhole_of_statFails keccak256 version cfg hbefore hstat h
  · intro s hs
    obtain ⟨s', hrun, -, hsome⟩ := hashFiles_ends keccak256 version cfg hs
    refine ⟨⟨s', hrun, hsome⟩, fun r hr => ?_⟩
    obtain ⟨result, hresult, rfl⟩ := Option.map_eq_some_iff.1 hr
    rcases result with e | ⟨⟩
    · exact .inr ⟨e, rfl⟩
    · rcases Feed.drain_eq_ok.1 (Feed.result_eq hs hresult) with hall | ⟨m, rest, hall⟩
      · exact .inl ⟨s.received, hall, rfl⟩
      · obtain ⟨before, panicking, hfiles, hbefore, hpanicking⟩ := List.map_eq_append_iff.1 hall
        obtain ⟨f, after, rfl, hf, -⟩ := List.map_eq_cons_iff.1 hpanicking
        exact absurd (readFilePreimage_eq_panic.1 ⟨m, hf⟩)
          (h before f after hfiles (readable_of_preimages hbefore))

/-- A file that is opened and does not tell its length. -/
def staleFile : SourceFile :=
  ⟨utf8 "./b.rs".toList, .ok ⟨.error "Stale file handle (os error 116)", .ok [0x62]⟩⟩

/-- The hash of two files is returned as that of the first, when the second does not tell its
length, whatever the hash function. -/
theorem staleFile_truncates :
    (¬∃ keccak256, HashesWhole keccak256 cargoVersion (BuildConfig.new false)
      [plainFile (utf8 "./a.rs".toList, [0x61]), staleFile]) ∧
    ∀ keccak256, ∃ s, Hashes [plainFile (utf8 "./a.rs".toList, [0x61]), staleFile] s ∧
      hashFiles keccak256 cargoVersion (BuildConfig.new false) s =
        some (.ok (keccak256 (cargoVersion ++ [0x01] ++
          fileRecord (utf8 "./a.rs".toList, [0x61])))) := by
  have hfits : Fits (utf8 "./a.rs".toList, [0x61]) := twoFiles_fits _ List.mem_cons_self
  have hread : [plainFile (utf8 "./a.rs".toList, [0x61])].map readFilePreimage =
      [fileRecord (utf8 "./a.rs".toList, [0x61])].map .ok :=
    congrArg (fun o => [o]) (readFilePreimage_plainFile hfits)
  have hstat : StatFails staleFile := ⟨_, _, rfl⟩
  refine ⟨fun hwhole => ?_, fun keccak256 => ?_⟩
  · obtain ⟨keccak256, hwhole⟩ := hwhole
    exact not_hashesWhole_of_statFails keccak256 _ _ (readable_of_preimages hread) hstat hwhole
  · have h := truncated_of_statFails keccak256 cargoVersion (BuildConfig.new false) [] hread hstat
    rwa [List.flatten_singleton] at h

end CargoStylus
