import Mathlib.Data.Multiset.Basic
import CargoStylus.Project
import CargoStylus.ProjectHash
import CargoStylus.SourceTree

/-!
# Building a project

`buildDylib` runs `cargo build`, looks for the artifact in the directory of the release build,
and compresses it. The artifact is called like the library, or else the package, with `_` for
`-`.

The search takes the first file whose name ends so, in the order in which the directory is
listed. So it finds the artifact in every order, or none if there is none, exactly if no other
file has a name that ends with the name of the artifact (`findArtifact_iff`).
-/

namespace CargoStylus

open Rust

/-! ## The manifest -/

/-- `toml::Value`. A value that is neither a string nor a table is kept as it is written. -/
inductive TomlValue where
  | string (s : Text)
  | table (entries : List (Text × TomlValue))
  | other (text : Text)

namespace TomlValue

/-- `Value::get`. -/
def get? (v : TomlValue) (key : Text) : Option TomlValue :=
  match v with
  | table entries => entries.lookup key
  | _ => none

/-- `Value::as_str`. -/
def asStr : TomlValue → Option Text
  | string s => some s
  | _ => none

/-- The name of the library, or else of the package. -/
def crateName? (cargoToml : TomlValue) : Option TomlValue :=
  ((cargoToml.get? "lib".toList).bind (get? · "name".toList)).or
    ((cargoToml.get? "package".toList).bind (get? · "name".toList))

end TomlValue

/-- A text that TOML writes as it is, between double quotes. -/
def PlainText (s : Text) : Prop :=
  ∀ c ∈ s, c ≠ '"' ∧ c ≠ '\\' ∧ 0x20 ≤ c.toNat ∧ c.toNat ≠ 0x7f

/-- The name of the manifest. -/
def cargoTomlName : Path.FileName :=
  ⟨utf8 "Cargo.toml".toList, by decide⟩

/-- What a build works with. A build that succeeds has a manifest with a name that `cargo`
accepts, which is plain. -/
structure BuildEnv where
  currentDir : Except String PathBuf
  readToString : PathBuf → Except String Text
  fromStr : Text → Except String TomlValue
  /-- `Display for toml::Value`. -/
  showValue : TomlValue → Text
  /-- Run `cargo` with these arguments, and whether it succeeds. -/
  cargo : List Text → Except String Bool
  read : PathBuf → Except String Bytes
  libs : WasmLibs
  showValue_string : ∀ s, PlainText s → showValue (.string s) = '"' :: (s ++ ['"'])
  crateName_of_cargo : ∀ {args cwd text cargoToml}, cargo args = .ok true →
    currentDir = .ok cwd → readToString (Path.join cwd cargoTomlName.1) = .ok text →
    fromStr text = .ok cargoToml → ∃ name, cargoToml.crateName? = some (.string name) ∧
      PlainText name

/-- What a directory lists, or an error. -/
abbrev ReadDir := PathBuf → Except String (List Entry)

section

variable (env : BuildEnv)

/-- Read the manifest as TOML. -/
def readCargoToml (cargoTomlPath : PathBuf) : Outcome String TomlValue := do
  let cargoTomlContents ← .wrapErr "expected to find a Cargo.toml file in project directory"
    (.ofExcept (env.readToString cargoTomlPath))
  .wrapErr "failed to parse Cargo.toml" (.ofExcept (env.fromStr cargoTomlContents))

/-- The version of the package, which has to be there and is not used. -/
def extractCargoTomlVersion (cargoTomlPath : PathBuf) : Outcome String Text := do
  let cargoToml ← readCargoToml env cargoTomlPath
  let pkg ← .ofOption "package section not found in Cargo.toml"
    (cargoToml.get? "package".toList)
  let version ← .ofOption "could not find version in project's Cargo.toml [package] section"
    (pkg.get? "version".toList)
  .ofOption "version in Cargo.toml's [package] section is not a string" version.asStr

/-- The name of the library as TOML shows it, or else that of the package. -/
def extractCargoLibOrProjectName (cargoTomlPath : PathBuf) : Outcome String Text := do
  let cargoToml ← readCargoToml env cargoTomlPath
  match (cargoToml.get? "lib".toList).bind (TomlValue.get? · "name".toList) with
  | some name => return env.showValue name
  | none => do
    let pkg ← .ofOption "package section not found in Cargo.toml"
      (cargoToml.get? "package".toList)
    let name ← .ofOption "could not find name in project's Cargo.toml [package] section"
      (pkg.get? "name".toList)
    return env.showValue name

end

/-! ## The build -/

/-- How a build ends without an artifact. -/
inductive BuildFailure where
  | report (message : String)
  | noWasmFound (path : PathBuf)
  | exit (status : ℕ)

/-- An error that is reported. -/
def orReport {α : Type} : Outcome String α → Outcome BuildFailure α
  | .ok a => .ok a
  | .err e => .err (.report e)
  | .panic m => .panic m

/-- `str::replace` of a character. -/
def replaceChar (c : Char) (replacement s : Text) : Text :=
  s.flatMap fun x => if x = c then replacement else [x]

/-- The target that contracts are built for. -/
def rustTarget : Text :=
  "wasm32-unknown-unknown".toList

/-- The arguments of `cargo build`. -/
def buildArgs (cfg : BuildConfig) : List Text :=
  ["build".toList, "--lib".toList, "--locked".toList] ++
  (match cfg.features with
    | some features => ["--features=".toList ++ features]
    | none => []) ++
  (if cfg.stable then [] else ["-Z".toList, "build-std=std,panic_abort".toList, "-Z".toList,
    "build-std-features=panic_immediate_abort".toList]) ++
  (if cfg.optLevel = .z then ["--config".toList, "profile.release.opt-level='z'".toList]
    else []) ++
  ["--release".toList, "--target=".toList ++ rustTarget]

/-- The directory of that target. -/
def rustTargetName : Path.FileName :=
  ⟨utf8 rustTarget, by decide⟩

/-- The directory of release builds. -/
def releaseName : Path.FileName :=
  ⟨utf8 "release".toList, by decide⟩

/-- The directory of the artifacts of a build. -/
def depsName : Path.FileName :=
  ⟨utf8 "deps".toList, by decide⟩

/-- The directory of the artifacts. -/
def releasePath (cwd : PathBuf) : PathBuf :=
  Path.join (Path.join (Path.join (Path.join cwd targetName.1) rustTargetName.1)
    releaseName.1) depsName.1

/-- The files among the entries of a directory. -/
def fileNames (entries : List Entry) : List Path.FileName :=
  entries.filterMap fun
    | .file name => some name
    | _ => none

/-- The paths of the files in a directory, in the order of the listing. -/
def releaseFiles (dir : PathBuf) (entries : List Entry) : List PathBuf :=
  (fileNames entries).map fun name => Path.join dir name.1

/-- Whether a file is taken for the artifact. -/
def isArtifact (projectName : Text) (path : PathBuf) : Bool :=
  match Path.fileName path with
  | some filename => (projectName ++ ".wasm".toList).isSuffixOf (fromUtf8Lossy filename)
  | none => false

/-- Build the project and look for the artifact. -/
def findArtifact (env : BuildEnv) (readDir : ReadDir) (cfg : BuildConfig) :
    Outcome BuildFailure PathBuf := do
  let cwd ← orReport (.mapErr ("could not get current dir: " ++ ·) (.ofExcept env.currentDir))
  let cargoTomlPath := Path.join cwd cargoTomlName.1
  let _cargoTomlVersion ← orReport (extractCargoTomlVersion env cargoTomlPath)
  let name ← orReport (extractCargoLibOrProjectName env cargoTomlPath)
  let projectName := replaceChar '"' [] (replaceChar '-' ['_'] name)
  let success ← orReport (.wrapErr "failed to execute cargo build"
    (.ofExcept (env.cargo (buildArgs cfg))))
  if success then
    let entries ← orReport (.mapErr ("could not read release deps dir: " ++ ·)
      (.ofExcept (readDir (releasePath cwd))))
    .ofOption (.noWasmFound (releasePath cwd))
      ((releaseFiles (releasePath cwd) entries).find? (isArtifact projectName))
  else .err (.exit 1)

/-- The artifact has to compress, and what it is compressed to is dropped. -/
def compressArtifact (env : BuildEnv) (wasmFilePath : PathBuf) : Outcome BuildFailure PathBuf := do
  let (_wasm, _code) ← orReport (.wrapErr "failed to compress WASM"
    (compressWasm env.libs wasmFilePath (env.read wasmFilePath) (filled 32 0)))
  return wasmFilePath

/-- Build a Rust project to WASM and return the path to the compiled WASM file. -/
def buildDylib (env : BuildEnv) (readDir : ReadDir) (cfg : BuildConfig) :
    Outcome BuildFailure PathBuf := do
  let wasmFilePath ← findArtifact env readDir cfg
  compressArtifact env wasmFilePath

/-! ## Which file is found -/

/-- A build that succeeds, of a crate in the directory `cwd`, with what the directory of the
artifacts then lists. -/
structure BuiltCrate (env : BuildEnv) (readDir : ReadDir) (cfg : BuildConfig) (cwd : PathBuf)
    (name : Text) (entries : List Entry) : Prop where
  currentDir : env.currentDir = .ok cwd
  version : (extractCargoTomlVersion env (Path.join cwd cargoTomlName.1)).IsOk
  name : ∃ cargoToml, readCargoToml env (Path.join cwd cargoTomlName.1) = .ok cargoToml ∧
    cargoToml.crateName? = some (.string name)
  build : env.cargo (buildArgs cfg) = .ok true
  entries : readDir (releasePath cwd) = .ok entries

/-- The same entries everywhere, in any order. -/
def Reenumerates (readDir readDir' : ReadDir) : Prop :=
  ∀ path, (readDir' path).map Multiset.ofList = (readDir path).map Multiset.ofList

/-- A name with `_` for `-`. -/
def underscored (name : Text) : Text :=
  name.map fun c => if c = '-' then '_' else c

/-- The name of the artifact of a crate. -/
def artifactName (name : Text) : Text :=
  underscored name ++ ".wasm".toList

/-- The file of exactly that name is in the directory. -/
def HasArtifact (name : Text) (entries : List Entry) : Prop :=
  ∃ file ∈ fileNames entries, file.1 = utf8 (artifactName name)

instance (name : Text) (entries : List Entry) : Decidable (HasArtifact name entries) := by
  unfold HasArtifact
  infer_instance

/-- The file of exactly that name, if it is there. -/
def exactArtifact (cwd : PathBuf) (name : Text) (entries : List Entry) :
    Outcome BuildFailure PathBuf :=
  if HasArtifact name entries then
    .ok (Path.join (releasePath cwd) (utf8 (artifactName name)))
  else .err (.noWasmFound (releasePath cwd))

/-- No other file has a name that ends with that name. -/
def OnlyArtifact (name : Text) (entries : List Entry) : Prop :=
  ∀ file ∈ fileNames entries, artifactName name <:+ fromUtf8Lossy file.1 →
    file.1 = utf8 (artifactName name)

variable {env : BuildEnv} {readDir readDir' : ReadDir} {cfg : BuildConfig} {cwd : PathBuf}
  {name : Text} {entries entries' : List Entry}

theorem replaceChar_singleton (c d : Char) (s : Text) :
    replaceChar c [d] s = s.map fun x => if x = c then d else x := by
  induction s with
  | nil => rfl
  | cons x s ih =>
    rw [replaceChar] at ih
    rw [replaceChar, List.flatMap_cons, ih, List.map_cons]
    split_ifs <;> rfl

theorem replaceChar_nil (c : Char) (s : Text) : replaceChar c [] s = s.filter (· ≠ c) := by
  induction s with
  | nil => rfl
  | cons x s ih =>
    rw [replaceChar] at ih
    rw [replaceChar, List.flatMap_cons, ih, List.filter_cons]
    by_cases hx : x = c <;> simp [hx]

/-- The quotes go, and nothing else, as a plain text has none. -/
theorem replaceChar_quoted (h : PlainText name) :
    replaceChar '"' [] (replaceChar '-' ['_'] ('"' :: (name ++ ['"']))) = underscored name := by
  have hname : (underscored name).filter (· ≠ '"') = underscored name := by
    refine List.filter_eq_self.2 fun c hc => ?_
    obtain ⟨x, hx, rfl⟩ := List.mem_map.1 hc
    have hquote := (h x hx).1
    split_ifs
    · decide
    · simpa using hquote
  have hquote : (['"'] : Text).filter (· ≠ '"') = [] := by decide
  have hsplit : replaceChar '-' ['_'] ('"' :: (name ++ ['"'])) =
      ['"'] ++ underscored name ++ ['"'] := by
    rw [replaceChar_singleton, List.map_cons, List.map_append]
    rfl
  rw [hsplit, replaceChar_nil, List.filter_append, List.filter_append, hname, hquote,
    List.nil_append, List.append_nil]

theorem extractCargoLibOrProjectName_eq {cargoTomlPath : PathBuf} {cargoToml value : TomlValue}
    (hread : readCargoToml env cargoTomlPath = .ok cargoToml)
    (hname : cargoToml.crateName? = some value) :
    extractCargoLibOrProjectName env cargoTomlPath = .ok (env.showValue value) := by
  rw [extractCargoLibOrProjectName, hread, Outcome.ok_bind]
  rw [TomlValue.crateName?] at hname
  rcases hlib : (cargoToml.get? "lib".toList).bind (TomlValue.get? · "name".toList) with _ | lib
  · rw [hlib, Option.none_or] at hname
    obtain ⟨pkg, hpkg, hvalue⟩ := Option.bind_eq_some_iff.1 hname
    simp only [hpkg, Outcome.ofOption, Outcome.ok_bind, hvalue, Outcome.pure_eq]
  · rw [hlib, Option.some_or] at hname
    obtain rfl := Option.some.inj hname
    rfl

/-- A crate that `cargo` builds has a plain name. -/
theorem BuiltCrate.plainText (h : BuiltCrate env readDir cfg cwd name entries) :
    PlainText name := by
  obtain ⟨cargoToml, hread, hname⟩ := h.name
  obtain ⟨text, htext, hparse⟩ := Outcome.bind_eq_ok.1 hread
  obtain ⟨name', hname', hplain⟩ := env.crateName_of_cargo h.build h.currentDir
    (Outcome.ofExcept_eq_ok.1 (Outcome.wrapErr_eq_ok.1 htext))
    (Outcome.ofExcept_eq_ok.1 (Outcome.wrapErr_eq_ok.1 hparse))
  obtain rfl : name = name' := TomlValue.string.inj (Option.some.inj (hname.symm.trans hname'))
  exact hplain

/-- A build finds the first file with a name that ends so. -/
theorem findArtifact_of_builtCrate (h : BuiltCrate env readDir cfg cwd name entries) :
    findArtifact env readDir cfg = .ofOption (.noWasmFound (releasePath cwd))
      ((releaseFiles (releasePath cwd) entries).find? (isArtifact (underscored name))) := by
  obtain ⟨version, hversion⟩ := h.version
  obtain ⟨cargoToml, hread, hname⟩ := h.name
  have hshown := extractCargoLibOrProjectName_eq hread hname
  rw [env.showValue_string name h.plainText] at hshown
  simp only [findArtifact, h.currentDir, h.build, h.entries, hversion, hshown, orReport,
    Outcome.ofExcept, Outcome.mapErr, Outcome.wrapErr, Outcome.ok_bind, if_true,
    replaceChar_quoted h.plainText]

theorem isArtifact_join (file : Path.FileName) :
    isArtifact (underscored name) (Path.join (releasePath cwd) file.1) = true ↔
      artifactName name <:+ fromUtf8Lossy file.1 := by
  rw [isArtifact, releasePath, Path.fileName_join]
  exact List.isSuffixOf_iff_suffix

theorem join_releasePath_inj {file file' : Path.FileName}
    (h : Path.join (releasePath cwd) file.1 = Path.join (releasePath cwd) file'.1) :
    file = file' := by
  have hname := congrArg Path.fileName h
  rw [releasePath, Path.fileName_join, Path.fileName_join] at hname
  exact Subtype.ext (Option.some.inj hname)

/-- Where no other file has such a name, the build finds the artifact. -/
theorem findArtifact_eq (h : BuiltCrate env readDir cfg cwd name entries)
    (honly : OnlyArtifact name entries) :
    findArtifact env readDir cfg = exactArtifact cwd name entries := by
  rw [findArtifact_of_builtCrate h, exactArtifact]
  rcases hfind : (releaseFiles (releasePath cwd) entries).find? (isArtifact (underscored name))
    with _ | path
  · refine (if_neg ?_).symm
    rintro ⟨file, hfile, hexact⟩
    have hname : fromUtf8Lossy file.1 = artifactName name := by rw [hexact, fromUtf8Lossy_utf8]
    exact List.find?_eq_none.1 hfind _ (List.mem_map_of_mem hfile)
      (isArtifact_join file |>.2 (hname ▸ List.suffix_rfl))
  · obtain ⟨file, hfile, rfl⟩ := List.mem_map.1 (List.mem_of_find?_eq_some hfind)
    have hexact := honly file hfile (isArtifact_join file |>.1 (List.find?_some hfind))
    have hfound : Path.join (releasePath cwd) file.1 =
        Path.join (releasePath cwd) (utf8 (artifactName name)) := by rw [hexact]
    exact (congrArg Outcome.ok hfound).trans (if_pos ⟨file, hfile, hexact⟩).symm

theorem BuiltCrate.reenumerate (h : BuiltCrate env readDir cfg cwd name entries)
    (hread : Reenumerates readDir readDir') :
    ∃ entries', entries'.Perm entries ∧ BuiltCrate env readDir' cfg cwd name entries' := by
  have hlisting := hread (releasePath cwd)
  rw [h.entries] at hlisting
  rcases hentries : readDir' (releasePath cwd) with e | entries'
  · rw [hentries] at hlisting
    cases hlisting
  · rw [hentries] at hlisting
    refine ⟨entries', Multiset.coe_eq_coe.1 (Except.ok.inj hlisting), ?_⟩
    exact ⟨h.currentDir, h.version, h.name, h.build, hentries⟩

theorem mem_fileNames {file : Path.FileName} : file ∈ fileNames entries ↔ .file file ∈ entries := by
  rw [fileNames, List.mem_filterMap]
  constructor
  · rintro ⟨entry, hentry, hfile⟩
    rcases entry with name | _ | _ | _ <;> cases hfile
    exact hentry
  · exact fun h => ⟨_, h, rfl⟩

theorem hasArtifact_iff_of_perm (h : entries'.Perm entries) :
    HasArtifact name entries' ↔ HasArtifact name entries := by
  simp only [HasArtifact, mem_fileNames, h.mem_iff]

theorem onlyArtifact_iff_of_perm (h : entries'.Perm entries) :
    OnlyArtifact name entries' ↔ OnlyArtifact name entries := by
  simp only [OnlyArtifact, mem_fileNames, h.mem_iff]

theorem exactArtifact_eq_of_perm (h : entries'.Perm entries) :
    exactArtifact cwd name entries' = exactArtifact cwd name entries := by
  simp only [exactArtifact, hasArtifact_iff_of_perm h]

theorem reenumerates_update {path : PathBuf} (h : readDir path = .ok entries)
    (hperm : entries'.Perm entries) :
    Reenumerates readDir (Function.update readDir path (.ok entries')) := by
  intro path'
  rcases eq_or_ne path' path with rfl | hpath
  · rw [h, Function.update_self]
    exact congrArg Except.ok (Multiset.coe_eq_coe.2 hperm)
  · rw [Function.update_of_ne hpath]

/-- A file with such a name is found when it is listed first. -/
theorem onlyArtifact_of_findArtifact (h : BuiltCrate env readDir cfg cwd name entries)
    (hfinds : ∀ readDir', Reenumerates readDir readDir' →
      findArtifact env readDir' cfg = exactArtifact cwd name entries) :
    OnlyArtifact name entries := by
  intro file hfile hsuffix
  obtain ⟨before, after, rfl⟩ := List.append_of_mem (mem_fileNames.1 hfile)
  let readDir' := Function.update readDir (releasePath cwd)
    (.ok (.file file :: (before ++ after)))
  have hread : Reenumerates readDir readDir' :=
    reenumerates_update h.entries List.perm_middle.symm
  have hfirst : BuiltCrate env readDir' cfg cwd name (.file file :: (before ++ after)) :=
    ⟨h.currentDir, h.version, h.name, h.build, Function.update_self ..⟩
  have hfound : findArtifact env readDir' cfg = .ok (Path.join (releasePath cwd) file.1) := by
    rw [findArtifact_of_builtCrate hfirst]
    have hcons : releaseFiles (releasePath cwd) (.file file :: (before ++ after)) =
        Path.join (releasePath cwd) file.1 :: releaseFiles (releasePath cwd) (before ++ after) :=
      rfl
    rw [hcons, List.find?_cons_of_pos ((isArtifact_join file).2 hsuffix)]
    rfl
  have hexact := hfound.symm.trans (hfinds readDir' hread)
  rw [exactArtifact] at hexact
  split_ifs at hexact with hhas
  obtain ⟨exact', -, hname⟩ := hhas
  rw [← hname] at hexact ⊢
  rw [join_releasePath_inj (Outcome.ok.inj hexact)]

/-- The build finds the artifact, or none if there is none, in every order of the entries exactly
if no other file has a name that ends with the name of the artifact. -/
theorem findArtifact_iff (h : BuiltCrate env readDir cfg cwd name entries) :
    (∀ readDir', Reenumerates readDir readDir' →
      findArtifact env readDir' cfg = exactArtifact cwd name entries ∧
      buildDylib env readDir' cfg = exactArtifact cwd name entries >>= compressArtifact env) ↔
    OnlyArtifact name entries := by
  refine ⟨fun hfinds => onlyArtifact_of_findArtifact h fun readDir' hread =>
    (hfinds readDir' hread).1, fun honly readDir' hread => ?_⟩
  obtain ⟨entries', hperm, h'⟩ := h.reenumerate hread
  have hfound : findArtifact env readDir' cfg = exactArtifact cwd name entries := by
    rw [findArtifact_eq h' ((onlyArtifact_iff_of_perm hperm).2 honly),
      exactArtifact_eq_of_perm hperm]
  exact ⟨hfound, by rw [buildDylib, hfound]⟩

/-! ## A project called `foo` -/

/-- Its manifest, as a TOML value. -/
def fooManifest : TomlValue :=
  .table [("package".toList, .table [("name".toList, .string "foo".toList),
    ("version".toList, .string "0.1.0".toList)])]

/-- Its manifest, as text. -/
def fooManifestText : Text :=
  "[package]\nname = \"foo\"\nversion = \"0.1.0\"\n".toList

/-- How TOML shows a value : a string in quotes, and no table. -/
def showString : TomlValue → Text
  | .string s => '"' :: (s ++ ['"'])
  | .table _ => []
  | .other text => text

theorem plainText_foo : PlainText "foo".toList := by
  intro c hc
  have hchar : c = 'f' ∨ c = 'o' := by simpa using hc
  rcases hchar with rfl | rfl <;> decide

theorem crateName_fooManifest : fooManifest.crateName? = some (.string "foo".toList) :=
  rfl

theorem showString_string (s : Text) (_ : PlainText s) :
    showString (.string s) = '"' :: (s ++ ['"']) :=
  rfl

theorem crateName_of_fooManifest {cargoToml : TomlValue}
    (h : (.ok fooManifest : Except String TomlValue) = .ok cargoToml) :
    ∃ name, cargoToml.crateName? = some (.string name) ∧ PlainText name := by
  obtain rfl := Except.ok.inj h
  exact ⟨_, crateName_fooManifest, plainText_foo⟩

/-- The project, which is in `/foo`, builds. -/
def fooEnv : BuildEnv where
  currentDir := .ok (utf8 "/foo".toList)
  readToString _ := .ok fooManifestText
  fromStr _ := .ok fooManifest
  showValue := showString
  cargo _ := .ok true
  read _ := .ok memoryModule
  libs := sectionLibs
  showValue_string := showString_string
  crateName_of_cargo := fun _ _ _ => crateName_of_fooManifest

/-- The artifact of the project. -/
def fooWasm : Path.FileName :=
  ⟨utf8 "foo.wasm".toList, by decide⟩

/-- An artifact whose name ends with that of the project's. -/
def otherFooWasm : Path.FileName :=
  ⟨utf8 "other_foo.wasm".toList, by decide⟩

theorem builtCrate_foo (entries : List Entry) :
    BuiltCrate fooEnv (fun _ => .ok entries) (BuildConfig.new true) (utf8 "/foo".toList)
      "foo".toList entries where
  currentDir := rfl
  version := ⟨"0.1.0".toList, rfl⟩
  name := ⟨fooManifest, rfl, crateName_fooManifest⟩
  build := rfl
  entries := rfl

/-- The artifact is found if nothing else is there, in every order. -/
theorem findArtifact_foo :
    (∀ readDir', Reenumerates (fun _ => .ok [.dir targetName [], .file fooWasm]) readDir' →
      findArtifact fooEnv readDir' (BuildConfig.new true) =
        exactArtifact (utf8 "/foo".toList) "foo".toList [.dir targetName [], .file fooWasm] ∧
      buildDylib fooEnv readDir' (BuildConfig.new true) =
        exactArtifact (utf8 "/foo".toList) "foo".toList [.dir targetName [], .file fooWasm] >>=
          compressArtifact fooEnv) ↔
    OnlyArtifact "foo".toList [.dir targetName [], .file fooWasm] :=
  findArtifact_iff (builtCrate_foo _)

/-- Another crate's artifact is deployed, if it is listed first. -/
theorem otherFoo_found :
    ¬∀ (env : BuildEnv) (readDir : ReadDir) (cfg : BuildConfig) (cwd : PathBuf) (name : Text)
      (entries : List Entry), BuiltCrate env readDir cfg cwd name entries →
      ∀ readDir', Reenumerates readDir readDir' →
        findArtifact env readDir' cfg = exactArtifact cwd name entries := by
  intro h
  have honly := onlyArtifact_of_findArtifact (builtCrate_foo [.file otherFooWasm, .file fooWasm])
    (h _ _ _ _ _ _ (builtCrate_foo _))
  have hsuffix : artifactName "foo".toList <:+ fromUtf8Lossy otherFooWasm.1 := by
    rw [otherFooWasm, fromUtf8Lossy_utf8]
    decide
  exact absurd (honly otherFooWasm List.mem_cons_self hsuffix) (by decide)

end CargoStylus
