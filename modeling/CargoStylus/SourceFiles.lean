import CargoStylus.ProjectHash
import CargoStylus.SourceTree

/-!
# Which files are hashed

The toolchain file is always hashed. The other files are those below `.` that the given
patterns match, or without patterns the Rust files and Cargo's two files. They are hashed in
the order of their paths, whatever order the file system lists them in
(`hashedStream_of_reordered`).

A pattern is expanded by a library to paths, and a file is selected if its path is one of
them. But the walk starts at `.`, so its paths have a leading `.`, and a path that a
relative pattern is expanded to has none. So no file is ever selected by a relative pattern,
and patterns that are expanded to nothing are taken for no patterns. Exactly the files
that are matched are hashed only where there are no such files, and no files that are
hashed without patterns (`selectsMatched_iff`).
-/

namespace CargoStylus

open Rust

/-! ## Selecting files -/

/-- The library that expands patterns. -/
structure Glob where
  /-- The paths a pattern is expanded to, and errors in the place of some. -/
  expand : Text → Except String (List (Except String PathBuf))
  /-- A relative pattern gives no path that starts with `./`. -/
  relative : ∀ {pattern : Text} {results : List (Except String PathBuf)} {path : PathBuf},
    pattern.head? ≠ some '/' → expand pattern = .ok results → .ok path ∈ results →
      ¬[Path.dot, Path.separator] <+: path

/-- The paths of one pattern, unless there is an error among them. -/
def collectPaths : List (Except String PathBuf) → Outcome String (List PathBuf)
  | [] => .ok []
  | result :: results => do
    let path ← .mapErr ("Error processing path: " ++ ·) (.ofExcept result)
    let paths ← collectPaths results
    return path :: paths

/-- The paths that the patterns are expanded to, unless one of them is an error. -/
def expandGlobPatterns (glob : Glob) : List Text → Outcome String (List PathBuf)
  | [] => .ok []
  | pattern :: patterns => do
    let results ← .mapErr
      (fun e => "Failed to read glob pattern '" ++ String.ofList pattern ++ "': " ++ e)
      (.ofExcept (glob.expand pattern))
    let paths ← collectPaths results
    let rest ← expandGlobPatterns glob patterns
    return paths ++ rest

/-- The files that are hashed without patterns. -/
def isDefault (name : Bytes) : Bool :=
  name = utf8 "Cargo.toml".toList || name = utf8 "Cargo.lock".toList ||
    ".rs".toList.isSuffixOf (fromUtf8Lossy name)

/-- A file is selected if it is one of the expanded paths, or by default without any. -/
def isSelected (globPaths : List PathBuf) (path : PathBuf) : Bool :=
  match Path.fileName path with
  | none => false
  | some name =>
    if globPaths ≠ [] then globPaths.any fun globPath => Path.eq globPath path
    else isDefault name

/-- `all_paths` : the files of the tree that are selected. -/
def allPaths (glob : Glob) (rootDir : PathBuf) (root : Except String (List Entry))
    (sourceFilePatterns : List Text) : Outcome String (List PathBuf) := do
  let globPaths ← expandGlobPatterns glob sourceFilePatterns
  visitDirectories (isSelected globPaths) ⟨[], [(rootDir, root)]⟩

/-- What the file system has at `.` : the toolchain file, and the entries. -/
structure Project where
  toolchain : Except String Unit
  root : Except String (List Entry)

/-- The name of the toolchain file. -/
def toolchainFileName : Path.FileName :=
  ⟨utf8 "rust-toolchain.toml".toList, by decide⟩

/-- The toolchain file in the current directory. -/
def toolchainFilePath : PathBuf :=
  Path.join (Path.dotPath []) toolchainFileName.1

/-- The paths of the files to hash, in order. -/
def hashedPaths (glob : Glob) (project : Project) (sourceFilePatterns : List Text) :
    Outcome String (List PathBuf) := do
  let _ ← .wrapErr ("expected to find a rust-toolchain.toml file in project directory " ++
    "to specify your Rust toolchain for reproducible verification") (.ofExcept project.toolchain)
  let paths ← allPaths glob (Path.dotPath []) project.root sourceFilePatterns
  return Path.sortPaths (paths ++ [toolchainFilePath])

variable {glob : Glob} {project project' : Project} {patterns : List Text}

theorem toolchainFilePath_eq : toolchainFilePath = Path.dotPath [toolchainFileName] :=
  Path.join_dotPath [] toolchainFileName

/-- The selected files and the toolchain file in order, for any order of the files. -/
theorem sortPaths_selected_eq (selected : PathBuf → Bool) {names names' : List (List Path.FileName)}
    (h : names.Perm names') :
    Path.sortPaths (selectedPaths selected names ++ [toolchainFilePath]) =
      Path.sortPaths (selectedPaths selected names' ++ [toolchainFilePath]) := by
  have hdot : ∀ path ∈ selectedPaths selected names ++ [toolchainFilePath],
      ∃ names, path = Path.dotPath names := by
    intro path hpath
    rcases List.mem_append.1 hpath with hpath | hpath
    · obtain ⟨names, -, rfl⟩ := List.mem_map.1 (List.mem_filter.1 hpath).1
      exact ⟨names, rfl⟩
    · exact ⟨_, (List.mem_singleton.1 hpath).trans toolchainFilePath_eq⟩
  refine Path.sortPaths_eq_of_perm (((h.map _).filter _).append_right _) fun a ha b hb hab => ?_
  obtain ⟨names, rfl⟩ := hdot a ha
  obtain ⟨names', rfl⟩ := hdot b hb
  exact Path.dotPath_eq_of_components hab

/-- The files to hash are those found and selected, and there are none only if something
fails. -/
theorem hashedPaths_eq_ok {paths : List PathBuf} :
    hashedPaths glob project patterns = .ok paths ↔
      project.toolchain = .ok () ∧ ∃ entries, project.root = .ok entries ∧
        ¬ListingFails entries ∧ ∃ globPaths, expandGlobPatterns glob patterns = .ok globPaths ∧
        paths = Path.sortPaths
          (selectedPaths (isSelected globPaths) (foundNames entries) ++ [toolchainFilePath]) := by
  simp only [hashedPaths, allPaths, Outcome.bind_eq_ok, Outcome.wrapErr_eq_ok,
    Outcome.ofExcept_eq_ok, Outcome.pure_eq, Outcome.ok.injEq]
  refine ⟨fun h => ?_, fun h => ?_⟩
  · obtain ⟨⟨⟩, htoolchain, found, ⟨globPaths, hglob, hfound⟩, rfl⟩ := h
    rcases hentries : project.root with e | entries
    · rw [hentries] at hfound
      obtain ⟨e, he⟩ := visitDirectories_error (isSelected globPaths) [] (Path.dotPath []) e []
      rw [he] at hfound
      cases hfound
    · rw [hentries] at hfound
      rcases visitRoot_spec (isSelected globPaths) entries with
        ⟨names, hvisit, hperm, hfails⟩ | ⟨⟨e, hvisit⟩, -⟩
      · rw [hvisit] at hfound
        obtain rfl := Outcome.ok.inj hfound
        exact ⟨htoolchain, entries, rfl, hfails, globPaths, hglob, sortPaths_selected_eq _ hperm⟩
      · rw [hvisit] at hfound
        cases hfound
  · obtain ⟨htoolchain, entries, hentries, hfails, globPaths, hglob, rfl⟩ := h
    rcases visitRoot_spec (isSelected globPaths) entries with
      ⟨names, hvisit, hperm, -⟩ | ⟨-, hfails'⟩
    · rw [← hentries] at hvisit
      exact ⟨(), htoolchain, selectedPaths (isSelected globPaths) names,
        ⟨globPaths, hglob, hvisit⟩, sortPaths_selected_eq _ hperm⟩
    · exact absurd hfails' hfails

theorem mem_hashedPaths {paths : List PathBuf} {globPaths : List PathBuf} {entries : List Entry}
    (hpaths : paths = Path.sortPaths
      (selectedPaths (isSelected globPaths) (foundNames entries) ++ [toolchainFilePath]))
    {path : PathBuf} (hne : path ≠ toolchainFilePath) :
    path ∈ paths ↔ ∃ names, path = Path.dotPath names ∧ FileBelow entries names ∧
      isSelected globPaths (Path.dotPath names) = true := by
  rw [hpaths, Path.mem_sortPaths, List.mem_append, List.mem_singleton, or_iff_left hne,
    selectedPaths, List.mem_filter, List.mem_map]
  refine ⟨fun h => ?_, fun h => ?_⟩
  · obtain ⟨⟨names, hnames, rfl⟩, hselected⟩ := h
    exact ⟨names, rfl, mem_foundNames.1 hnames, hselected⟩
  · obtain ⟨names, rfl, hbelow, hselected⟩ := h
    exact ⟨⟨names, mem_foundNames.2 hbelow, rfl⟩, hselected⟩

/-! ## The order of the file system does not count -/

/-- The same project, listed in some other order. -/
structure Project.Reordered (project project' : Project) : Prop where
  toolchain : project.toolchain = project'.toolchain
  root : (∃ e, project.root = .error e ∧ project'.root = .error e) ∨
    ∃ entries entries', project.root = .ok entries ∧ project'.root = .ok entries' ∧
      CargoStylus.Reordered entries entries'

theorem hashedPaths_of_reordered (h : project.Reordered project') {paths : List PathBuf} :
    hashedPaths glob project patterns = .ok paths ↔
      hashedPaths glob project' patterns = .ok paths := by
  obtain ⟨htoolchain, ⟨e, he, he'⟩ | ⟨entries, entries', hentries, hentries', hreorder⟩⟩ := h
  · simp only [hashedPaths_eq_ok, he, he']
    simp
  · have hperm := hreorder.foundIn_perm []
    have hfails : ListingFails entries ↔ ListingFails entries' := by
      rw [← none_mem_foundIn, ← none_mem_foundIn, hperm.mem_iff]
    have hsort : ∀ selected,
        Path.sortPaths (selectedPaths selected (foundNames entries) ++ [toolchainFilePath]) =
          Path.sortPaths (selectedPaths selected (foundNames entries') ++ [toolchainFilePath]) :=
      fun selected => sortPaths_selected_eq selected (hperm.filterMap id)
    simp only [hashedPaths_eq_ok, htoolchain, hentries, hentries', Except.ok.injEq,
      exists_eq_left', hfails, hsort]

/-- A path with what opening it gives. -/
def sourceFile (openFile : PathBuf → Except String OpenFile) (path : PathBuf) : SourceFile :=
  ⟨path, openFile path⟩

section Runs

variable (openFile : PathBuf → Except String OpenFile) (version : Bytes) (cfg : BuildConfig)

/-- What is fed to the hash in a run that has ended : the version and the level only, where
finding the files fails. -/
inductive Feeds (glob : Glob) (project : Project) (patterns : List Text) : Bytes → Prop
  | stopped : (∀ paths, hashedPaths glob project patterns ≠ .ok paths) →
      Feeds glob project patterns (version ++ [cfg.optLevel.byte])
  | hashed {paths : List PathBuf} {s : Feed String Bytes} {r : Except String Unit} :
      hashedPaths glob project patterns = .ok paths → Hashes (paths.map (sourceFile openFile)) s →
      s.result = some r → Feeds glob project patterns (hashedStream version cfg s)

/-- The stream for files that are read in order until one is not. -/
def readStream (paths : List PathBuf) : Bytes :=
  version ++ [cfg.optLevel.byte] ++
    (Feed.drain ((paths.map (sourceFile openFile)).map readFilePreimage)).1.flatten

/-- The files fix what is fed, whatever the order of the threads' steps. -/
theorem feeds_iff {paths : List PathBuf} (h : hashedPaths glob project patterns = .ok paths)
    (stream : Bytes) :
    Feeds openFile version cfg glob project patterns stream ↔
      stream = readStream openFile version cfg paths := by
  refine ⟨fun hfeeds => ?_, fun hstream => ?_⟩
  · rcases hfeeds with hnone | ⟨h', hs, hr⟩
    · exact absurd h (hnone paths)
    · obtain rfl := Outcome.ok.inj (h.symm.trans h')
      rw [readStream, Feed.result_eq hs hr]
      rfl
  · obtain ⟨s, hrun, hresult⟩ := Feed.exists_result_of_reachable
      (Feed.start ((paths.map (sourceFile openFile)).map readFilePreimage)) .refl
    have hreceived := congrArg Prod.fst (Feed.result_eq hrun hresult)
    have heq : hashedStream version cfg s = readStream openFile version cfg paths := by
      rw [hashedStream, readStream, hreceived]
    rw [hstream, ← heq]
    exact .hashed h hrun hresult

theorem feeds_iff_of_stopped (h : ∀ paths, hashedPaths glob project patterns ≠ .ok paths)
    (stream : Bytes) :
    Feeds openFile version cfg glob project patterns stream ↔
      stream = version ++ [cfg.optLevel.byte] := by
  refine ⟨fun hfeeds => ?_, fun hstream => ?_⟩
  · rcases hfeeds with hnone | ⟨h', -, -⟩
    · rfl
    · exact absurd h' (h _)
  · rw [hstream]
    exact .stopped h

/-- Listing the directories in another order and another interleaving of the threads feed
the same stream, and no other. -/
theorem hashedStream_of_reordered (glob : Glob) {project project' : Project}
    (h : project.Reordered project') :
    ∃ stream, (∀ t, Feeds openFile version cfg glob project [] t ↔ t = stream) ∧
      ∀ t, Feeds openFile version cfg glob project' [] t ↔ t = stream := by
  by_cases hpaths : ∃ paths, hashedPaths glob project [] = .ok paths
  · obtain ⟨paths, hpaths⟩ := hpaths
    exact ⟨_, feeds_iff openFile version cfg hpaths,
      feeds_iff openFile version cfg ((hashedPaths_of_reordered h).1 hpaths)⟩
  · have hnone := not_exists.1 hpaths
    exact ⟨_, feeds_iff_of_stopped openFile version cfg hnone,
      feeds_iff_of_stopped openFile version cfg fun paths hpaths =>
        hnone paths ((hashedPaths_of_reordered h).2 hpaths)⟩

end Runs

/-- A source file. -/
def libName : Path.FileName :=
  ⟨utf8 "lib.rs".toList, by decide⟩

/-- The directory of the sources. -/
def srcName : Path.FileName :=
  ⟨utf8 "src".toList, by decide⟩

/-- A project with one source file. -/
def libProject : Project where
  toolchain := .ok ()
  root := .ok [.file toolchainFileName, .dir srcName [.file libName]]

/-- The same project, listed in the other order. -/
def libProject' : Project where
  toolchain := .ok ()
  root := .ok [.dir srcName [.file libName], .file toolchainFileName]

/-- A library that finds the source file for one pattern, and nothing for others. -/
def srcGlob : Glob where
  expand pattern :=
    if pattern = "src/*.rs".toList then .ok [.ok (utf8 "src/lib.rs".toList)] else .ok []
  relative := by
    intro pattern results path _ hresults hpath
    split_ifs at hresults
    · obtain rfl := Except.ok.inj hresults
      obtain rfl := Except.ok.inj (List.mem_singleton.1 hpath)
      decide
    · obtain rfl := Except.ok.inj hresults
      cases hpath

theorem libProject_reordered : libProject.Reordered libProject' :=
  ⟨rfl, .inr ⟨_, _, rfl, rfl, .swap _ _ _⟩⟩

theorem hashedStream_libProject : libProject.Reordered libProject' ∧
    ∃ stream, (∀ t, Feeds (fun _ => .ok ⟨.ok 1, .ok [0x61]⟩) cargoVersion
        (BuildConfig.new false) srcGlob libProject [] t ↔ t = stream) ∧
      ∀ t, Feeds (fun _ => .ok ⟨.ok 1, .ok [0x61]⟩) cargoVersion
        (BuildConfig.new false) srcGlob libProject' [] t ↔ t = stream :=
  ⟨libProject_reordered, hashedStream_of_reordered _ _ _ srcGlob libProject_reordered⟩

/-! ## What patterns select -/

/-- A pattern is expanded to a path that leads to the file. -/
def Matched (glob : Glob) (cwd : List Bytes) (patterns : List Text)
    (names : List Path.FileName) : Prop :=
  ∃ pattern ∈ patterns, ∃ results path, glob.expand pattern = .ok results ∧
    .ok path ∈ results ∧ Path.resolve cwd path = Path.resolve cwd (Path.dotPath names)

/-- Besides the toolchain file, the files to hash are those that a pattern matches. -/
def SelectsMatched (glob : Glob) (cwd : List Bytes) (project : Project)
    (patterns : List Text) : Prop :=
  ∀ paths entries, hashedPaths glob project patterns = .ok paths → project.root = .ok entries →
    ∀ path ≠ toolchainFilePath, path ∈ paths ↔
      ∃ names, path = Path.dotPath names ∧ FileBelow entries names ∧
        Matched glob cwd patterns names

/-- An expanded path is a result of one of the patterns. -/
theorem mem_collectPaths : ∀ {results : List (Except String PathBuf)} {paths : List PathBuf},
    collectPaths results = .ok paths → ∀ path, path ∈ paths ↔ .ok path ∈ results
  | [], paths, h => by
    obtain rfl := Outcome.ok.inj h
    simp
  | result :: results, paths, h => by
    simp only [collectPaths, Outcome.bind_eq_ok, Outcome.mapErr_eq_ok, Outcome.ofExcept_eq_ok,
      Outcome.pure_eq, Outcome.ok.injEq] at h
    obtain ⟨path, rfl, rest, hrest, rfl⟩ := h
    simp [mem_collectPaths hrest]

theorem mem_expandGlobPatterns : ∀ {patterns : List Text} {globPaths : List PathBuf},
    expandGlobPatterns glob patterns = .ok globPaths → ∀ path, path ∈ globPaths ↔
      ∃ pattern ∈ patterns, ∃ results, glob.expand pattern = .ok results ∧ .ok path ∈ results
  | [], globPaths, h => by
    obtain rfl := Outcome.ok.inj h
    simp
  | pattern :: patterns, globPaths, h => by
    simp only [expandGlobPatterns, Outcome.bind_eq_ok, Outcome.mapErr_eq_ok,
      Outcome.ofExcept_eq_ok, Outcome.pure_eq, Outcome.ok.injEq] at h
    obtain ⟨results, hresults, paths, hpaths, rest, hrest, rfl⟩ := h
    intro path
    rw [List.mem_append, mem_collectPaths hpaths, mem_expandGlobPatterns hrest]
    simp [hresults]

/-- A relative pattern is expanded to no path with a leading `./`. -/
theorem not_dot_of_expanded {globPaths : List PathBuf}
    (hrelative : ∀ pattern ∈ patterns, pattern.head? ≠ some '/')
    (hglob : expandGlobPatterns glob patterns = .ok globPaths) :
    ∀ path ∈ globPaths, ¬[Path.dot, Path.separator] <+: path := by
  intro path hpath
  obtain ⟨pattern, hpattern, results, hresults, hmem⟩ := (mem_expandGlobPatterns hglob path).1 hpath
  exact glob.relative (hrelative pattern hpattern) hresults hmem

theorem Matched.globPaths_ne_nil {cwd : List Bytes} {names : List Path.FileName}
    {globPaths : List PathBuf} (h : Matched glob cwd patterns names)
    (hglob : expandGlobPatterns glob patterns = .ok globPaths) : globPaths ≠ [] := by
  obtain ⟨pattern, hpattern, results, path, hresults, hmem, -⟩ := h
  exact List.ne_nil_of_mem
    ((mem_expandGlobPatterns hglob path).2 ⟨pattern, hpattern, results, hresults, hmem⟩)

/-- Expanded paths without a leading `./` select no file, and without any the files that are
hashed by default are selected. -/
theorem isSelected_iff {globPaths : List PathBuf}
    (hglob : ∀ path ∈ globPaths, ¬[Path.dot, Path.separator] <+: path)
    (names : List Path.FileName) (name : Path.FileName) :
    isSelected globPaths (Path.dotPath (names ++ [name])) = true ↔
      globPaths = [] ∧ isDefault name.1 = true := by
  rw [isSelected, Path.fileName_dotPath]
  by_cases hnil : globPaths = []
  · simp [hnil]
  · have hany : (globPaths.any fun path => Path.eq path (Path.dotPath (names ++ [name]))) =
        false := by
      rw [List.any_eq_false]
      intro path hpath heq
      have hcomponents := of_decide_eq_true heq
      rw [Path.components_dotPath] at hcomponents
      rcases Path.eq_dot_of_components hcomponents with rfl | hdot
      · have hlen := congrArg List.length hcomponents
        rw [show Path.components [Path.dot] = [.curDir] by decide] at hlen
        simp at hlen
      · exact hglob path hpath hdot
    simp [hnil, hany]

theorem FileBelow.exists_concat {entries : List Entry} {names : List Path.FileName}
    (h : FileBelow entries names) : ∃ init name, names = init ++ [name] := by
  induction h with
  | file => exact ⟨[], _, rfl⟩
  | @dir entries sub name names _ _ _ ih =>
    obtain ⟨init, last, rfl⟩ := ih
    exact ⟨name :: init, last, rfl⟩

/-- With relative patterns, exactly the files that are matched are hashed if and only if no
file below the root is matched, and no file is one that is hashed without patterns if the
patterns are expanded to nothing. -/
theorem selectsMatched_iff (glob : Glob) (cwd : List Bytes) (project : Project)
    (patterns : List Text) (hrelative : ∀ pattern ∈ patterns, pattern.head? ≠ some '/') :
    SelectsMatched glob cwd project patterns ↔
      ∀ globPaths entries, project.toolchain = .ok () →
        expandGlobPatterns glob patterns = .ok globPaths → project.root = .ok entries →
        ¬ListingFails entries → ∀ names name, FileBelow entries (names ++ [name]) →
          names ++ [name] ≠ [toolchainFileName] →
          ¬Matched glob cwd patterns (names ++ [name]) ∧
            (globPaths = [] → isDefault name.1 = false) := by
  have hexpanded : ∀ {globPaths}, expandGlobPatterns glob patterns = .ok globPaths →
      ∀ path ∈ globPaths, ¬[Path.dot, Path.separator] <+: path :=
    fun hglob => not_dot_of_expanded hrelative hglob
  refine ⟨fun h => ?_, fun h => ?_⟩
  · intro globPaths entries htoolchain hglob hroot hfails names name hbelow hne
    have hpaths := hashedPaths_eq_ok.2 ⟨htoolchain, entries, hroot, hfails, globPaths, hglob, rfl⟩
    have hpath : Path.dotPath (names ++ [name]) ≠ toolchainFilePath := by
      rw [toolchainFilePath_eq]
      exact fun heq => hne (Path.dotPath_injective heq)
    have hiff := (mem_hashedPaths rfl hpath).symm.trans (h _ _ hpaths hroot _ hpath)
    have hnot : ¬Matched glob cwd patterns (names ++ [name]) := by
      intro hmatch
      obtain ⟨names', heq, -, hselected⟩ := hiff.2 ⟨_, rfl, hbelow, hmatch⟩
      rw [← heq, isSelected_iff (hexpanded hglob)] at hselected
      exact hmatch.globPaths_ne_nil hglob hselected.1
    refine ⟨hnot, fun hnil => Bool.eq_false_iff.2 fun hdefault => ?_⟩
    have hselected := (isSelected_iff (hexpanded hglob) names name).2 ⟨hnil, hdefault⟩
    obtain ⟨names', heq, -, hmatch⟩ := hiff.1 ⟨_, rfl, hbelow, hselected⟩
    rw [← Path.dotPath_injective heq] at hmatch
    exact hnot hmatch
  · intro paths entries hpaths hroot path hne
    obtain ⟨htoolchain, entries', hroot', hfails, globPaths, hglob, hsorted⟩ :=
      hashedPaths_eq_ok.1 hpaths
    obtain rfl := Except.ok.inj (hroot.symm.trans hroot')
    rw [mem_hashedPaths hsorted hne]
    -- neither side holds : no file is selected, and none is matched
    refine ⟨fun hleft => ?_, fun hright => ?_⟩
    · obtain ⟨names, rfl, hbelow, hselected⟩ := hleft
      obtain ⟨init, name, rfl⟩ := hbelow.exists_concat
      rw [toolchainFilePath_eq] at hne
      obtain ⟨hnil, hdefault⟩ := (isSelected_iff (hexpanded hglob) init name).1 hselected
      have hnot := (h globPaths entries htoolchain hglob hroot hfails init name hbelow
        fun heq => hne (congrArg Path.dotPath heq)).2 hnil
      rw [hnot] at hdefault
      cases hdefault
    · obtain ⟨names, rfl, hbelow, hmatch⟩ := hright
      obtain ⟨init, name, rfl⟩ := hbelow.exists_concat
      rw [toolchainFilePath_eq] at hne
      exact absurd hmatch (h globPaths entries htoolchain hglob hroot hfails init name hbelow
        fun heq => hne (congrArg Path.dotPath heq)).1

/-- A file that is not hashed by default. -/
def readmeName : Path.FileName :=
  ⟨utf8 "README.md".toList, by decide⟩

/-- A project without source files. -/
def readmeProject : Project where
  toolchain := .ok ()
  root := .ok [.file toolchainFileName, .file readmeName]

theorem readmeProject_selectsMatched :
    (∀ pattern ∈ ["docs/*.md".toList], pattern.head? ≠ some '/') ∧
    SelectsMatched srcGlob [utf8 "home".toList] readmeProject ["docs/*.md".toList] := by
  have hrelative : ∀ pattern ∈ ["docs/*.md".toList], pattern.head? ≠ some '/' := by decide
  refine ⟨hrelative, (selectsMatched_iff _ _ _ _ hrelative).2 ?_⟩
  intro globPaths entries _ _ hroot _ names name hbelow hne
  refine ⟨fun hmatch => ?_, fun _ => ?_⟩
  · obtain ⟨pattern, hpattern, results, path, hresults, hpath, -⟩ := hmatch
    obtain rfl := List.mem_singleton.1 hpattern
    obtain rfl : [] = results := Except.ok.inj hresults
    cases hpath
  · obtain rfl := Except.ok.inj hroot
    have hfound := mem_foundNames.2 hbelow
    have hall : names ++ [name] ∈ [[toolchainFileName], [readmeName]] := hfound
    rcases List.mem_cons.1 hall with heq | hall
    · exact absurd heq hne
    · have heq : names ++ [name] = [] ++ [readmeName] := List.mem_singleton.1 hall
      obtain rfl := List.singleton_inj.1 (List.append_inj_right' heq rfl)
      have hlossy : fromUtf8Lossy readmeName.1 = "README.md".toList := fromUtf8Lossy_utf8 _
      rw [isDefault, hlossy]
      decide

/-- The pattern of all source files drops the one there is. -/
theorem libProject_drops_match :
    (∀ pattern ∈ ["src/*.rs".toList], pattern.head? ≠ some '/') ∧
    ¬SelectsMatched srcGlob [utf8 "home".toList] libProject ["src/*.rs".toList] := by
  refine ⟨by decide, fun h => ?_⟩
  have hsrc : Entry.dir srcName [.file libName] ∈
      [.file toolchainFileName, .dir srcName [.file libName]] := by
    simp
  have hlib : Entry.file libName ∈ [.file libName] := by simp
  have hbelow : FileBelow [.file toolchainFileName, .dir srcName [.file libName]]
      [srcName, libName] :=
    .dir hsrc (by decide) (.file hlib)
  have hfails : ¬ListingFails [.file toolchainFileName, .dir srcName [.file libName]] := by
    rw [← none_mem_foundIn]
    decide
  have hpaths : hashedPaths srcGlob libProject ["src/*.rs".toList] = .ok _ :=
    hashedPaths_eq_ok.2 ⟨rfl, _, rfl, hfails, [utf8 "src/lib.rs".toList], rfl, rfl⟩
  have hne : Path.dotPath [srcName, libName] ≠ toolchainFilePath := by decide
  have hmatch : Matched srcGlob [utf8 "home".toList] ["src/*.rs".toList] [srcName, libName] :=
    ⟨_, List.mem_singleton.2 rfl, _, utf8 "src/lib.rs".toList, rfl, List.mem_singleton.2 rfl,
      by decide⟩
  have hmem := (h _ _ hpaths rfl _ hne).2 ⟨_, rfl, hbelow, hmatch⟩
  obtain ⟨names, heq, -, hselected⟩ := (mem_hashedPaths rfl hne).1 hmem
  rw [← heq] at hselected
  exact absurd hselected (by decide)

end CargoStylus
