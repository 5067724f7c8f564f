import Mathlib.Data.List.ReduceOption
import CargoStylus.Config
import CargoStylus.Rust.Outcome
import CargoStylus.Rust.Path
import CargoStylus.Rust.Utf8

/-!
# Finding the files of a project

The directories below a root are visited with a stack (`visitDirectories`) : the next
directory is listed, its files that are selected are kept, and its directories are put on
the stack, except those named `target` or `.git`. The order of the entries is the order in
which the file system lists them, and listing may fail.

`foundIn` is what is found below a directory in the order of a recursive walk. The stack
finds the same files in some other order, and fails exactly where the recursive walk finds
a failure, from any root (`visitBelow_spec`) and so from `.` (`visitDirectories_spec`). What
is found is a file below the directory or a failure there (`some_mem_foundIn`,
`none_mem_foundIn`), and reordering the entries of directories reorders it
(`Reordered.foundIn_perm`).
-/

namespace CargoStylus

open Rust

/-- What listing a directory finds : a file, a directory that can be listed or cannot, or an
error in the place of an entry. -/
inductive Entry where
  | file (name : Path.FileName)
  | dir (name : Path.FileName) (entries : List Entry)
  | unreadable (name : Path.FileName) (error : String)
  | failed (error : String)

/-- The directory of builds, which is skipped. -/
def targetName : Path.FileName :=
  ⟨utf8 "target".toList, by decide⟩

/-- The directory of `git`, which is skipped. -/
def gitName : Path.FileName :=
  ⟨utf8 ".git".toList, by decide⟩

/-! ## The walk -/

/-- The files found, and the directories to visit, the next one first. -/
structure Walk where
  files : List PathBuf
  directories : List (PathBuf × Except String (List Entry))

variable (selected : PathBuf → Bool)

/-- Visit a directory later, unless it is called `target` or `.git`. -/
def pushDirectory (w : Walk) (path : PathBuf) (listing : Except String (List Entry)) : Walk :=
  if Path.endsWith path targetName.1 ∨ Path.endsWith path gitName.1 then w
  else { w with directories := (path, listing) :: w.directories }

/-- An entry is a file to take if it is selected, or a directory for later. -/
def visitEntry (dir : PathBuf) (w : Walk) : Entry → Outcome String Walk
  | .failed e => .err ("Error finding file in " ++ String.ofList (fromUtf8Lossy dir) ++ ": " ++ e)
  | .file name =>
    let path := Path.join dir name.1
    .ok (if selected path then { w with files := w.files ++ [path] } else w)
  | .dir name entries => .ok (pushDirectory w (Path.join dir name.1) (.ok entries))
  | .unreadable name e => .ok (pushDirectory w (Path.join dir name.1) (.error e))

/-- The entries of a directory, in order. -/
def visitAll (dir : PathBuf) : Walk → List Entry → Outcome String Walk
  | w, [] => .ok w
  | w, entry :: entries => do
    let w ← visitEntry selected dir w entry
    visitAll dir w entries

mutual

/-- How many directories there are in an entry. -/
def Entry.weight : Entry → ℕ
  | .dir _ entries => 1 + weights entries
  | .unreadable _ _ => 1
  | _ => 0

/-- How many directories there are in entries. -/
def weights : List Entry → ℕ
  | [] => 0
  | entry :: entries => entry.weight + weights entries

end

/-- How many directories there are to visit. -/
def stackWeight (directories : List (PathBuf × Except String (List Entry))) : ℕ :=
  (directories.map fun d => match d.2 with
    | .ok entries => 1 + weights entries
    | .error _ => 1).sum

theorem stackWeight_pushDirectory (w : Walk) (path : PathBuf)
    (listing : Except String (List Entry)) :
    stackWeight (pushDirectory w path listing).directories ≤
      stackWeight ((path, listing) :: w.directories) := by
  unfold pushDirectory
  split_ifs
  · simp [stackWeight]
  · rfl

theorem stackWeight_visitEntry {dir : PathBuf} {w w' : Walk} {entry : Entry}
    (h : visitEntry selected dir w entry = .ok w') :
    stackWeight w'.directories ≤ entry.weight + stackWeight w.directories := by
  rcases entry with name | ⟨name, entries⟩ | ⟨name, e⟩ | e
  · obtain rfl := Outcome.ok.inj h
    split_ifs <;> simp
  · obtain rfl := Outcome.ok.inj h
    exact stackWeight_pushDirectory _ _ _
  · obtain rfl := Outcome.ok.inj h
    exact stackWeight_pushDirectory _ _ _
  · cases h

theorem stackWeight_visitAll {dir : PathBuf} : ∀ {entries : List Entry} {w w' : Walk},
    visitAll selected dir w entries = .ok w' →
    stackWeight w'.directories ≤ weights entries + stackWeight w.directories
  | [], w, w', h => by
    obtain rfl := Outcome.ok.inj h
    simp [weights]
  | entry :: entries, w, w', h => by
    obtain ⟨w₁, hentry, hrest⟩ := Outcome.bind_eq_ok.1 h
    have hfirst := stackWeight_visitEntry selected hentry
    have htail := stackWeight_visitAll hrest
    rw [weights]
    omega

/-- Visit directories until there are none left. -/
def visitDirectories (w : Walk) : Outcome String (List PathBuf) :=
  match _ : w.directories with
  | [] => .ok w.files
  | (dir, .error e) :: _ =>
    .err ("Unable to read directory " ++ String.ofList (fromUtf8Lossy dir) ++ ": " ++ e)
  | (dir, .ok entries) :: rest =>
    match _ : visitAll selected dir { w with directories := rest } entries with
    | .ok w' => visitDirectories w'
    | .err e => .err e
    | .panic m => .panic m
termination_by stackWeight w.directories
decreasing_by
  rename_i hw hvisit
  have hle := stackWeight_visitAll selected hvisit
  rw [hw]
  simp only [stackWeight, List.map_cons, List.sum_cons] at hle ⊢
  omega

theorem visitDirectories_nil (files : List PathBuf) :
    visitDirectories selected ⟨files, []⟩ = .ok files := by
  rw [visitDirectories]

theorem visitDirectories_error (files : List PathBuf) (dir : PathBuf) (e : String)
    (rest : List (PathBuf × Except String (List Entry))) :
    (visitDirectories selected ⟨files, (dir, .error e) :: rest⟩).IsErr := by
  rw [visitDirectories]
  exact ⟨_, rfl⟩

theorem visitDirectories_ok (files : List PathBuf) (dir : PathBuf) (entries : List Entry)
    (rest : List (PathBuf × Except String (List Entry))) :
    visitDirectories selected ⟨files, (dir, .ok entries) :: rest⟩ =
      visitAll selected dir ⟨files, rest⟩ entries >>= visitDirectories selected := by
  rw [visitDirectories]
  dsimp only
  split <;> rename_i h <;> rw [h] <;> rfl

/-! ## What a recursive walk finds -/

/-- Directories with these names are not visited. -/
def Skipped (name : Path.FileName) : Prop :=
  name = targetName ∨ name = gitName

instance (name : Path.FileName) : Decidable (Skipped name) :=
  inferInstanceAs (Decidable (_ ∨ _))

mutual

/-- The files an entry of the directory `dir` is or has below it, and `none` for a failure. -/
def Entry.found (dir : List Path.FileName) : Entry → List (Option (List Path.FileName))
  | .file name => [some (dir ++ [name])]
  | .dir name entries => if Skipped name then [] else foundIn (dir ++ [name]) entries
  | .unreadable name _ => if Skipped name then [] else [none]
  | .failed _ => [none]

/-- What is found in the entries of the directory `dir`. -/
def foundIn (dir : List Path.FileName) : List Entry → List (Option (List Path.FileName))
  | [] => []
  | entry :: entries => entry.found dir ++ foundIn dir entries

end

/-- What is below the directories of a stack. -/
def foundBelow (dirs : List (List Path.FileName × Except String (List Entry))) :
    List (Option (List Path.FileName)) :=
  dirs.flatMap fun d => match d.2 with
    | .ok entries => foundIn d.1 entries
    | .error _ => [none]

/-- The stack of directories given by their names. -/
def stackOf (dirs : List (List Path.FileName × Except String (List Entry))) :
    List (PathBuf × Except String (List Entry)) :=
  dirs.map fun d => (Path.dotPath d.1, d.2)

/-- The paths of files that are selected. -/
def selectedPaths (names : List (List Path.FileName)) : List PathBuf :=
  (names.map Path.dotPath).filter selected

section Root

variable (root : PathBuf)

/-- The stack of directories given by their names below the root. -/
def stackBelow (dirs : List (List Path.FileName × Except String (List Entry))) :
    List (PathBuf × Except String (List Entry)) :=
  dirs.map fun d => (Path.below root d.1, d.2)

/-- The paths below the root of files that are selected. -/
def selectedBelow (names : List (List Path.FileName)) : List PathBuf :=
  (names.map (Path.below root)).filter selected

theorem pushDirectory_below (files : List PathBuf)
    (dirs : List (List Path.FileName × Except String (List Entry))) (dir : List Path.FileName)
    (name : Path.FileName) (listing : Except String (List Entry)) :
    pushDirectory ⟨files, stackBelow root dirs⟩ (Path.join (Path.below root dir) name.1) listing =
      ⟨files, stackBelow root
        (if Skipped name then dirs else (dir ++ [name], listing) :: dirs)⟩ := by
  simp only [pushDirectory, Path.endsWith_join, decide_eq_true_eq]
  by_cases h : name = targetName ∨ name = gitName
  · have hskipped : Skipped name := h
    rw [if_pos h, if_pos hskipped]
  · have hskipped : ¬Skipped name := h
    rw [if_neg h, if_neg hskipped, stackBelow, stackBelow, List.map_cons, Path.below_concat]

/-- Visiting an entry finds a file or puts a directory on the stack, or fails. -/
theorem visitEntry_spec (dir : List Path.FileName) (files : List PathBuf)
    (dirs : List (List Path.FileName × Except String (List Entry))) (entry : Entry) :
    (∃ names newDirs,
      visitEntry selected (Path.below root dir) ⟨files, stackBelow root dirs⟩ entry =
        .ok ⟨files ++ selectedBelow selected root names, stackBelow root (newDirs ++ dirs)⟩ ∧
      entry.found dir = names.map some ++ foundBelow newDirs) ∨
    (visitEntry selected (Path.below root dir) ⟨files, stackBelow root dirs⟩ entry).IsErr ∧
      none ∈ entry.found dir := by
  rcases entry with name | ⟨name, entries⟩ | ⟨name, e⟩ | e
  · refine .inl ⟨[dir ++ [name]], [], ?_, by simp [Entry.found, foundBelow]⟩
    simp only [visitEntry, ← Path.below_concat, selectedBelow, List.map_singleton,
      List.filter_singleton, List.nil_append]
    split_ifs with h <;> simp [h]
  · refine .inl ⟨[], if Skipped name then [] else [(dir ++ [name], .ok entries)], ?_, ?_⟩
    · rw [visitEntry, pushDirectory_below]
      split_ifs <;> simp [selectedBelow]
    · rw [Entry.found]
      split_ifs <;> simp [foundBelow]
  · refine .inl ⟨[], if Skipped name then [] else [(dir ++ [name], .error e)], ?_, ?_⟩
    · rw [visitEntry, pushDirectory_below]
      split_ifs <;> simp [selectedBelow]
    · rw [Entry.found]
      split_ifs <;> simp [foundBelow]
  · exact .inr ⟨⟨_, rfl⟩, by simp [Entry.found]⟩

/-- Visiting a directory finds what is in it, and puts on the stack what is below that. -/
theorem visitAll_spec (dir : List Path.FileName) : ∀ (entries : List Entry)
    (files : List PathBuf) (dirs : List (List Path.FileName × Except String (List Entry))),
    (∃ names newDirs,
      visitAll selected (Path.below root dir) ⟨files, stackBelow root dirs⟩ entries =
        .ok ⟨files ++ selectedBelow selected root names, stackBelow root (newDirs ++ dirs)⟩ ∧
      (foundIn dir entries).Perm (names.map some ++ foundBelow newDirs)) ∨
    (visitAll selected (Path.below root dir) ⟨files, stackBelow root dirs⟩ entries).IsErr ∧
      none ∈ foundIn dir entries
  | [], files, dirs => .inl ⟨[], [], by simp [visitAll, selectedBelow], by
      simp [foundIn, foundBelow]⟩
  | entry :: entries, files, dirs => by
    rcases visitEntry_spec selected root dir files dirs entry with
      ⟨names, newDirs, hvisit, hfound⟩ | ⟨⟨e, hvisit⟩, hfail⟩
    · rcases visitAll_spec dir entries (files ++ selectedBelow selected root names)
        (newDirs ++ dirs) with ⟨names', newDirs', hrest, hperm⟩ | ⟨⟨e, hrest⟩, hfail⟩
      · refine .inl ⟨names ++ names', newDirs' ++ newDirs, ?_, ?_⟩
        · rw [visitAll, hvisit, Outcome.ok_bind, hrest]
          simp [selectedBelow]
        · have hstack : foundBelow (newDirs' ++ newDirs) =
              foundBelow newDirs' ++ foundBelow newDirs :=
            List.flatMap_append
          rw [foundIn, hfound, hstack, List.map_append, List.append_assoc, List.append_assoc]
          refine .append_left _ ?_
          have hrest := hperm.append_right (foundBelow newDirs)
          rw [List.append_assoc] at hrest
          exact List.perm_append_comm.trans hrest
      · refine .inr ⟨⟨e, by rw [visitAll, hvisit, Outcome.ok_bind, hrest]⟩, ?_⟩
        exact List.mem_append_right _ hfail
    · refine .inr ⟨⟨e, by rw [visitAll, hvisit, Outcome.err_bind]⟩, ?_⟩
      exact List.mem_append_left _ hfail

/-- The walk finds the files a recursive walk finds, in some order, and fails if it does. -/
theorem visitBelow_spec (files : List PathBuf)
    (dirs : List (List Path.FileName × Except String (List Entry))) :
    (∃ names, visitDirectories selected ⟨files, stackBelow root dirs⟩ =
        .ok (files ++ selectedBelow selected root names) ∧
      (foundBelow dirs).Perm (names.map some)) ∨
    (visitDirectories selected ⟨files, stackBelow root dirs⟩).IsErr ∧
      none ∈ foundBelow dirs := by
  rcases dirs with _ | ⟨⟨dir, e | entries⟩, dirs⟩
  · refine .inl ⟨[], ?_, .nil⟩
    rw [show selectedBelow selected root [] = [] from rfl, List.append_nil]
    exact visitDirectories_nil selected files
  · exact .inr ⟨visitDirectories_error selected _ _ _ _, by simp [foundBelow]⟩
  · have hbelow : foundBelow ((dir, .ok entries) :: dirs) =
        foundIn dir entries ++ foundBelow dirs :=
      List.flatMap_cons
    have hstack : stackBelow root ((dir, .ok entries) :: dirs) =
        (Path.below root dir, .ok entries) :: stackBelow root dirs :=
      List.map_cons
    rw [hbelow, hstack, visitDirectories_ok]
    rcases visitAll_spec selected root dir entries files dirs with
      ⟨names, newDirs, hvisit, hperm⟩ | ⟨⟨e, hvisit⟩, hfail⟩
    · have hlt : stackWeight (stackBelow root (newDirs ++ dirs)) <
          stackWeight (stackBelow root ((dir, .ok entries) :: dirs)) := by
        have hle := stackWeight_visitAll selected hvisit
        simp only [stackBelow, List.map_cons, stackWeight, List.sum_cons] at hle ⊢
        omega
      have hmem : none ∈ foundIn dir entries ↔ none ∈ foundBelow newDirs := by
        rw [hperm.mem_iff]
        simp
      have hnew : foundBelow (newDirs ++ dirs) = foundBelow newDirs ++ foundBelow dirs :=
        List.flatMap_append
      rw [hvisit, Outcome.ok_bind]
      rcases visitBelow_spec (files ++ selectedBelow selected root names)
        (newDirs ++ dirs) with ⟨names', hrest, hfound⟩ | ⟨⟨e, hrest⟩, hfail⟩
      · refine .inl ⟨names ++ names', ?_, ?_⟩
        · rw [hrest]
          simp [selectedBelow]
        · have hall := hperm.append_right (foundBelow dirs)
          rw [List.append_assoc, ← hnew] at hall
          rw [List.map_append]
          exact hall.trans (hfound.append_left _)
      · refine .inr ⟨⟨e, hrest⟩, ?_⟩
        rw [hnew, List.mem_append, ← hmem] at hfail
        exact List.mem_append.2 hfail
    · exact .inr ⟨⟨e, by rw [hvisit, Outcome.err_bind]⟩, List.mem_append_left _ hfail⟩
termination_by stackWeight (stackBelow root dirs)

end Root

theorem stackOf_eq (dirs : List (List Path.FileName × Except String (List Entry))) :
    stackOf dirs = stackBelow [Path.dot] dirs :=
  List.map_congr_left fun d _ => congrArg (·, d.2) (Path.dotPath_eq_below d.1)

theorem selectedPaths_eq (names : List (List Path.FileName)) :
    selectedPaths selected names = selectedBelow selected [Path.dot] names := by
  rw [selectedPaths, selectedBelow, funext Path.dotPath_eq_below]

theorem visitDirectories_spec (files : List PathBuf)
    (dirs : List (List Path.FileName × Except String (List Entry))) :
    (∃ names, visitDirectories selected ⟨files, stackOf dirs⟩ =
        .ok (files ++ selectedPaths selected names) ∧
      (foundBelow dirs).Perm (names.map some)) ∨
    (visitDirectories selected ⟨files, stackOf dirs⟩).IsErr ∧ none ∈ foundBelow dirs := by
  simp only [stackOf_eq, selectedPaths_eq]
  exact visitBelow_spec selected [Path.dot] files dirs

/-! ## Files below a directory -/

/-- There is a file at these names, with no directory called `target` or `.git` on the way. -/
inductive FileBelow : List Entry → List Path.FileName → Prop
  | file {entries : List Entry} {name : Path.FileName} : .file name ∈ entries →
      FileBelow entries [name]
  | dir {entries sub : List Entry} {name : Path.FileName} {names : List Path.FileName} :
      .dir name sub ∈ entries → ¬Skipped name → FileBelow sub names →
      FileBelow entries (name :: names)

/-- Listing a directory fails, with no directory called `target` or `.git` on the way. -/
inductive ListingFails : List Entry → Prop
  | failed {entries : List Entry} {e : String} : .failed e ∈ entries → ListingFails entries
  | unreadable {entries : List Entry} {name : Path.FileName} {e : String} :
      .unreadable name e ∈ entries → ¬Skipped name → ListingFails entries
  | dir {entries sub : List Entry} {name : Path.FileName} :
      .dir name sub ∈ entries → ¬Skipped name → ListingFails sub → ListingFails entries

theorem mem_foundIn {dir : List Path.FileName} {x : Option (List Path.FileName)} :
    ∀ {entries : List Entry}, x ∈ foundIn dir entries ↔ ∃ entry ∈ entries, x ∈ entry.found dir
  | [] => by simp [foundIn]
  | entry :: entries => by
    rw [foundIn, List.mem_append, mem_foundIn]
    simp only [List.mem_cons, exists_eq_or_imp]

theorem FileBelow.mem_foundIn {entries : List Entry} {names : List Path.FileName}
    (h : FileBelow entries names) (dir : List Path.FileName) :
    some (dir ++ names) ∈ foundIn dir entries := by
  induction h generalizing dir with
  | file hmem => exact CargoStylus.mem_foundIn.2 ⟨_, hmem, by simp [Entry.found]⟩
  | @dir entries sub name names hmem hskip _ ih =>
    refine CargoStylus.mem_foundIn.2 ⟨_, hmem, ?_⟩
    rw [Entry.found, if_neg hskip]
    simpa using ih (dir ++ [name])

theorem ListingFails.mem_foundIn {entries : List Entry} (h : ListingFails entries)
    (dir : List Path.FileName) : none ∈ foundIn dir entries := by
  induction h generalizing dir with
  | failed hmem => exact CargoStylus.mem_foundIn.2 ⟨_, hmem, by simp [Entry.found]⟩
  | unreadable hmem hskip =>
    exact CargoStylus.mem_foundIn.2 ⟨_, hmem, by simp [Entry.found, hskip]⟩
  | @dir entries sub name hmem hskip _ ih =>
    refine CargoStylus.mem_foundIn.2 ⟨_, hmem, ?_⟩
    rw [Entry.found, if_neg hskip]
    exact ih (dir ++ [name])

/-- What the recursive walk finds is a file below the directory, or a failure. -/
theorem below_of_mem_foundIn {dir : List Path.FileName} {x : Option (List Path.FileName)}
    {entries : List Entry} (h : x ∈ foundIn dir entries) :
    (∃ names, x = some (dir ++ names) ∧ FileBelow entries names) ∨
      x = none ∧ ListingFails entries := by
  obtain ⟨entry, hmem, hfound⟩ := mem_foundIn.1 h
  rcases entry with name | ⟨name, sub⟩ | ⟨name, e⟩ | e
  · rw [Entry.found, List.mem_singleton] at hfound
    exact .inl ⟨[name], hfound, .file hmem⟩
  · rw [Entry.found] at hfound
    split_ifs at hfound with hskip
    · cases hfound
    · have hsmall : sizeOf sub < sizeOf entries := by
        have hlt := List.sizeOf_lt_of_mem hmem
        simp only [Entry.dir.sizeOf_spec] at hlt
        omega
      rcases below_of_mem_foundIn hfound with ⟨names, rfl, hbelow⟩ | ⟨rfl, hfails⟩
      · exact .inl ⟨name :: names, by simp, .dir hmem hskip hbelow⟩
      · exact .inr ⟨rfl, .dir hmem hskip hfails⟩
  · rw [Entry.found] at hfound
    split_ifs at hfound with hskip
    · cases hfound
    · exact .inr ⟨List.mem_singleton.1 hfound, .unreadable hmem hskip⟩
  · rw [Entry.found, List.mem_singleton] at hfound
    exact .inr ⟨hfound, .failed hmem⟩
termination_by sizeOf entries

theorem some_mem_foundIn {entries : List Entry} {names : List Path.FileName} :
    some names ∈ foundIn [] entries ↔ FileBelow entries names := by
  refine ⟨fun h => ?_, fun h => h.mem_foundIn []⟩
  rcases below_of_mem_foundIn h with ⟨names', heq, hbelow⟩ | ⟨heq, -⟩
  · rwa [Option.some.inj heq]
  · cases heq

theorem none_mem_foundIn {entries : List Entry} :
    none ∈ foundIn [] entries ↔ ListingFails entries := by
  refine ⟨fun h => ?_, fun h => h.mem_foundIn []⟩
  rcases below_of_mem_foundIn h with ⟨names', heq, -⟩ | ⟨-, hfails⟩
  · cases heq
  · exact hfails

/-- The files found below a directory, in the order of a recursive walk. -/
def foundNames (entries : List Entry) : List (List Path.FileName) :=
  (foundIn [] entries).reduceOption

theorem mem_foundNames {entries : List Entry} {names : List Path.FileName} :
    names ∈ foundNames entries ↔ FileBelow entries names := by
  rw [foundNames, List.reduceOption_mem_iff, some_mem_foundIn]

/-- Visiting a root finds the files below it, or fails where listing one of its directories
does. -/
theorem visitRoot_below_spec (root : PathBuf) (entries : List Entry) :
    (∃ names, visitDirectories selected ⟨[], [(root, .ok entries)]⟩ =
        .ok (selectedBelow selected root names) ∧ names.Perm (foundNames entries) ∧
      ¬ListingFails entries) ∨
    (visitDirectories selected ⟨[], [(root, .ok entries)]⟩).IsErr ∧
      ListingFails entries := by
  have hbelow : foundBelow [([], .ok entries)] = foundIn [] entries := List.append_nil _
  have hspec := visitBelow_spec selected root [] [([], .ok entries)]
  rw [hbelow, none_mem_foundIn] at hspec
  rcases hspec with ⟨names, hvisit, hperm⟩ | hfails
  · have hnames : names.Perm (foundNames entries) := by
      have hreduce := (hperm.filterMap id).symm
      rwa [List.filterMap_map, Function.id_comp, List.filterMap_some] at hreduce
    refine .inl ⟨names, hvisit, hnames, ?_⟩
    rw [← none_mem_foundIn, hperm.mem_iff]
    simp
  · exact .inr hfails

theorem visitRoot_spec (entries : List Entry) :
    (∃ names, visitDirectories selected ⟨[], [(Path.dotPath [], .ok entries)]⟩ =
        .ok (selectedPaths selected names) ∧ names.Perm (foundNames entries) ∧
      ¬ListingFails entries) ∨
    (visitDirectories selected ⟨[], [(Path.dotPath [], .ok entries)]⟩).IsErr ∧
      ListingFails entries := by
  simp only [selectedPaths_eq]
  exact visitRoot_below_spec selected (Path.dotPath []) entries

/-! ## The order of listing -/

/-- The same entries in some other order, in each directory. -/
inductive Reordered : List Entry → List Entry → Prop
  | nil : Reordered [] []
  | cons (entry : Entry) {entries entries' : List Entry} :
      Reordered entries entries' → Reordered (entry :: entries) (entry :: entries')
  | dir (name : Path.FileName) {sub sub' entries entries' : List Entry} :
      Reordered sub sub' → Reordered entries entries' →
      Reordered (.dir name sub :: entries) (.dir name sub' :: entries')
  | swap (entry entry' : Entry) (entries : List Entry) :
      Reordered (entry :: entry' :: entries) (entry' :: entry :: entries)
  | trans {entries entries' entries'' : List Entry} :
      Reordered entries entries' → Reordered entries' entries'' → Reordered entries entries''

/-- The recursive walk finds the same in some other order. -/
theorem Reordered.foundIn_perm {entries entries' : List Entry} (h : Reordered entries entries')
    (dir : List Path.FileName) : (foundIn dir entries).Perm (foundIn dir entries') := by
  induction h generalizing dir with
  | nil => exact .refl _
  | cons entry _ ih => exact (ih dir).append_left _
  | dir name _ _ ihsub ih =>
    simp only [foundIn, Entry.found]
    split_ifs
    · exact ih dir
    · exact (ihsub _).append (ih dir)
  | swap entry entry' entries =>
    simp only [foundIn, ← List.append_assoc]
    exact List.perm_append_comm.append_right _
  | trans _ _ ih ih' => exact (ih dir).trans (ih' dir)

end CargoStylus
