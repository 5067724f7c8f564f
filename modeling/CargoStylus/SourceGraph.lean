import CargoStylus.Rust.Worklist
import CargoStylus.SourceFiles

/-!
# The walk with links to directories

A link to a directory is a directory to `Path::is_dir`, so what is below a root is a graph.
`visitLinked` is the loop of `visitDirectories` on a graph, for a number of turns. On a tree
the two are the same (`visitLinked_treeGraph`).

The directories that the loop has visited are not remembered, so it visits a directory again
for every way that leads there. It ends exactly if no directory is below itself, or if
listing fails before it gets to such a directory (`visitLinked_ends_iff`).
-/

namespace CargoStylus

open Rust

/-! ## Directories with links -/

/-- What listing a directory gives : each entry with its name and, if it is a directory or a
link to one, that directory, and errors in the place of some. -/
abbrev Listing (ν : Type) := Except String (List (Except String (Path.FileName × Option ν)))

/-- The directories of a file system. -/
structure DirectoryGraph (ν : Type) where
  readDir : ν → Listing ν

/-- The files found, and the paths of directories to visit, with the directories they lead
to. -/
structure LinkedWalk (ν : Type) where
  files : List PathBuf
  directories : List (PathBuf × ν)

variable {ν : Type} (selected : PathBuf → Bool)

/-- What `visitEntry` does, where a link leads to any directory. -/
def visitLinkedEntry (dir : PathBuf) (w : LinkedWalk ν) :
    Except String (Path.FileName × Option ν) → Outcome String (LinkedWalk ν)
  | .error e => .err ("Error finding file in " ++ String.ofList (fromUtf8Lossy dir) ++ ": " ++ e)
  | .ok (name, target) =>
    let path := Path.join dir name.1
    match target with
    | some d =>
      if Path.endsWith path targetName.1 ∨ Path.endsWith path gitName.1 then .ok w
      else .ok { w with directories := (path, d) :: w.directories }
    | none => .ok (if selected path then { w with files := w.files ++ [path] } else w)

/-- The entries of a directory, in order. -/
def visitLinkedAll (dir : PathBuf) : LinkedWalk ν →
    List (Except String (Path.FileName × Option ν)) → Outcome String (LinkedWalk ν)
  | w, [] => .ok w
  | w, entry :: entries => do
    let w ← visitLinkedEntry selected dir w entry
    visitLinkedAll dir w entries

/-- The loop for as many turns, or `none` if it has not ended. -/
def visitLinked (g : DirectoryGraph ν) : ℕ → LinkedWalk ν → Option (Outcome String (List PathBuf))
  | _, ⟨files, []⟩ => some (.ok files)
  | 0, ⟨_, _ :: _⟩ => none
  | turns + 1, ⟨files, (dir, d) :: rest⟩ =>
    match g.readDir d with
    | .error e =>
      some (.err ("Unable to read directory " ++ String.ofList (fromUtf8Lossy dir) ++ ": " ++ e))
    | .ok entries =>
      match visitLinkedAll selected dir ⟨files, rest⟩ entries with
      | .ok w => visitLinked g turns w
      | .err e => some (.err e)
      | .panic m => some (.panic m)

/-- The loop ends. -/
def LoopEnds (g : DirectoryGraph ν) (w : LinkedWalk ν) : Prop :=
  ∃ turns, (visitLinked selected g turns w).isSome

/-! ## The directories that are visited -/

/-- The directories among the entries that are visited, the next one first, unless there is an
error. -/
def subdirectories : List (Except String (Path.FileName × Option ν)) → Except String (List ν)
  | [] => .ok []
  | .error e :: _ => .error e
  | .ok (name, target) :: entries => do
    let ds ← subdirectories entries
    return ds ++ if Skipped name then [] else target.toList

namespace DirectoryGraph

/-- The directories that are visited for one, unless listing it fails. -/
def expand (g : DirectoryGraph ν) (d : ν) : Except String (List ν) := do
  subdirectories (← g.readDir d)

/-- A directory is visited for another. -/
def Below (g : DirectoryGraph ν) : ν → ν → Prop :=
  Worklist.Child g.expand

/-- Listing fails for a directory, and all that is visited before it is visited to its end. -/
def FailsFirst (g : DirectoryGraph ν) : ν → Prop :=
  Worklist.Fails g.expand

end DirectoryGraph

variable {selected} {g : DirectoryGraph ν} {dir : PathBuf} {files : List PathBuf}

/-- Visiting the entries of a directory puts its subdirectories on the stack, or fails. -/
theorem visitLinkedAll_spec : ∀ (entries : List (Except String (Path.FileName × Option ν)))
    (w : LinkedWalk ν),
    (∃ w' ds, visitLinkedAll selected dir w entries = .ok w' ∧
      subdirectories entries = .ok ds ∧
      w'.directories.map Prod.snd = ds ++ w.directories.map Prod.snd) ∨
    (visitLinkedAll selected dir w entries).IsErr ∧ ∃ e, subdirectories entries = .error e
  | [], w => .inl ⟨w, [], rfl, rfl, rfl⟩
  | .error e :: entries, w => .inr ⟨⟨_, rfl⟩, e, rfl⟩
  | .ok (name, target) :: entries, w => by
    obtain ⟨w₁, hvisit, hstack⟩ : ∃ w₁,
        visitLinkedEntry selected dir w (.ok (name, target)) = .ok w₁ ∧
          w₁.directories.map Prod.snd =
            (if Skipped name then [] else target.toList) ++ w.directories.map Prod.snd := by
      simp only [visitLinkedEntry, Path.endsWith_join, decide_eq_true_eq]
      rcases target with _ | d
      · refine ⟨_, rfl, ?_⟩
        split_ifs <;> rfl
      · by_cases h : name = targetName ∨ name = gitName
        · have hskipped : Skipped name := h
          exact ⟨w, if_pos h, by rw [if_pos hskipped]; rfl⟩
        · have hskipped : ¬Skipped name := h
          exact ⟨_, if_neg h, by rw [if_neg hskipped]; rfl⟩
    rw [visitLinkedAll, hvisit, Outcome.ok_bind, subdirectories]
    rcases visitLinkedAll_spec entries w₁ with ⟨w', ds, hrest, hds, hdirs⟩ | ⟨herr, e, he⟩
    · refine .inl ⟨w', ds ++ if Skipped name then [] else target.toList, hrest, ?_, ?_⟩
      · rw [hds]
        rfl
      · rw [hdirs, hstack, List.append_assoc]
    · refine .inr ⟨herr, e, ?_⟩
      rw [he]
      rfl

/-- One turn visits a directory, and its subdirectories take its place, or it ends the loop. -/
theorem visitLinked_succ (selected : PathBuf → Bool) (g : DirectoryGraph ν) (dir : PathBuf)
    (files : List PathBuf) (d : ν) (rest : List (PathBuf × ν)) :
    (∃ w ds, (∀ turns, visitLinked selected g (turns + 1) ⟨files, (dir, d) :: rest⟩ =
        visitLinked selected g turns w) ∧ g.expand d = .ok ds ∧
        w.directories.map Prod.snd = ds ++ rest.map Prod.snd) ∨
      (∀ turns, (visitLinked selected g (turns + 1) ⟨files, (dir, d) :: rest⟩).isSome) ∧
        ∃ e, g.expand d = .error e := by
  simp only [visitLinked, DirectoryGraph.expand]
  cases g.readDir d with
  | error e => exact .inr ⟨fun _ => rfl, e, rfl⟩
  | ok entries =>
    dsimp only
    rcases @visitLinkedAll_spec _ selected dir entries ⟨files, rest⟩ with
      ⟨w, ds, hvisit, hds, hdirs⟩ | ⟨⟨e, hvisit⟩, e', he'⟩
    · exact .inl ⟨w, ds, fun turns => by rw [hvisit], hds, hdirs⟩
    · exact .inr ⟨fun turns => by rw [hvisit]; rfl, e', he'⟩

theorem visitLinked_nil (turns : ℕ) :
    visitLinked selected g turns ⟨files, []⟩ = some (.ok files) := by
  rw [visitLinked]

theorem ends_of_visitLinked : ∀ (turns : ℕ) (w : LinkedWalk ν),
    (visitLinked selected g turns w).isSome →
      Worklist.Ends g.expand (w.directories.map Prod.snd)
  | _, ⟨_, []⟩, _ => .nil
  | 0, ⟨_, _ :: _⟩, h => by
    rw [visitLinked] at h
    cases h
  | turns + 1, ⟨files, (dir, d) :: rest⟩, h => by
    rcases visitLinked_succ selected g dir files d rest with
      ⟨w, ds, hvisit, hds, hdirs⟩ | ⟨-, e, he⟩
    · rw [hvisit] at h
      have hrest := ends_of_visitLinked turns w h
      rw [hdirs] at hrest
      exact .next hds hrest
    · exact .failed he

theorem loopEnds_of_ends {stack : List ν} (h : Worklist.Ends g.expand stack) :
    ∀ w : LinkedWalk ν, w.directories.map Prod.snd = stack → LoopEnds selected g w := by
  induction h with
  | nil =>
    rintro ⟨files, directories⟩ hdirs
    obtain rfl := List.map_eq_nil_iff.1 hdirs
    exact ⟨0, by rw [visitLinked_nil]; rfl⟩
  | failed hexpand =>
    rintro ⟨files, directories⟩ hdirs
    obtain ⟨⟨dir, d⟩, rest, rfl, rfl, rfl⟩ := List.map_eq_cons_iff.1 hdirs
    rcases visitLinked_succ selected g dir files d rest with ⟨w, ds, -, hds, -⟩ | ⟨hsome, -⟩
    · rw [hexpand] at hds
      cases hds
    · exact ⟨1, hsome 0⟩
  | next hexpand _ ih =>
    rintro ⟨files, directories⟩ hdirs
    obtain ⟨⟨dir, d⟩, rest, rfl, rfl, rfl⟩ := List.map_eq_cons_iff.1 hdirs
    rcases visitLinked_succ selected g dir files d rest with
      ⟨w, ds, hvisit, hds, hdirs⟩ | ⟨-, e, he⟩
    · obtain rfl := Except.ok.inj (hexpand.symm.trans hds)
      obtain ⟨turns, hsome⟩ := ih w hdirs
      exact ⟨turns + 1, by rwa [hvisit]⟩
    · rw [hexpand] at he
      cases he

/-- The loop ends exactly if exploring the directories ends. -/
theorem loopEnds_iff {w : LinkedWalk ν} :
    LoopEnds selected g w ↔ Worklist.Ends g.expand (w.directories.map Prod.snd) :=
  ⟨fun h => h.elim fun turns hsome => ends_of_visitLinked turns w hsome,
    fun h => loopEnds_of_ends h w rfl⟩

/-- In a finite graph the loop ends exactly if no directory that is visited is below itself,
or if listing fails first. -/
theorem visitLinked_ends_iff [Finite ν] (selected : PathBuf → Bool) (g : DirectoryGraph ν)
    (root : PathBuf) (d : ν) :
    LoopEnds selected g ⟨[], [(root, d)]⟩ ↔
      Worklist.AcyclicFrom g.Below d ∨ g.FailsFirst d := by
  rw [loopEnds_iff, List.map_singleton, Worklist.ends_singleton_iff, Worklist.acc_iff_of_finite]
  rfl

/-- The name of a link to a directory. -/
def linkName : Path.FileName :=
  ⟨utf8 "link".toList, by decide⟩

/-- The directories `false` and `true`, where `false` has a link to `true`. -/
def linkGraph : DirectoryGraph Bool where
  readDir d := .ok (if d then [] else [.ok (linkName, some true)])

theorem linkGraph_ends_iff :
    LoopEnds (isSelected []) linkGraph ⟨[], [(Path.dotPath [], false)]⟩ ↔
      Worklist.AcyclicFrom linkGraph.Below false ∨ linkGraph.FailsFirst false :=
  visitLinked_ends_iff _ _ _ _

/-- A directory with a link to itself. -/
def loopGraph : DirectoryGraph Unit where
  readDir _ := .ok [.ok (linkName, some ())]

theorem loopGraph_not_failsFirst (d : Unit) : ¬loopGraph.FailsFirst d := by
  intro h
  induction h with
  | here hexpand => cases hexpand
  | inside _ _ _ ih => exact ih

/-- The loop does not end on it. -/
theorem loopGraph_never_ends :
    ¬LoopEnds (isSelected []) loopGraph ⟨[], [(Path.dotPath [], ())]⟩ := by
  rw [loopEnds_iff]
  intro h
  rcases Worklist.ends_singleton_iff.1 h with hacc | hfails
  · have hloop : loopGraph.Below () () := ⟨[()], rfl, List.mem_singleton_self ()⟩
    exact Worklist.acyclicFrom_of_acc hacc () .refl (.single hloop)
  · exact loopGraph_not_failsFirst () hfails

/-! ## Trees -/

/-- An entry of a tree, with the directory it is. -/
def Entry.linked : Entry → Except String (Path.FileName × Option (Except String (List Entry)))
  | .file name => .ok (name, none)
  | .dir name entries => .ok (name, some (.ok entries))
  | .unreadable name e => .ok (name, some (.error e))
  | .failed e => .error e

/-- The directories of trees. -/
def treeGraph : DirectoryGraph (Except String (List Entry)) where
  readDir d := d.map fun entries => entries.map Entry.linked

/-- The walk of a tree, as one of a graph. -/
def Walk.linked (w : Walk) : LinkedWalk (Except String (List Entry)) :=
  ⟨w.files, w.directories⟩

theorem visitLinkedEntry_linked (w : Walk) (entry : Entry) :
    visitLinkedEntry selected dir w.linked entry.linked =
      Walk.linked <$> visitEntry selected dir w entry := by
  rcases entry with name | ⟨name, entries⟩ | ⟨name, e⟩ | e
  · simp only [visitLinkedEntry, Entry.linked, visitEntry, Outcome.map_ok, Walk.linked]
    split_ifs <;> rfl
  · simp only [visitLinkedEntry, Entry.linked, visitEntry, pushDirectory, Outcome.map_ok,
      Walk.linked]
    split_ifs <;> rfl
  · simp only [visitLinkedEntry, Entry.linked, visitEntry, pushDirectory, Outcome.map_ok,
      Walk.linked]
    split_ifs <;> rfl
  · rfl

theorem visitLinkedAll_linked : ∀ (entries : List Entry) (w : Walk),
    visitLinkedAll selected dir w.linked (entries.map Entry.linked) =
      Walk.linked <$> visitAll selected dir w entries
  | [], w => rfl
  | entry :: entries, w => by
    rw [List.map_cons, visitLinkedAll, visitAll, visitLinkedEntry_linked]
    cases visitEntry selected dir w entry with
    | ok w' => exact visitLinkedAll_linked entries w'
    | err e => rfl
    | panic m => rfl

/-- On a tree the loop ends, and does what `visitDirectories` does. -/
theorem visitLinked_treeGraph (w : Walk) :
    ∃ turns, visitLinked selected treeGraph turns w.linked =
      some (visitDirectories selected w) := by
  rcases w with ⟨files, _ | ⟨⟨dir, e | entries⟩, rest⟩⟩
  · exact ⟨0, by rw [Walk.linked, visitLinked_nil, visitDirectories_nil]⟩
  · refine ⟨1, ?_⟩
    rw [visitDirectories]
    rfl
  · have hread : treeGraph.readDir (.ok entries) = .ok (entries.map Entry.linked) := rfl
    have hlinked : visitLinkedAll selected dir ⟨files, rest⟩ (entries.map Entry.linked) =
        Walk.linked <$> visitAll selected dir ⟨files, rest⟩ entries :=
      visitLinkedAll_linked entries ⟨files, rest⟩
    rw [visitDirectories_ok]
    cases hvisit : visitAll selected dir ⟨files, rest⟩ entries with
    | ok w' =>
      have hlt : stackWeight w'.directories <
          stackWeight ((dir, .ok entries) :: rest) := by
        have hle := stackWeight_visitAll selected hvisit
        simp only [stackWeight, List.map_cons, List.sum_cons] at hle ⊢
        omega
      obtain ⟨turns, hrest⟩ := visitLinked_treeGraph w'
      refine ⟨turns + 1, ?_⟩
      rw [Walk.linked, visitLinked, hread]
      dsimp only
      rw [hlinked, hvisit]
      exact hrest
    | err e =>
      refine ⟨1, ?_⟩
      rw [Walk.linked, visitLinked, hread]
      dsimp only
      rw [hlinked, hvisit]
      rfl
    | panic m =>
      refine ⟨1, ?_⟩
      rw [Walk.linked, visitLinked, hread]
      dsimp only
      rw [hlinked, hvisit]
      rfl
termination_by stackWeight w.directories

end CargoStylus
