import Mathlib.Data.List.Nodup
import CargoStylus.SourceFiles

/-!
# The files found without patterns

In a `DirectoryTree` every directory can be listed, and its entries have different names. So a
recursive walk finds each of the files below it once (`IsTree.nodup_foundIn`), and the walk
with a stack returns each of them once that is a default file (`allPaths_default`), from any
root and in whatever order the entries are listed.
-/

namespace CargoStylus

open Rust

/-! ## Directory trees -/

/-- The name of an entry that could be read. -/
def Entry.name? : Entry → Option Path.FileName
  | .file name => some name
  | .dir name _ => some name
  | .unreadable name _ => some name
  | .failed _ => none

/-- Every directory is listed, and no two entries of one have the same name. -/
inductive IsTree : List Entry → Prop
  | nil : IsTree []
  | file {name : Path.FileName} {entries : List Entry} :
      (∀ entry ∈ entries, entry.name? ≠ some name) → IsTree entries →
      IsTree (.file name :: entries)
  | dir {name : Path.FileName} {sub entries : List Entry} :
      (∀ entry ∈ entries, entry.name? ≠ some name) → IsTree sub → IsTree entries →
      IsTree (.dir name sub :: entries)

/-- A finite directory tree, in which no entry of a directory is a link to a directory. -/
structure DirectoryTree where
  entries : List Entry
  isTree : IsTree entries

/-- A file that is found without patterns : `Cargo.toml`, `Cargo.lock`, or a name that ends
with `.rs`. -/
def DefaultName (name : Path.FileName) : Prop :=
  name.1 = utf8 "Cargo.toml".toList ∨ name.1 = utf8 "Cargo.lock".toList ∨
    utf8 ".rs".toList <:+ name.1

variable {entries : List Entry}

theorem IsTree.not_listingFails (h : IsTree entries) : ¬ListingFails entries := by
  induction h with
  | nil => rintro (hmem | ⟨hmem, -⟩ | ⟨hmem, -⟩) <;> cases hmem
  | file _ _ ih =>
    rintro (hmem | ⟨hmem, hskip⟩ | ⟨hmem, hskip, hsub⟩) <;>
      rcases List.mem_cons.1 hmem with heq | hmem
    · cases heq
    · exact ih (.failed hmem)
    · cases heq
    · exact ih (.unreadable hmem hskip)
    · cases heq
    · exact ih (.dir hmem hskip hsub)
  | dir _ _ _ ihsub ih =>
    rintro (hmem | ⟨hmem, hskip⟩ | ⟨hmem, hskip, hsub⟩) <;>
      rcases List.mem_cons.1 hmem with heq | hmem
    · cases heq
    · exact ih (.failed hmem)
    · cases heq
    · exact ih (.unreadable hmem hskip)
    · cases heq
      exact ihsub hsub
    · exact ih (.dir hmem hskip hsub)

/-- What is found of an entry is below its name. -/
theorem name?_of_mem_found {dir names : List Path.FileName} {entry : Entry}
    (h : some names ∈ entry.found dir) :
    ∃ name rest, entry.name? = some name ∧ names = dir ++ name :: rest := by
  rcases entry with name | ⟨name, sub⟩ | ⟨name, e⟩ | e
  · obtain rfl := Option.some.inj (List.mem_singleton.1 h)
    exact ⟨name, [], rfl, rfl⟩
  · rw [Entry.found] at h
    split_ifs at h with hskip
    · cases h
    · rcases below_of_mem_foundIn h with ⟨rest, heq, -⟩ | ⟨heq, -⟩
      · refine ⟨name, rest, rfl, ?_⟩
        rw [Option.some.inj heq, List.append_assoc]
        rfl
      · cases heq
  · rw [Entry.found] at h
    split_ifs at h
    · cases h
    · cases List.mem_singleton.1 h
  · cases List.mem_singleton.1 h

/-- What is found below one name is not found among the entries with other names. -/
theorem disjoint_foundIn {dir : List Path.FileName} {entry : Entry} {name : Path.FileName}
    (hname : entry.name? = some name) (hfresh : ∀ e ∈ entries, e.name? ≠ some name)
    (hfails : ¬ListingFails entries) : (entry.found dir).Disjoint (foundIn dir entries) := by
  intro x hx hx'
  rcases x with _ | names
  · rcases below_of_mem_foundIn hx' with ⟨names, heq, -⟩ | ⟨-, hlisting⟩
    · cases heq
    · exact hfails hlisting
  · obtain ⟨entry', hmem, hfound⟩ := mem_foundIn.1 hx'
    obtain ⟨first, rest, hfirst, rfl⟩ := name?_of_mem_found hx
    obtain ⟨first', rest', hfirst', heq⟩ := name?_of_mem_found hfound
    obtain ⟨rfl, -⟩ := List.cons.inj (List.append_cancel_left heq)
    rw [hname] at hfirst
    exact hfresh entry' hmem (hfirst'.trans hfirst.symm)

/-- A recursive walk finds every file once. -/
theorem IsTree.nodup_foundIn (h : IsTree entries) (dir : List Path.FileName) :
    (foundIn dir entries).Nodup := by
  induction h generalizing dir with
  | nil => exact List.nodup_nil
  | @file name entries hfresh htree ih =>
    have hdisjoint : ((Entry.file name).found dir).Disjoint (foundIn dir entries) :=
      disjoint_foundIn rfl hfresh htree.not_listingFails
    exact List.Nodup.append (List.nodup_singleton _) (ih dir) hdisjoint
  | dir hfresh _ htree ihsub ih =>
    refine List.Nodup.append ?_ (ih dir) (disjoint_foundIn rfl hfresh htree.not_listingFails)
    rw [Entry.found]
    split_ifs
    · exact List.nodup_nil
    · exact ihsub _

theorem DirectoryTree.nodup_foundNames (tree : DirectoryTree) : (foundNames tree.entries).Nodup :=
  List.Nodup.filterMap (fun _ _ _ h h' => by rw [Option.mem_def, id] at h h'; rw [h, h'])
    (tree.isTree.nodup_foundIn [])

/-! ## The files that are selected -/

theorem isDefault_iff (name : Path.FileName) : isDefault name.1 = true ↔ DefaultName name := by
  have hall : (".rs".toList.all fun c => decide (c.toNat < 128)) = true := by decide
  have hascii : ∀ c ∈ ".rs".toList, c.toNat < 128 :=
    fun c hc => of_decide_eq_true (List.all_eq_true.1 hall c hc)
  rw [DefaultName, ← suffix_fromUtf8Lossy_iff hascii]
  simp only [isDefault, Bool.or_eq_true, decide_eq_true_eq, List.isSuffixOf_iff_suffix, or_assoc]

theorem FileBelow.ne_nil {names : List Path.FileName} (h : FileBelow entries names) :
    names ≠ [] := by
  rcases h with _ | _ <;> exact List.cons_ne_nil _ _

/-- Without patterns a file is selected by its name. -/
theorem isSelected_below (root : PathBuf) {names : List Path.FileName} (hne : names ≠ []) :
    isSelected [] (Path.below root names) = true ↔ ∃ name ∈ names.getLast?, DefaultName name := by
  obtain ⟨init, name, rfl⟩ := (List.eq_nil_or_concat names).resolve_left hne
  rw [List.concat_eq_append, Path.below_concat, isSelected, Path.fileName_join_fileName,
    List.getLast?_concat]
  simp only [ne_eq, not_true_eq_false, if_false, isDefault_iff, Option.mem_def,
    Option.some.injEq, exists_eq_left']

/-- Without patterns, exactly the default files of a tree are found that are below no directory
called `target` or `.git`, each of them once. -/
theorem allPaths_default (glob : Glob) (root : PathBuf) (tree : DirectoryTree) :
    ∃ found : List (List Path.FileName),
      allPaths glob root (.ok tree.entries) [] = .ok (found.map (Path.below root)) ∧
      (found.map (Path.below root)).Nodup ∧
      ∀ names, names ∈ found ↔ FileBelow tree.entries names ∧
        ∃ name ∈ names.getLast?, DefaultName name := by
  have hpatterns : allPaths glob root (.ok tree.entries) [] =
      visitDirectories (isSelected []) ⟨[], [(root, .ok tree.entries)]⟩ := rfl
  rcases visitRoot_below_spec (isSelected []) root tree.entries with
    ⟨names, hvisit, hperm, -⟩ | ⟨-, hfails⟩
  · refine ⟨names.filter fun n => isSelected [] (Path.below root n), ?_, ?_, fun n => ?_⟩
    · rw [hpatterns, hvisit, selectedBelow, List.filter_map]
      rfl
    · have hnodup := hperm.nodup_iff.2 tree.nodup_foundNames
      exact (hnodup.filter _).map (Path.below_injective root)
    · rw [List.mem_filter, hperm.mem_iff, mem_foundNames]
      exact and_congr_right fun hbelow => isSelected_below root hbelow.ne_nil
  · exact absurd hfails tree.isTree.not_listingFails

end CargoStylus
