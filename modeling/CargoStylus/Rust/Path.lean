import CargoStylus.Rust.Bytes
import Mathlib.Data.List.Infix
import Mathlib.Data.List.Lex
import Mathlib.Data.Prod.Lex

/-!
# Paths

A path is a byte string, and two paths are compared by their components : the separators
between them and the `.` inside do not count, but a leading `.` does. So `./a` and `a` are
different paths, and sorting paths by their components is sorting by a total order that
tells apart any two paths `./a/b/c` (`sortPaths_eq_of_perm`).

Pushing a path joins it to the end, and `pop` goes back to the parent, which is one component
shorter (`components_pop`). So popping what was pushed leads back only if that was one
component (`components_pop_join`).

`FileName` is the name of a directory entry, and `dotPath names` the path of the entry that
is reached from `.` through `names`. Its components are `.` and the names
(`components_dotPath`).
-/

namespace Rust.Path

/-- `/`. -/
def separator : UInt8 := 0x2f

/-- `.`. -/
def dot : UInt8 := 0x2e

/-- The components of a path. -/
inductive Component where
  | rootDir
  | curDir
  | parentDir
  | normal (name : Bytes)
deriving DecidableEq

/-- What a part between separators is. An empty part and a `.` inside are nothing. -/
def component? (part : Bytes) : Option Component :=
  if part = [] ∨ part = [dot] then none
  else if part = [dot, dot] then some .parentDir
  else some (.normal part)

/-- `Path::components`. -/
def components (path : Bytes) : List Component :=
  (if path.head? = some separator then [.rootDir] else []) ++
  (if (path.splitOn separator).head? = some [dot] then [.curDir] else []) ++
  (path.splitOn separator).filterMap component?

/-- `Path::join`. -/
def join (path child : Bytes) : Bytes :=
  if child.head? = some separator then child
  else if path = [] ∨ path.getLast? = some separator then path ++ child
  else path ++ separator :: child

theorem join_nil (path : Bytes) : join [] path = path := by
  unfold join
  split_ifs <;> simp_all

/-- `Path::file_name`. -/
def fileName (path : Bytes) : Option Bytes :=
  match (components path).getLast? with
  | some (.normal name) => some name
  | _ => none

/-- `Path::ends_with`. -/
def endsWith (path child : Bytes) : Bool :=
  (components child).isSuffixOf (components path)

/-- Equality of paths. -/
def eq (path path' : Bytes) : Bool :=
  components path = components path'

/-- Where a component leads from a directory, given by the names from the root. -/
def Component.follow (dir : List Bytes) : Component → List Bytes
  | .rootDir => []
  | .curDir => dir
  | .parentDir => dir.dropLast
  | .normal name => dir ++ [name]

/-- Where a path leads from the working directory, if there are no links on the way. -/
def resolve (cwd : List Bytes) (path : Bytes) : List Bytes :=
  (components path).foldl Component.follow cwd

/-! ## The components of joined paths -/

/-- The components of a path without its root and without a leading `.`. -/
def body (path : Bytes) : List Component :=
  (path.splitOn separator).filterMap component?

/-- What is behind a path and a separator is more components. -/
theorem components_append_separator {path : Bytes} (hpath : path ≠ []) (child : Bytes) :
    components (path ++ separator :: child) = components path ++ body child := by
  have hhead : (path ++ separator :: child).head? = path.head? :=
    List.head?_append_of_ne_nil _ hpath
  have hsplit : (path ++ separator :: child).splitOn separator =
      path.splitOn separator ++ child.splitOn separator := by
    rw [List.splitOn_append_cons_self]
  have hfirst : (path.splitOn separator ++ child.splitOn separator).head? =
      (path.splitOn separator).head? :=
    List.head?_append_of_ne_nil _ (List.splitOn_ne_nil _ _)
  simp only [components, body, hhead, hsplit, hfirst, List.filterMap_append, List.append_assoc]

theorem components_separator_cons (child : Bytes) :
    components (separator :: child) = .rootDir :: body child := by
  have hsplit : (separator :: child).splitOn separator = [] :: child.splitOn separator :=
    List.splitOn_append_cons_self [] child
  have hdot : ¬(([] : Bytes) :: child.splitOn separator).head? = some [dot] := by
    simp
  rw [components, body, List.head?_cons, if_pos rfl, hsplit, if_neg hdot]
  rfl

/-- The components of a relative path are added to those of the path it is joined to. -/
theorem components_join {path child : Bytes} (hpath : path ≠ [])
    (hchild : child.head? ≠ some separator) :
    components (join path child) = components path ++ body child := by
  rw [join, if_neg hchild]
  by_cases hlast : path.getLast? = some separator
  · rw [if_pos (.inr hlast)]
    obtain ⟨init, rfl⟩ := List.getLast?_eq_some_iff.1 hlast
    rw [List.append_assoc, List.singleton_append]
    rcases init with _ | ⟨x, init⟩
    · rw [List.nil_append, List.nil_append, components_separator_cons, components_separator_cons]
      rfl
    · rw [components_append_separator (List.cons_ne_nil _ _),
        components_append_separator (List.cons_ne_nil _ _)]
      simp [body, component?]
  · rw [if_neg (not_or.2 ⟨hpath, hlast⟩), components_append_separator hpath]

theorem component?_ne_rootDir (part : Bytes) : component? part ≠ some .rootDir := by
  unfold component?
  split_ifs <;> simp

theorem rootDir_not_mem_body (path : Bytes) : Component.rootDir ∉ body path := by
  intro h
  obtain ⟨part, -, hpart⟩ := List.mem_filterMap.1 h
  exact component?_ne_rootDir part hpart

@[simp] theorem body_separator_cons (path : Bytes) : body (separator :: path) = body path := by
  have hsplit : (separator :: path).splitOn separator = [] :: path.splitOn separator :=
    List.splitOn_append_cons_self [] path
  rw [body, hsplit]
  rfl

/-- Leading separators are no components of the body. -/
theorem body_dropWhile (path : Bytes) : body (path.dropWhile (· = separator)) = body path := by
  induction path with
  | nil => rfl
  | cons x path ih =>
    rw [List.dropWhile_cons]
    split_ifs with hx
    · rw [ih, of_decide_eq_true hx, body_separator_cons]
    · rfl

/-- The child leads on from a path with these components : it is relative, or the path is the
root. -/
def Extends (path : List Component) (child : Bytes) : Prop :=
  child.head? = some separator → path = [.rootDir]

/-- The components of a child are added exactly if it leads on. -/
theorem components_join_iff {path : Bytes} (hpath : path ≠ []) (child : Bytes) :
    components (join path child) = components path ++ body child ↔
      Extends (components path) child := by
  by_cases hchild : child.head? = some separator
  · obtain ⟨child, rfl⟩ := List.head?_eq_some_iff.1 hchild
    rw [join, if_pos hchild, components_separator_cons, body_separator_cons,
      ← List.singleton_append, List.append_cancel_right_eq]
    exact ⟨fun h _ => h.symm, fun h => (h hchild).symm⟩
  · exact iff_of_true (components_join hpath hchild) fun h => absurd h hchild

theorem body_of_not_mem {part : Bytes} (h : separator ∉ part) :
    body part = (component? part).toList := by
  rw [body, List.splitOn_eq_singleton h, List.filterMap_cons, List.filterMap_nil]
  cases component? part <;> rfl

/-- A part without separators is at most one component. -/
theorem components_of_not_mem {part : Bytes} (h : separator ∉ part) :
    components part = if part = [dot] then [.curDir] else (component? part).toList := by
  have hhead : part.head? ≠ some separator := fun hsep => h (List.mem_of_mem_head? hsep)
  have hbody : (part.splitOn separator).filterMap component? = (component? part).toList :=
    body_of_not_mem h
  rw [components, if_neg hhead, hbody, List.splitOn_eq_singleton h]
  split_ifs with hdot hpart hpart
  · obtain rfl := hpart
    rfl
  · exact absurd (Option.some.inj hdot) hpart
  · exact absurd (congrArg some hpart) hdot
  · rfl

/-- A path is one part, or a part behind a separator. -/
theorem part_or_append (path : Bytes) : separator ∉ path ∨
    ∃ init part, path = init ++ separator :: part ∧ separator ∉ part := by
  by_cases hmem : separator ∈ path
  · obtain ⟨back, front, hsplit, hnot⟩ :=
      List.eq_append_cons_of_mem (List.mem_reverse.2 hmem)
    refine .inr ⟨front.reverse, back.reverse, ?_, fun h => hnot (List.mem_reverse.1 h)⟩
    rw [← List.reverse_reverse path, hsplit]
    simp
  · exact .inl hmem

theorem eq_nil_of_components_eq_nil (path : Bytes) (h : components path = []) : path = [] := by
  rcases part_or_append path with hnot | ⟨init, part, hpath, -⟩
  · rw [components_of_not_mem hnot] at h
    split_ifs at h with hdot
    by_contra hne
    rw [component?, if_neg (not_or.2 ⟨hne, hdot⟩)] at h
    split_ifs at h <;> cases h
  · have hlt : init.length < path.length := by simp [hpath]
    rw [hpath] at h
    rcases eq_or_ne init [] with rfl | hinit
    · rw [List.nil_append, components_separator_cons] at h
      cases h
    · rw [components_append_separator hinit, List.append_eq_nil_iff] at h
      exact absurd (eq_nil_of_components_eq_nil init h.1) hinit
termination_by path.length

@[simp] theorem components_eq_nil_iff {path : Bytes} : components path = [] ↔ path = [] :=
  ⟨eq_nil_of_components_eq_nil path, fun h => by rw [h]; rfl⟩

/-- How a path joined to another one is split depends on its components only. -/
theorem components_join_congr {path path' : Bytes} (h : components path = components path')
    (child : Bytes) : components (join path child) = components (join path' child) := by
  by_cases hchild : child.head? = some separator
  · rw [join, if_pos hchild, join, if_pos hchild]
  · rcases eq_or_ne path [] with rfl | hpath
    · rw [components_eq_nil_iff.1 h.symm]
    · have hpath' : path' ≠ [] := fun hnil => hpath (components_eq_nil_iff.1 (h.trans (by
        rw [hnil]; rfl)))
      rw [components_join hpath hchild, components_join hpath' hchild, h]

/-- A path that ends with another byte than a separator and a `.` ends with a name. -/
theorem body_ne_nil {path : Bytes} {last : UInt8} (h : path.getLast? = some last)
    (hseparator : last ≠ separator) (hdot : last ≠ dot) : body path ≠ [] := by
  have hpart : ∀ part : Bytes, part.getLast? = some last → component? part ≠ none := by
    intro part hlast
    have hne : ¬(part = [] ∨ part = [dot]) := by
      rintro (rfl | rfl)
      · cases hlast
      · exact hdot (Option.some.inj hlast).symm
    rw [component?, if_neg hne]
    split_ifs <;> exact Option.some_ne_none _
  rcases part_or_append path with hnot | ⟨init, part, rfl, hnot⟩
  · rw [body_of_not_mem hnot]
    exact fun hnil => hpart path h (Option.toList_eq_nil_iff.1 hnil)
  · rw [List.getLast?_append_of_ne_nil _ (List.cons_ne_nil _ _)] at h
    rcases eq_or_ne part [] with rfl | hne
    · exact absurd (Option.some.inj h).symm hseparator
    · rw [List.getLast?_cons_of_ne_nil hne] at h
      rw [body, List.splitOn_append_cons_self, List.filterMap_append]
      intro hnil
      have hbody : body part = [] := (List.append_eq_nil_iff.1 hnil).2
      rw [body_of_not_mem hnot] at hbody
      exact hpart part h (Option.toList_eq_nil_iff.1 hbody)

/-- A path ends with the root only if it is the root. -/
theorem eq_rootDir_of_getLast? {path : Bytes}
    (h : (components path).getLast? = some .rootDir) : components path = [.rootDir] := by
  have hbody : (path.splitOn separator).filterMap component? = [] := by
    by_contra hne
    rw [components, List.getLast?_append_of_ne_nil _ hne] at h
    exact rootDir_not_mem_body path (List.mem_of_getLast? h)
  rw [components, hbody, List.append_nil] at h ⊢
  split_ifs at h ⊢ <;> first | rfl | cases h

/-! ## Leaving a directory -/

/-- `PathBuf::pop`, which leaves a path without a parent as it is. -/
def pop (path : Bytes) : Bytes :=
  match (components path).getLast? with
  | none => path
  | some .rootDir => path
  | some _ =>
    (path.inits.find? fun start => components start = (components path).dropLast).getD path

/-- The components without the last, unless there is no parent. -/
def parentComponents (cs : List Component) : List Component :=
  match cs.getLast? with
  | none => cs
  | some .rootDir => cs
  | some _ => cs.dropLast

theorem parentComponents_of_getLast? {cs : List Component} {c : Component}
    (h : cs.getLast? = some c) (hc : c ≠ .rootDir) : parentComponents cs = cs.dropLast := by
  unfold parentComponents
  rw [h]
  cases c <;> first | rfl | exact absurd rfl hc

/-- Behind other components than the root, the last one is left. -/
theorem parentComponents_append (cs : List Component) {added : List Component} (hne : added ≠ [])
    (hroot : .rootDir ∉ added) : parentComponents (cs ++ added) = cs ++ added.dropLast := by
  obtain ⟨c, hlast⟩ := Option.isSome_iff_exists.1 (List.getLast?_isSome.2 hne)
  have hc : c ≠ .rootDir := fun heq => hroot (heq ▸ List.mem_of_getLast? hlast)
  rw [parentComponents_of_getLast? (by rw [List.getLast?_append_of_ne_nil _ hne, hlast]) hc,
    List.dropLast_append_of_ne_nil hne]

/-- Only the root has no parent. -/
theorem parentComponents_eq_self_iff {path : Bytes} (hpath : path ≠ []) :
    parentComponents (components path) = components path ↔ components path = [.rootDir] := by
  have hne : components path ≠ [] := fun h => hpath (components_eq_nil_iff.1 h)
  obtain ⟨c, hlast⟩ := Option.isSome_iff_exists.1 (List.getLast?_isSome.2 hne)
  by_cases hc : c = .rootDir
  · subst hc
    rw [eq_rootDir_of_getLast? hlast]
    exact iff_of_true rfl rfl
  · rw [parentComponents_of_getLast? hlast hc]
    refine iff_of_false (fun h => ?_) fun h => ?_
    · have hlen := congrArg List.length h
      have hpos := List.length_pos_of_ne_nil hne
      rw [List.length_dropLast] at hlen
      omega
    · rw [h] at hlast
      exact hc (Option.some.inj hlast).symm

/-- A path that ends with another component than the root has a start with those before. -/
theorem exists_prefix_components (path : Bytes) {c : Component}
    (h : (components path).getLast? = some c) (hc : c ≠ .rootDir) :
    ∃ start, start <+: path ∧ components start = (components path).dropLast := by
  rcases part_or_append path with hnot | ⟨init, part, hpath, hnot⟩
  · refine ⟨[], List.nil_prefix, ?_⟩
    rw [components_of_not_mem hnot]
    split_ifs
    · rfl
    · cases component? path <;> rfl
  · have hlt : init.length < path.length := by simp [hpath]
    have hbody : body part = (component? part).toList := body_of_not_mem hnot
    rw [hpath] at h ⊢
    rcases eq_or_ne init [] with rfl | hinit
    · rw [List.nil_append, components_separator_cons, hbody] at h ⊢
      cases hpart : component? part with
      | none =>
        rw [hpart] at h
        exact absurd (Option.some.inj h).symm hc
      | some c' =>
        have hroot : components [separator] = [.rootDir] := by decide
        exact ⟨[separator], ⟨part, rfl⟩, hroot⟩
    · rw [components_append_separator hinit, hbody] at h ⊢
      cases hpart : component? part with
      | none =>
        rw [hpart, Option.toList_none, List.append_nil] at h
        rw [Option.toList_none, List.append_nil]
        obtain ⟨start, hstart, hcomponents⟩ := exists_prefix_components init h hc
        exact ⟨start, hstart.trans (List.prefix_append _ _), hcomponents⟩
      | some c' =>
        exact ⟨init, List.prefix_append _ _, by rw [Option.toList_some, List.dropLast_concat]⟩
termination_by path.length

theorem components_pop (path : Bytes) :
    components (pop path) = parentComponents (components path) := by
  cases hlast : (components path).getLast? with
  | none => rw [pop, parentComponents, hlast]
  | some c =>
    by_cases hc : c = .rootDir
    · subst hc
      rw [pop, parentComponents, hlast]
    · let isParent : Bytes → Bool := fun start => components start = (components path).dropLast
      obtain ⟨start, hstart, hcomponents⟩ := exists_prefix_components path hlast hc
      have hsome : (path.inits.find? isParent).isSome :=
        List.find?_isSome.2 ⟨start, (List.mem_inits _ _).2 hstart, decide_eq_true hcomponents⟩
      obtain ⟨found, hfound⟩ := Option.isSome_iff_exists.1 hsome
      have hpop : pop path = (path.inits.find? isParent).getD path := by
        unfold pop
        rw [hlast]
        cases c with
        | rootDir => exact absurd rfl hc
        | curDir => rfl
        | parentDir => rfl
        | normal name => rfl
      have hparent : isParent found = true := List.find?_some hfound
      rw [hpop, hfound, Option.getD_some, parentComponents_of_getLast? hlast hc]
      exact of_decide_eq_true hparent

/-- Leaving takes one component back, however many were joined. -/
theorem components_pop_join {path child : Bytes} (hpath : path ≠ [])
    (hchild : child.head? ≠ some separator) (hbody : body child ≠ []) :
    components (pop (join path child)) = components path ++ (body child).dropLast := by
  rw [components_pop, components_join hpath hchild,
    parentComponents_append _ hbody (rootDir_not_mem_body child)]

/-! ## The order of paths -/

/-- A component as a number and a name, which compare as the components do. -/
def Component.key : Component → ℕ ×ₗ List ℕ
  | .rootDir => toLex (0, [])
  | .curDir => toLex (1, [])
  | .parentDir => toLex (2, [])
  | .normal name => toLex (3, name.map UInt8.toNat)

theorem map_toNat_injective : Function.Injective (List.map UInt8.toNat) :=
  List.map_injective_iff.2 fun _ _ => UInt8.toNat_inj.1

theorem Component.key_injective : Function.Injective Component.key := by
  intro a b h
  have hrank : (ofLex a.key).1 = (ofLex b.key).1 := congrArg (fun k => (ofLex k).1) h
  have hname : (ofLex a.key).2 = (ofLex b.key).2 := congrArg (fun k => (ofLex k).2) h
  rcases a with _ | _ | _ | name <;> rcases b with _ | _ | _ | name' <;>
    first
    | rfl
    | exact congrArg Component.normal (map_toNat_injective hname)
    | simp [Component.key] at hrank

/-- `Ord for Path`. -/
def cmpLe (path path' : Bytes) : Bool :=
  (components path).map Component.key ≤ (components path').map Component.key

/-- `Vec<PathBuf>::sort`, which is stable. -/
def sortPaths (paths : List Bytes) : List Bytes :=
  paths.mergeSort cmpLe

theorem cmpLe_trans {a b c : Bytes} (hab : cmpLe a b) (hbc : cmpLe b c) : cmpLe a c :=
  decide_eq_true ((of_decide_eq_true hab).trans (of_decide_eq_true hbc))

theorem cmpLe_total (a b : Bytes) : (cmpLe a b || cmpLe b a) = true := by
  simp only [cmpLe, Bool.or_eq_true, decide_eq_true_eq]
  exact LinearOrder.le_total _ _

/-- Paths that are not told apart have the same components. -/
theorem components_eq_of_cmpLe {a b : Bytes} (hab : cmpLe a b) (hba : cmpLe b a) :
    components a = components b :=
  List.map_injective_iff.2 Component.key_injective
    ((of_decide_eq_true hab).antisymm (of_decide_eq_true hba))

@[simp] theorem mem_sortPaths {path : Bytes} {paths : List Bytes} :
    path ∈ sortPaths paths ↔ path ∈ paths :=
  List.mem_mergeSort

/-- Sorting forgets the order, if the components tell the paths apart. -/
theorem sortPaths_eq_of_perm {paths paths' : List Bytes} (h : paths.Perm paths')
    (hinj : ∀ a ∈ paths, ∀ b ∈ paths, components a = components b → a = b) :
    sortPaths paths = sortPaths paths' := by
  have hperm : (sortPaths paths).Perm (sortPaths paths') :=
    (List.mergeSort_perm _ _).trans (h.trans (List.mergeSort_perm _ _).symm)
  have hsorted : ∀ l : List Bytes, (sortPaths l).Pairwise fun a b => cmpLe a b = true :=
    fun l => @List.pairwise_mergeSort _ cmpLe (fun _ _ _ => cmpLe_trans) cmpLe_total l
  refine List.Perm.eq_of_pairwise ?_ (hsorted paths) (hsorted paths') hperm
  intro a b ha hb hab hba
  exact hinj a (mem_sortPaths.1 ha) b (h.mem_iff.2 (mem_sortPaths.1 hb))
    (components_eq_of_cmpLe hab hba)

/-! ## Names below the current directory -/

/-- The name of a directory entry. -/
abbrev FileName := { name : Bytes // name ≠ [] ∧ separator ∉ name ∧ name ≠ [dot] ∧
  name ≠ [dot, dot] }

/-- The path from `.` through `names`. -/
def dotPath (names : List FileName) : Bytes :=
  dot :: names.flatMap fun name => separator :: name.1

theorem dotPath_concat (names : List FileName) (name : FileName) :
    dotPath (names ++ [name]) = dotPath names ++ separator :: name.1 := by
  simp [dotPath]

theorem head?_fileName (name : FileName) : name.1.head? ≠ some separator :=
  fun h => name.2.2.1 (List.mem_of_mem_head? h)

theorem getLast?_dotPath (names : List FileName) :
    (dotPath names).getLast? ≠ some separator := by
  intro h
  rcases List.eq_nil_or_concat names with rfl | ⟨init, name, rfl⟩
  · exact absurd h (by decide)
  · have hlast : (dotPath (init ++ [name])).getLast? = name.1.getLast? := by
      rw [dotPath_concat, List.getLast?_append_of_ne_nil _ (List.cons_ne_nil _ _),
        List.getLast?_cons_of_ne_nil name.2.1]
    rw [List.concat_eq_append, hlast] at h
    exact name.2.2.1 (List.mem_of_getLast? h)

/-- The path of an entry of the directory. -/
theorem join_dotPath (names : List FileName) (name : FileName) :
    join (dotPath names) name.1 = dotPath (names ++ [name]) := by
  have hne : ¬(dotPath names = [] ∨ (dotPath names).getLast? = some separator) :=
    not_or.2 ⟨List.cons_ne_nil _ _, getLast?_dotPath names⟩
  rw [join, if_neg (head?_fileName name), if_neg hne, dotPath_concat]

theorem component?_fileName (name : FileName) : component? name.1 = some (.normal name.1) := by
  obtain ⟨name, hne, -, hdot, hparent⟩ := name
  rw [component?, if_neg (not_or.2 ⟨hne, hdot⟩), if_neg hparent]

theorem body_fileName (name : FileName) : body name.1 = [.normal name.1] := by
  have hsplit : name.1.splitOn separator = [name.1] := List.splitOn_eq_singleton name.2.2.1
  simp only [body, hsplit, List.filterMap_cons, component?_fileName, List.filterMap_nil]

theorem components_fileName (name : FileName) : components name.1 = [.normal name.1] := by
  have hhead := head?_fileName name
  have hsplit : name.1.splitOn separator = [name.1] := List.splitOn_eq_singleton name.2.2.1
  simp [components, hhead, hsplit, component?_fileName, name.2.2.2.1]

/-- The path of an entry of a directory has the components of the directory and one more. -/
theorem components_join_fileName (path : Bytes) (name : FileName) :
    components (join path name.1) = components path ++ [.normal name.1] := by
  rcases eq_or_ne path [] with rfl | hpath
  · rw [join, if_neg (head?_fileName name), if_pos (.inl rfl), List.nil_append,
      components_fileName]
    rfl
  · rw [components_join hpath (head?_fileName name), body_fileName]

/-- The name of the entry of a directory. -/
theorem fileName_join_fileName (path : Bytes) (name : FileName) :
    fileName (join path name.1) = some name.1 := by
  rw [fileName, components_join_fileName, List.getLast?_concat]

/-- The name of the entry of a directory that is itself reached by a name. -/
theorem fileName_join (path : Bytes) (dir name : FileName) :
    fileName (join (join path dir.1) name.1) = some name.1 :=
  fileName_join_fileName (join path dir.1) name

/-- A path ends with a name if its last component is the name. -/
theorem endsWith_join (path : Bytes) (name last : FileName) :
    endsWith (join path name.1) last.1 = decide (name = last) := by
  have hsuffix : endsWith (join path name.1) last.1 = true ↔ name = last := by
    rw [endsWith, List.isSuffixOf_iff_suffix, components_fileName, components_join_fileName]
    refine ⟨fun h => ?_, fun h => ?_⟩
    · obtain ⟨init, hinit⟩ := h
      exact Subtype.ext (Component.normal.inj
        (List.singleton_inj.1 (List.append_inj_right' hinit rfl))).symm
    · subst h
      exact List.suffix_append _ _
  rw [← Bool.coe_iff_coe, hsuffix, decide_eq_true_eq]

/-- The path from a directory through `names`. -/
def below (root : Bytes) (names : List FileName) : Bytes :=
  names.foldl (fun path name => join path name.1) root

theorem below_concat (root : Bytes) (names : List FileName) (name : FileName) :
    below root (names ++ [name]) = join (below root names) name.1 :=
  List.foldl_concat _ _ _ _

@[simp] theorem components_below (root : Bytes) (names : List FileName) :
    components (below root names) =
      components root ++ names.map fun name => .normal name.1 := by
  induction names using List.reverseRecOn with
  | nil => rw [List.map_nil, List.append_nil]; rfl
  | append_singleton names name ih =>
    rw [below_concat, components_join_fileName, ih, List.append_assoc, List.map_append]
    rfl

theorem below_injective (root : Bytes) : Function.Injective (below root) := by
  intro names names' h
  have hcomponents := congrArg components h
  rw [components_below, components_below, List.append_cancel_left_eq] at hcomponents
  exact List.map_injective_iff.2 (fun a b hab => Subtype.ext (Component.normal.inj hab))
    hcomponents

theorem dotPath_eq_below (names : List FileName) : dotPath names = below [dot] names := by
  induction names using List.reverseRecOn with
  | nil => rfl
  | append_singleton names name ih => rw [below_concat, ← ih, join_dotPath]

@[simp] theorem components_dotPath (names : List FileName) :
    components (dotPath names) = .curDir :: names.map fun name => .normal name.1 := by
  have hdot : components [dot] = [.curDir] := by decide
  rw [dotPath_eq_below, components_below, hdot]
  rfl

theorem dotPath_injective : Function.Injective dotPath := by
  intro names names' h
  rw [dotPath_eq_below, dotPath_eq_below] at h
  exact below_injective _ h

/-- The components of two paths from `.` tell them apart. -/
theorem dotPath_eq_of_components {names names' : List FileName}
    (h : components (dotPath names) = components (dotPath names')) :
    dotPath names = dotPath names' := by
  rw [components_dotPath, components_dotPath] at h
  have hnames : names = names' :=
    List.map_injective_iff.2 (fun a b hab => Subtype.ext (Component.normal.inj hab))
      (List.cons.inj h).2
  rw [hnames]

theorem fileName_dotPath (names : List FileName) (name : FileName) :
    fileName (dotPath (names ++ [name])) = some name.1 := by
  rw [← join_dotPath, fileName_join_fileName]

theorem component?_ne_curDir (part : Bytes) : component? part ≠ some .curDir := by
  unfold component?
  split_ifs <;> simp

/-- A path with a leading `.` is that, or starts with `./`. -/
theorem eq_dot_of_components {path : Bytes} {rest : List Component}
    (h : components path = .curDir :: rest) : path = [dot] ∨ [dot, separator] <+: path := by
  have hhead : (path.splitOn separator).head? = some [dot] := by
    by_contra hcur
    rw [components, if_neg hcur, List.append_nil] at h
    split_ifs at h
    · cases h
    · have hmem : Component.curDir ∈ (path.splitOn separator).filterMap component? := by
        rw [List.nil_append] at h
        rw [h]
        exact List.mem_cons_self
      obtain ⟨part, -, hpart⟩ := List.mem_filterMap.1 hmem
      exact component?_ne_curDir part hpart
  obtain ⟨parts, hparts⟩ := List.head?_eq_some_iff.1 hhead
  have hpath : [separator].intercalate ([dot] :: parts) = path := by
    rw [← hparts]
    exact List.intercalate_splitOn separator
  rcases parts with _ | ⟨part, parts⟩
  · exact .inl hpath.symm
  · rw [List.intercalate_cons_cons, List.append_assoc] at hpath
    exact .inr ⟨_, by rw [← hpath]; rfl⟩

end Rust.Path
