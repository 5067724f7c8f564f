import CargoStylus.CLang.Meaning
import CargoStylus.GenFiles

/-!
# Include guards

The guard of a header is made of the name of the solidity file and the name of the contract, in
upper case. The C preprocessor reads it up to the first character that cannot be in an
identifier, and the name of a solidity file has one as a rule, the dot. Then the name of the
contract is not read. So all headers can be included together exactly if what is read of the
names is different (`guardsDiffer_iff`) : for two file names with a dot, what is before it.
-/

namespace CargoStylus

open Rust Rust.Interaction Rust.Interaction.Prog Json
open CLang (CIdentifier)

variable (libs : GenLibs) (order : MapOrder)

/-! ## What the preprocessor reads -/

/-- `#ifndef`. -/
def ifndef : Text :=
  ['#', 'i', 'f', 'n', 'd', 'e', 'f', ' ']

/-- `#define`. -/
def define : Text :=
  ['#', 'd', 'e', 'f', 'i', 'n', 'e', ' ']

/-- The identifier in the first line with the directive. -/
def directiveName (isIdent : Char → Bool) (directive file : Text) : Option Text :=
  ((file.splitOn '\n').findSome? fun line => line.dropPrefix? directive).map
    (List.takeWhile isIdent)

/-- Any two contracts with a header have different guards, in both directives. -/
def GuardsDiffer (ident : CIdentifier) (input : Value) : Prop :=
  ∀ a ∈ generatedContracts libs order (contractEntries ((inputContracts input).getD [])),
    ∀ b ∈ generatedContracts libs order (contractEntries ((inputContracts input).getD [])),
      (a.file, a.contract) ≠ (b.file, b.contract) → ∀ header header',
        a.files.1 = some header → b.files.1 = some header' →
          ∀ directive ∈ [ifndef, define],
            directiveName ident.isIdent directive header ≠
              directiveName ident.isIdent directive header'

/-! ## What is read of the names -/

/-- The name has a character that ends identifiers. -/
def Cut (ident : CIdentifier) (name : Text) : Prop :=
  ∃ c ∈ name, ident.isIdent c = false

/-- The name up to such a character. -/
def beginning (ident : CIdentifier) (name : Text) : Text :=
  name.takeWhile ident.isIdent

/-- The two names as far as they are read, if the name of the file is read to its end. -/
def fullName (ident : CIdentifier) (file contract : Text) : Text :=
  file ++ '_' :: beginning ident (contract ++ ['_'])

/-- What is read of the names of one contract is not what is read of those of the other. -/
structure NamesDiffer (ident : CIdentifier) (file contract file' contract' : Text) : Prop where
  cut : Cut ident file → Cut ident file' → beginning ident file ≠ beginning ident file'
  cutLeft : Cut ident file → ¬Cut ident file' →
    beginning ident file ≠ fullName ident file' contract'
  cutRight : ¬Cut ident file → Cut ident file' →
    fullName ident file contract ≠ beginning ident file'
  full : ¬Cut ident file → ¬Cut ident file' →
    fullName ident file contract ≠ fullName ident file' contract'

variable {libs} {order}

/-! ## Reading a directive -/

/-- The name behind the first directive of its kind is read up to a character that ends it. -/
theorem directiveName_eq {isIdent : Char → Bool} (hnewline : isIdent '\n' = false)
    {directive before : Text} (hdirective : '\n' ∉ directive)
    (hbefore : ∀ line ∈ before.splitOn '\n', ¬directive <+: line) (name after : Text) :
    directiveName isIdent directive (before ++ '\n' :: (directive ++ (name ++ after))) =
      some ((name ++ after).takeWhile isIdent) := by
  obtain ⟨lines, hlines⟩ := exists_splitOn_eq_cons '\n' (name ++ after)
  have hnone : (before.splitOn '\n').findSome? (fun line => line.dropPrefix? directive) = none := by
    rw [List.findSome?_eq_none_iff]
    intro line hline
    rw [Option.eq_none_iff_forall_ne_some]
    intro rest hrest
    obtain ⟨start, rfl, hstart⟩ := List.dropPrefix?_eq_some_iff.1 hrest
    exact hbefore _ hline (eq_of_beq hstart ▸ List.prefix_append start rest)
  rw [directiveName, List.splitOn_append_cons_self, splitOn_append_of_not_mem hdirective, hlines,
    List.findSome?_append, hnone, Option.none_or, List.modifyHead_cons, List.findSome?_cons,
    List.dropPrefix?_append_of_beq _ (beq_self_eq_true directive), Option.map_some,
    takeWhile_takeWhile_ne hnewline]

/-! ## The guard of a header -/

/-- The first line of a header. -/
def autogenerated : Text :=
  [' ', '/', '/', ' ', 'a', 'u', 't', 'o', 'g', 'e', 'n', 'e', 'r', 'a', 't', 'e', 'd', ' ',
    'b', 'y', ' ', 'c', 'a', 'r', 'g', 'o', '-', 's', 't', 'y', 'l', 'u', 's']

theorem headerFile_eq (uniq body : Text) : ∃ after, headerFile uniq body =
    autogenerated ++ '\n' :: (ifndef ++ (uniq ++ '\n' :: (define ++ (uniq ++ after)))) ∧
      after.head? = some '\n' := by
  have hfirst : " // autogenerated by cargo-stylus\n#ifndef ".toList =
      autogenerated ++ '\n' :: ifndef := by
    simp only [autogenerated, ifndef, String.reduceToList, List.cons_append, List.nil_append]
  have hsecond : "\n#define ".toList = '\n' :: define := by
    simp only [define, String.reduceToList]
  unfold headerFile
  rw [hfirst, hsecond]
  simp only [List.append_assoc, List.cons_append]
  refine ⟨_, congrArg (fun t => autogenerated ++ '\n' :: (ifndef ++ (uniq ++ '\n' ::
    (define ++ t)))) (congrArg (uniq ++ ·) (Eq.refl _)), ?_⟩
  simp only [String.toList_append, List.append_assoc]
  rw [List.head?_append]
  simp only [String.reduceToList, List.head?_cons, Option.some_or]

variable {ident : CIdentifier} {file contract : String}

theorem not_lower_of_mem_uppercase {name : Text} {c : Char} (h : c ∈ libs.uppercase name) :
    ¬c.isLower := by
  obtain ⟨d, -, hc⟩ := List.mem_flatMap.1 h
  exact libs.toUppercase_not_lower d c hc

theorem not_lower_of_mem_uniqueIdentifier {c : Char}
    (h : c ∈ uniqueIdentifier libs file contract) : ¬c.isLower := by
  have hunderscore : ¬Char.isLower '_' := by decide
  simp only [uniqueIdentifier, List.mem_append, List.mem_cons, List.not_mem_nil, or_false] at h
  rcases h with (((h | h) | h) | h) | h
  · rcases h with rfl | rfl <;> exact hunderscore
  · exact not_lower_of_mem_uppercase h
  · exact h ▸ hunderscore
  · exact not_lower_of_mem_uppercase h
  · exact h ▸ hunderscore

/-- No line before the definition defines something. -/
theorem not_define_prefix {uniq line : Text} (huniq : ∀ c ∈ uniq, ¬c.isLower)
    (hline : line ∈ (autogenerated ++ '\n' :: (ifndef ++ uniq)).splitOn '\n') :
    ¬define <+: line := by
  intro hstart
  have hmem : 'd' ∈ line := hstart.subset (by decide)
  rw [List.splitOn_append_cons_self, List.mem_append,
    splitOn_append_of_not_mem (by decide)] at hline
  obtain ⟨first, lines, hsplit⟩ := List.exists_cons_of_ne_nil (List.splitOn_ne_nil '\n' uniq)
  rw [hsplit, List.modifyHead_cons] at hline
  rcases hline with hline | hline
  · have hlines : ∀ line ∈ autogenerated.splitOn '\n', ¬define <+: line := by
      decide
    exact hlines line hline hstart
  · rcases List.mem_cons.1 hline with rfl | hline
    · obtain ⟨rest, hrest⟩ := hstart
      have hletter := congrArg (·[1]?) hrest
      simp [define, ifndef] at hletter
    · refine huniq 'd' (@mem_of_mem_splitOn '\n' 'd' _ line ?_ hmem) (by decide)
      rw [hsplit]
      exact List.mem_cons_of_mem _ hline

/-- Both directives are read with what is read of the unique identifier. -/
theorem directiveName_headerFile (body : Text) {directive : Text}
    (h : directive ∈ [ifndef, define]) :
    directiveName ident.isIdent directive (headerFile (uniqueIdentifier libs file contract) body) =
      some (beginning ident (uniqueIdentifier libs file contract)) := by
  obtain ⟨after, hheader, hafter⟩ := headerFile_eq (uniqueIdentifier libs file contract) body
  have hguard : ∀ after : Text, after.head? = some '\n' →
      (uniqueIdentifier libs file contract ++ after).takeWhile ident.isIdent =
        beginning ident (uniqueIdentifier libs file contract) := by
    intro after hafter
    obtain ⟨rest, rfl⟩ := List.head?_eq_some_iff.1 hafter
    exact takeWhile_append_cons_of_neg ident.isIdent_newline _ rest
  rw [hheader]
  rcases List.mem_pair.1 h with rfl | rfl
  · rw [directiveName_eq ident.isIdent_newline (by decide) (by decide), hguard _ rfl]
  · have hassoc : ∀ rest, autogenerated ++ '\n' :: (ifndef ++
        (uniqueIdentifier libs file contract ++ '\n' :: rest)) = (autogenerated ++ '\n' ::
          (ifndef ++ uniqueIdentifier libs file contract)) ++ '\n' :: rest := by
      intro rest
      simp only [List.append_assoc, List.cons_append]
    rw [hassoc, directiveName_eq ident.isIdent_newline (by decide)
      (fun line => not_define_prefix fun c => not_lower_of_mem_uniqueIdentifier), hguard _ hafter]

/-! ## What is read of two headers -/

theorem beginning_of_cut {file : Text} (h : Cut ident file) (t : Text) :
    beginning ident (file ++ t) = beginning ident file := by
  obtain ⟨c, hmem, hc⟩ := h
  obtain ⟨s, s', rfl⟩ := List.append_of_mem hmem
  rw [beginning, beginning, List.append_assoc, List.cons_append,
    takeWhile_append_cons_of_neg hc, takeWhile_append_cons_of_neg hc]

theorem beginning_of_not_cut {file : Text} (h : ¬Cut ident file) (t : Text) :
    beginning ident (file ++ t) = file ++ beginning ident t := by
  refine List.takeWhile_append_of_pos fun c hc => ?_
  by_contra hnot
  exact h ⟨c, hc, Bool.eq_false_of_not_eq_true hnot⟩

theorem beginning_underscore (t : Text) :
    beginning ident ('_' :: t) = '_' :: beginning ident t :=
  List.takeWhile_cons_of_pos ident.isIdent_underscore

theorem beginning_uniqueIdentifier : beginning ident (uniqueIdentifier libs file contract) =
    '_' :: '_' :: beginning ident (libs.uppercase file.toList ++
      '_' :: (libs.uppercase contract.toList ++ ['_'])) := by
  rw [← beginning_underscore, ← beginning_underscore, uniqueIdentifier]
  simp only [List.append_assoc, List.cons_append, List.nil_append]

/-- Different guards are read of contracts if their names are read as different. -/
theorem beginning_ne_iff {file' contract' : String} :
    beginning ident (uniqueIdentifier libs file contract) ≠
        beginning ident (uniqueIdentifier libs file' contract') ↔
      NamesDiffer ident (libs.uppercase file.toList) (libs.uppercase contract.toList)
        (libs.uppercase file'.toList) (libs.uppercase contract'.toList) := by
  have hread : beginning ident (uniqueIdentifier libs file contract) =
      beginning ident (uniqueIdentifier libs file' contract') ↔
      beginning ident (libs.uppercase file.toList ++
          '_' :: (libs.uppercase contract.toList ++ ['_'])) =
        beginning ident (libs.uppercase file'.toList ++
          '_' :: (libs.uppercase contract'.toList ++ ['_'])) := by
    rw [beginning_uniqueIdentifier, beginning_uniqueIdentifier, List.cons.injEq, List.cons.injEq]
    simp only [true_and]
  rw [Ne, hread]
  by_cases hcut : Cut ident (libs.uppercase file.toList) <;>
    by_cases hcut' : Cut ident (libs.uppercase file'.toList)
  · rw [beginning_of_cut hcut, beginning_of_cut hcut']
    exact ⟨fun h => ⟨fun _ _ => h, fun _ hn => absurd hcut' hn, fun hn => absurd hcut hn,
      fun hn => absurd hcut hn⟩, fun h => h.cut hcut hcut'⟩
  · rw [beginning_of_cut hcut, beginning_of_not_cut hcut', beginning_underscore]
    exact ⟨fun h => ⟨fun _ hn => absurd hn hcut', fun _ _ => h, fun hn => absurd hcut hn,
      fun hn => absurd hcut hn⟩, fun h => h.cutLeft hcut hcut'⟩
  · rw [beginning_of_not_cut hcut, beginning_of_cut hcut', beginning_underscore]
    exact ⟨fun h => ⟨fun hn => absurd hn hcut, fun hn => absurd hn hcut, fun _ _ => h,
      fun _ hn => absurd hcut' hn⟩, fun h => h.cutRight hcut hcut'⟩
  · rw [beginning_of_not_cut hcut, beginning_of_not_cut hcut', beginning_underscore,
      beginning_underscore]
    exact ⟨fun h => ⟨fun hn => absurd hn hcut, fun hn => absurd hn hcut,
      fun _ hn => absurd hn hcut', fun _ _ => h⟩, fun h => h.full hcut hcut'⟩

theorem header_of_mem {entries : List (String × String × Fields)} {a : GenContract}
    {header : Text} (ha : a ∈ generatedContracts libs order entries)
    (h : a.files.1 = some header) :
    ∃ body, header = headerFile (uniqueIdentifier libs a.file a.contract) body := by
  induction entries with
  | nil => cases ha
  | cons entry entries ih =>
    obtain ⟨file, contract, properties⟩ := entry
    rw [generatedContracts] at ha
    cases hfiles : contractFiles libs order file contract properties with
    | error e =>
      rw [hfiles] at ha
      cases ha
    | ok files =>
      rw [hfiles] at ha
      rcases List.mem_cons.1 ha with rfl | ha
      · unfold contractFiles at hfiles
        cases habi : readAbi libs properties with
        | error e =>
          rw [habi] at hfiles
          cases hfiles
        | ok abi =>
          rw [habi] at hfiles
          obtain rfl := Except.ok.inj hfiles
          obtain ⟨-, hheader⟩ := Option.ite_none_left_eq_some.1 h
          exact ⟨_, (Option.some.inj hheader).symm⟩
      · exact ih ha

/-- Two contracts of one solidity file with a name that is cut have the same guard. -/
theorem not_namesDiffer_of_cut {file contract contract' : Text} (h : Cut ident file) :
    ¬NamesDiffer ident file contract file contract' :=
  fun hdiffer => hdiffer.cut h h rfl

theorem guards_ne_iff {entries : List (String × String × Fields)} {a b : GenContract}
    (ha : a ∈ generatedContracts libs order entries)
    (hb : b ∈ generatedContracts libs order entries) {header header' : Text}
    (hheader : a.files.1 = some header) (hheader' : b.files.1 = some header') {directive : Text}
    (hdirective : directive ∈ [ifndef, define]) :
    directiveName ident.isIdent directive header ≠ directiveName ident.isIdent directive header' ↔
      NamesDiffer ident (libs.uppercase a.file.toList) (libs.uppercase a.contract.toList)
        (libs.uppercase b.file.toList) (libs.uppercase b.contract.toList) := by
  obtain ⟨body, rfl⟩ := header_of_mem ha hheader
  obtain ⟨body', rfl⟩ := header_of_mem hb hheader'
  rw [directiveName_headerFile body hdirective, directiveName_headerFile body' hdirective,
    ← beginning_ne_iff]
  exact not_congr Option.some_inj

/-- All headers can be included together exactly if what is read of the names of any two
contracts with a header is different. -/
theorem guardsDiffer_iff (libs : GenLibs) (order : MapOrder) (ident : CIdentifier)
    (input : Value) : GuardsDiffer libs order ident input ↔
      ∀ a ∈ generatedContracts libs order (contractEntries ((inputContracts input).getD [])),
        ∀ b ∈ generatedContracts libs order (contractEntries ((inputContracts input).getD [])),
          (a.file, a.contract) ≠ (b.file, b.contract) → a.files.1 ≠ none → b.files.1 ≠ none →
            NamesDiffer ident (libs.uppercase a.file.toList) (libs.uppercase a.contract.toList)
              (libs.uppercase b.file.toList) (libs.uppercase b.contract.toList) := by
  refine ⟨fun h a ha b hb hne hsome hsome' => ?_, fun h a ha b hb hne header header' hheader
    hheader' directive hdirective => ?_⟩
  · obtain ⟨header, hheader⟩ := Option.ne_none_iff_exists'.1 hsome
    obtain ⟨header', hheader'⟩ := Option.ne_none_iff_exists'.1 hsome'
    exact (guards_ne_iff ha hb hheader hheader' (by decide)).1
      (h a ha b hb hne header header' hheader hheader' ifndef (by decide))
  · refine (guards_ne_iff ha hb hheader hheader' hdirective).2 (h a ha b hb hne ?_ ?_)
    · exact Option.ne_none_iff_exists'.2 ⟨header, hheader⟩
    · exact Option.ne_none_iff_exists'.2 ⟨header', hheader'⟩

/-- The identifiers of the C standard, in ASCII. -/
def asciiIdentifier : CIdentifier where
  isIdent c := c.isAlphanum || c = '_'
  ascii _ _ _ := rfl

/-- Two contracts of one solidity file. -/
def twoContracts : Value :=
  .object [("contracts", .object [("A.sol", .object [("C", .object storageContract),
    ("D", .object storageContract)])])]

/-- Both guards are read as `__A`. -/
theorem twoContracts_not_guardsDiffer :
    ¬GuardsDiffer asciiLibs insertionOrder asciiIdentifier twoContracts := by
  intro h
  have hcut : Cut asciiIdentifier (asciiLibs.uppercase "A.sol".toList) :=
    ⟨'.', by decide, by decide⟩
  obtain ⟨header, hC⟩ := contractFiles_storageContract "A.sol" "C"
  obtain ⟨header', hD⟩ := contractFiles_storageContract "A.sol" "D"
  have hgenerated : generatedContracts asciiLibs insertionOrder
      (contractEntries ((inputContracts twoContracts).getD [])) =
        [⟨"A.sol", "C", some header, none⟩, ⟨"A.sol", "D", some header', none⟩] := by
    have hentries : contractEntries ((inputContracts twoContracts).getD []) =
        [("A.sol", "C", storageContract), ("A.sol", "D", storageContract)] :=
      rfl
    rw [hentries, generatedContracts, hC, generatedContracts, hD, generatedContracts]
  have hmem : ⟨"A.sol", "C", some header, none⟩ ∈ generatedContracts asciiLibs insertionOrder
      (contractEntries ((inputContracts twoContracts).getD [])) := by
    rw [hgenerated]
    exact List.mem_cons_self
  have hmem' : ⟨"A.sol", "D", some header', none⟩ ∈ generatedContracts asciiLibs insertionOrder
      (contractEntries ((inputContracts twoContracts).getD [])) := by
    rw [hgenerated]
    exact List.mem_cons_of_mem _ List.mem_cons_self
  refine not_namesDiffer_of_cut hcut ((guards_ne_iff hmem hmem' rfl rfl ?_).1
    (h _ hmem _ hmem' (by simp) header header' rfl rfl ifndef (by decide)))
  decide

end CargoStylus
