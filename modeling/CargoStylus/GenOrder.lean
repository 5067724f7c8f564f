import CargoStylus.GenFiles
import CargoStylus.GenRouter

/-!
# Does the output depend on an order

The functions of an ABI are collected in a hash map, which is iterated in any order, and the
overloads of a function are sorted by their signatures, so that the order in which they are
listed does not matter if the signatures tell them apart. The order of the map is not undone :
the functions are written in it. So the files are the same in all orders exactly if all
functions of each ABI have one name, and those with one signature are of one mutability
(`reproducible_iff`).
-/

namespace CargoStylus

open Rust Rust.Interaction Rust.Interaction.Prog Json
open CLang (parenthesized)

/-! ## Other orders -/

/-- Another order in which overloads are listed in the ABIs. -/
structure Relisting where
  relist : Value → List AbiFunction → List AbiFunction
  perm : ∀ raw abi, (relist raw abi).Perm abi
  names : ∀ raw abi, (relist raw abi).map AbiFunction.name = abi.map AbiFunction.name

theorem Relisting.names_of_map (listing : Relisting)
    {parseAbi : Value → Except String (List AbiFunction)}
    (h : ∀ raw abi, parseAbi raw = .ok abi → ∀ f ∈ abi, ' ' ∉ f.name) :
    ∀ raw abi, listing.relist raw <$> parseAbi raw = .ok abi → ∀ f ∈ abi, ' ' ∉ f.name := by
  intro raw abi habi f hf
  cases hparse : parseAbi raw with
  | error e =>
    rw [hparse] at habi
    cases habi
  | ok abi' =>
    rw [hparse] at habi
    obtain rfl := Except.ok.inj habi
    exact h raw abi' hparse f ((listing.perm raw abi').mem_iff.1 hf)

/-- ABIs in that order. -/
def GenLibs.listed (libs : GenLibs) (listing : Relisting) : GenLibs :=
  { libs with
    parseAbi := fun raw => listing.relist raw <$> libs.parseAbi raw
    parseAbi_names := listing.names_of_map libs.parseAbi_names }

/-- The contracts before one with an ABI that cannot be read. -/
def reached (libs : GenLibs) (entries : List (String × String × Fields)) :
    List (String × String × Fields) :=
  entries.takeWhile fun entry => (readAbi libs entry.2.2).isOk

/-- In all orders the headers and routers are the same. -/
def Reproducible (libs : GenLibs) (input : Value) : Prop :=
  ∀ listing listing' order order',
    generatedContracts (libs.listed listing) order
        (contractEntries ((inputContracts input).getD [])) =
      generatedContracts (libs.listed listing') order'
        (contractEntries ((inputContracts input).getD []))

/-- The functions have one name, and those with one signature are of one mutability. -/
def OneFunction (abi : List AbiFunction) : Prop :=
  ∀ f ∈ abi, ∀ g ∈ abi, f.name = g.name ∧
    (f.signature = g.signature → f.stateMutability = g.stateMutability)

variable {selectorOf : SelectorOf} {abi abi' : List AbiFunction}
  {methods methods' : List (Text × List AbiFunction)}

/-! ## Sorted overloads -/

theorem signatureLe_trans {f g h : AbiFunction} (hfg : signatureLe f g) (hgh : signatureLe g h) :
    signatureLe f h :=
  decide_eq_true ((of_decide_eq_true hfg).trans (of_decide_eq_true hgh))

theorem signatureLe_total (f g : AbiFunction) : (signatureLe f g || signatureLe g f) = true := by
  simp only [signatureLe, Bool.or_eq_true, decide_eq_true_eq]
  exact LinearOrder.le_total _ _

theorem signature_eq_of_signatureLe {f g : AbiFunction} (hfg : signatureLe f g)
    (hgf : signatureLe g f) : f.signature = g.signature :=
  List.map_injective_iff.2 (fun _ _ h => Char.ext (UInt32.toNat_inj.1 h))
    ((of_decide_eq_true hfg).antisymm (of_decide_eq_true hgf))

theorem pairwise_sortOverloads (overloads : List AbiFunction) :
    (sortOverloads overloads).Pairwise fun f g => signatureLe f g = true :=
  @List.pairwise_mergeSort _ signatureLe (fun _ _ _ => signatureLe_trans) signatureLe_total _

/-- What is written of a function besides its name in C. -/
def written (f : AbiFunction) : Text × StateMutability :=
  (f.signature, f.stateMutability)

/-- The order of the overloads does not matter if signatures tell them apart. -/
theorem map_written_sortOverloads (hperm : abi'.Perm abi) (hone : OneFunction abi) :
    (sortOverloads abi').map written = (sortOverloads abi).map written := by
  let le : Text × StateMutability → Text × StateMutability → Prop :=
    fun a b => a.1.map Char.toNat ≤ b.1.map Char.toNat
  have hsorted : ∀ l : List AbiFunction, ((sortOverloads l).map written).Pairwise le :=
    fun l => List.pairwise_map.2 ((pairwise_sortOverloads l).imp of_decide_eq_true)
  have hmaps : ((sortOverloads abi').map written).Perm ((sortOverloads abi).map written) :=
    ((List.mergeSort_perm _ _).trans (hperm.trans (List.mergeSort_perm _ _).symm)).map _
  refine List.Perm.eq_of_pairwise ?_ (hsorted abi') (hsorted abi) hmaps
  intro a b ha hb hab hba
  obtain ⟨f, hf, rfl⟩ := List.mem_map.1 ha
  obtain ⟨g, hg, rfl⟩ := List.mem_map.1 hb
  have hsignature : f.signature = g.signature :=
    signature_eq_of_signatureLe (decide_eq_true hab) (decide_eq_true hba)
  have hmutability := (hone f (hperm.mem_iff.1 (mem_sortOverloads.1 hf)) g
    (mem_sortOverloads.1 hg)).2 hsignature
  exact Prod.ext hsignature hmutability

/-! ## The same text in all orders -/

theorem flatMap_zipIdx_congr {text : AbiFunction × ℕ → Text}
    (htext : ∀ f g index, written f = written g → text (f, index) = text (g, index)) :
    ∀ {fs gs : List AbiFunction} (k : ℕ), fs.map written = gs.map written →
      (fs.zipIdx k).flatMap text = (gs.zipIdx k).flatMap text
  | [], [], _, _ => rfl
  | [], _ :: _, _, h => by cases h
  | _ :: _, [], _, h => by cases h
  | f :: fs, g :: gs, k, h => by
    obtain ⟨hhead, htail⟩ := List.cons.inj h
    rw [List.zipIdx_cons, List.zipIdx_cons, List.flatMap_cons, List.flatMap_cons,
      htext f g k hhead, flatMap_zipIdx_congr htext (k + 1) htail]

theorem flatMap_overloadMethods_congr {text : Method → Text}
    (htext : ∀ c f g, written f = written g → text ⟨c, f⟩ = text ⟨c, g⟩) (simpleName : Text)
    (h : (sortOverloads abi').map written = (sortOverloads abi).map written) :
    (overloadMethods simpleName abi').flatMap text =
      (overloadMethods simpleName abi).flatMap text := by
  unfold overloadMethods
  rw [List.flatMap_map, List.flatMap_map]
  exact flatMap_zipIdx_congr (fun f g _ hwritten => htext _ f g hwritten) 0 h

theorem header_congr (selectorOf : SelectorOf) (c : Text) {f g : AbiFunction}
    (h : written f = written g) :
    Method.header selectorOf ⟨c, f⟩ = Method.header selectorOf ⟨c, g⟩ := by
  obtain ⟨hsignature, hmutability⟩ := Prod.mk.inj h
  unfold Method.header
  dsimp only
  rw [hsignature, hmutability]

theorem router_congr (c : Text) {f g : AbiFunction} (h : written f = written g) :
    Method.router ⟨c, f⟩ = Method.router ⟨c, g⟩ := by
  obtain ⟨-, hmutability⟩ := Prod.mk.inj h
  unfold Method.router
  dsimp only
  rw [hmutability]

/-- Functions of one name are written as its overloads. -/
theorem generated_of_name {name : Text} (hname : ∀ f ∈ abi, f.name = name)
    (hmethods : methods.Perm (collectMethods abi)) :
    generated methods = overloadMethods name abi := by
  rcases eq_or_ne abi [] with rfl | hne
  · obtain rfl : methods = [] := List.Perm.eq_nil hmethods
    simp [generated, overloadMethods, sortOverloads]
  · rw [(isGrouping_methods hmethods).eq_singleton hname hne, generated, List.flatMap_singleton]

variable (selectorOf) in
/-- One function is written in the same way in all orders. -/
theorem cGen_of_oneFunction (hone : OneFunction abi) (hperm : abi'.Perm abi)
    (hmethods' : methods'.Perm (collectMethods abi'))
    (hmethods : methods.Perm (collectMethods abi)) (contract uniq storage : Text) :
    cGen selectorOf contract uniq storage methods' =
      cGen selectorOf contract uniq storage methods := by
  have hname : ∃ name, ∀ f ∈ abi, f.name = name := by
    rcases abi with _ | ⟨g, abi⟩
    · exact ⟨[], fun f hf => absurd hf List.not_mem_nil⟩
    · exact ⟨g.name, fun f hf => (hone f hf g List.mem_cons_self).1⟩
  obtain ⟨name, hname⟩ := hname
  have hsorted := map_written_sortOverloads hperm hone
  have hgenerated := generated_of_name (fun f hf => hname f (hperm.mem_iff.1 hf)) hmethods'
  have hdeclarations := flatMap_overloadMethods_congr
    (fun c f g => header_congr selectorOf c (f := f) (g := g)) name hsorted
  have hrouter := flatMap_overloadMethods_congr
    (fun c f g => router_congr c (f := f) (g := g)) name hsorted
  simp only [cGen, hgenerated, generated_of_name hname hmethods, hdeclarations, hrouter]

/-! ## What the text tells -/

theorem headerFile_injective (uniq : Text) : Function.Injective (headerFile uniq) := by
  intro body body' h
  unfold headerFile at h
  exact List.append_cancel_left (List.append_cancel_right (List.append_cancel_right
    (List.append_cancel_right h)))

/-- The declarations of the functions. -/
def declarations (selectorOf : SelectorOf) (methods : List (Text × List AbiFunction)) : Text :=
  (generated methods).flatMap (Method.header selectorOf)

/-- The same header is of the same declarations. -/
theorem declarations_eq_of_cGen {contract uniq storage : Text}
    (h : cGen selectorOf contract uniq storage methods =
      cGen selectorOf contract uniq storage methods')
    (hne : declarations selectorOf methods ≠ []) (hne' : declarations selectorOf methods' ≠ []) :
    declarations selectorOf methods = declarations selectorOf methods' := by
  have hcGen : ∀ methods, declarations selectorOf methods ≠ [] →
      (cGen selectorOf contract uniq storage methods).1 =
        some (headerFile uniq (declarations selectorOf methods ++ ['\n'] ++ storage)) := by
    intro methods hne
    unfold declarations at hne ⊢
    unfold cGen
    dsimp only
    rw [if_neg hne]
    exact if_neg (by simp)
  have hheader := congrArg Prod.fst h
  rw [hcGen methods hne, hcGen methods' hne'] at hheader
  exact List.append_cancel_right (List.append_cancel_right
    (headerFile_injective uniq (Option.some.inj hheader)))

variable (selectorOf) in
/-- The declarations start with the name of the first function. -/
theorem declarations_cons {name : Text} {group : List AbiFunction} (hgroup : group ≠ [])
    (rest : List (Text × List AbiFunction)) :
    ∃ after, declarations selectorOf ((name, group) :: rest) =
      "#define ".toList ++ selectorMacro name ++ ' ' :: after := by
  have hlen := length_sortOverloads group
  obtain ⟨f, fs, hsorted⟩ := List.exists_cons_of_ne_nil (List.ne_nil_of_length_pos
    (hlen ▸ List.length_pos_of_ne_nil hgroup))
  have hspace : " 0x".toList = [' ', '0', 'x'] := by
    simp only [String.reduceToList]
  have hheader : ∃ after, Method.header selectorOf ⟨name, f⟩ =
      "#define ".toList ++ selectorMacro name ++ ' ' :: after := by
    unfold Method.header
    dsimp only
    rw [hspace]
    simp only [List.append_assoc, List.cons_append]
    exact ⟨_, rfl⟩
  obtain ⟨after, hafter⟩ := hheader
  have hgenerated : ∃ more, generated ((name, group) :: rest) = ⟨name, f⟩ :: more := by
    have hmethods : overloadMethods name group = ⟨name, f⟩ :: (fs.zipIdx 1).map
        fun p => ⟨cName name p.2, p.1⟩ := by
      unfold overloadMethods
      rw [hsorted]
      rfl
    exact ⟨_, congrArg (· ++ generated rest) hmethods⟩
  obtain ⟨more, hmore⟩ := hgenerated
  rw [declarations, hmore, List.flatMap_cons, hafter, List.append_assoc, List.cons_append]
  exact ⟨_, rfl⟩

theorem name_eq_of_declarations {name name' : Text} {group group' : List AbiFunction}
    {rest rest' : List (Text × List AbiFunction)} (hspace : ' ' ∉ name) (hspace' : ' ' ∉ name')
    (hgroup : group ≠ []) (hgroup' : group' ≠ [])
    (h : declarations selectorOf ((name, group) :: rest) =
      declarations selectorOf ((name', group') :: rest')) : name = name' := by
  obtain ⟨after, hafter⟩ := declarations_cons selectorOf hgroup rest
  obtain ⟨after', hafter'⟩ := declarations_cons selectorOf hgroup' rest'
  rw [hafter, hafter', List.append_assoc, List.append_assoc] at h
  have hmacros := List.append_cancel_left h
  unfold selectorMacro at hmacros
  rw [List.append_assoc, List.append_assoc] at hmacros
  exact (append_cons_inj_of_not_mem hspace hspace' (List.append_cancel_left hmacros)).1

theorem getElem?_parenthesized {part : Text} {c : Char} (h : part.head? = some c)
    (parts : List Text) (s : Text) : (parenthesized (part :: parts) ++ s)[1]? = some c := by
  obtain ⟨part, rfl⟩ := List.head?_eq_some_iff.1 h
  rcases parts with _ | ⟨part', parts⟩
  · simp [parenthesized, join]
  · rw [parenthesized, join, List.intercalate_cons_cons]
    rfl

/-- A list in parentheses is not the start of one with more parts. -/
theorem parenthesized_ne_concat (parts : List Text) (part s t : Text) (hne : parts ≠ []) :
    parenthesized parts ++ s ≠ parenthesized (parts ++ [part]) ++ t := by
  have hjoin : ∀ parts : List Text, parts ≠ [] → join [',', ' '] (parts ++ [part]) =
      join [',', ' '] parts ++ ',' :: ' ' :: part := by
    intro parts hne
    induction parts with
    | nil => exact absurd rfl hne
    | cons first parts ih =>
      rcases parts with _ | ⟨second, parts⟩
      · simp [join]
      · have hrest := ih (List.cons_ne_nil second parts)
        unfold join at hrest ⊢
        rw [List.cons_append, List.cons_append, List.intercalate_cons_cons,
          List.intercalate_cons_cons, ← List.cons_append, hrest, List.append_assoc,
          List.append_assoc, List.append_assoc]
  intro h
  have hrest := (List.cons.inj h).2
  change join [',', ' '] parts ++ [')'] ++ s =
    join [',', ' '] (parts ++ [part]) ++ [')'] ++ t at hrest
  rw [hjoin parts hne, List.append_assoc, List.append_assoc, List.append_assoc] at hrest
  have hhead := congrArg List.head? (List.append_cancel_left hrest)
  exact absurd (Option.some.inj hhead) (by decide)

/-- The letter that parameters start with. -/
def paramsLetter : StateMutability → Char
  | .pure => 'u'
  | .view => 'c'
  | .nonPayable => 'v'
  | .payable => 'v'

theorem getElem?_params (m : StateMutability) (s : Text) :
    (parenthesized (m.hdrParams.map CType.param) ++ s)[1]? = some (paramsLetter m) := by
  cases m with
  | pure =>
    refine getElem?_parenthesized ?_ _ s
    change "uint8_t *input".toList.head? = _
    simp only [String.reduceToList, List.head?_cons, paramsLetter]
  | view =>
    refine getElem?_parenthesized ?_ _ s
    change "const void *storage".toList.head? = _
    simp only [String.reduceToList, List.head?_cons, paramsLetter]
  | nonPayable =>
    refine getElem?_parenthesized ?_ _ s
    change "void *storage".toList.head? = _
    simp only [String.reduceToList, List.head?_cons, paramsLetter]
  | payable =>
    refine getElem?_parenthesized ?_ _ s
    change "void *storage".toList.head? = _
    simp only [String.reduceToList, List.head?_cons, paramsLetter]

/-- No parameters are the start of others. -/
theorem stateMutability_eq_of_params {m m' : StateMutability} {s t : Text}
    (h : parenthesized (m.hdrParams.map CType.param) ++ s =
      parenthesized (m'.hdrParams.map CType.param) ++ t) : m = m' := by
  have hpayable : ∀ s t : Text, parenthesized (StateMutability.nonPayable.hdrParams.map
      CType.param) ++ s ≠ parenthesized (StateMutability.payable.hdrParams.map CType.param) ++ t :=
    fun s t => parenthesized_ne_concat _ CType.bebi32.param s t (List.cons_ne_nil _ _)
  have hletter := congrArg (·[1]?) h
  rw [getElem?_params, getElem?_params] at hletter
  cases m <;> cases m' <;>
    first
    | rfl
    | exact absurd (Option.some.inj hletter) (by decide)
    | exact absurd h (hpayable s t)
    | exact absurd h.symm (hpayable t s)

/-- Two functions with one signature and one name in C are told apart by their mutability. -/
theorem stateMutability_eq_of_header {c s t : Text} {f g : AbiFunction}
    (hsignature : f.signature = g.signature)
    (h : Method.header selectorOf ⟨c, f⟩ ++ s = Method.header selectorOf ⟨c, g⟩ ++ t) :
    f.stateMutability = g.stateMutability := by
  unfold Method.header at h
  dsimp only at h
  rw [hsignature] at h
  simp only [List.append_assoc, List.append_cancel_left_eq] at h
  exact stateMutability_eq_of_params h

/-! ## Orders that show -/

theorem relisting_names {abi' : List AbiFunction} (hperm : abi'.Perm abi) {name : Text}
    (hname : ∀ f ∈ abi, f.name = name) :
    abi'.map AbiFunction.name = abi.map AbiFunction.name := by
  have hreplicate : ∀ l : List AbiFunction, (∀ f ∈ l, f.name = name) →
      l.map AbiFunction.name = List.replicate l.length name := by
    intro l hl
    rw [List.eq_replicate_iff, List.length_map]
    refine ⟨rfl, fun n hn => ?_⟩
    obtain ⟨f, hf, rfl⟩ := List.mem_map.1 hn
    exact hl f hf
  rw [hreplicate abi hname, hreplicate abi' fun f hf => hname f (hperm.mem_iff.1 hf),
    hperm.length_eq]

theorem signatureLe_congr {f f' g g' : AbiFunction} (hf : f.signature = f'.signature)
    (hg : g.signature = g'.signature) : signatureLe f g = signatureLe f' g' := by
  rw [signatureLe, signatureLe, hf, hg]

theorem signatureLe_of_eq {f g : AbiFunction} (h : f.signature = g.signature) :
    signatureLe f g = true :=
  decide_eq_true (le_of_eq (congrArg (List.map Char.toNat) h))

theorem signatureLe_of_not {f g : AbiFunction} (h : (!signatureLe f g) = true) :
    signatureLe g f = true :=
  (Bool.or_eq_true_iff.1 (signatureLe_total f g)).resolve_left fun hfg => by simp [hfg] at h

/-- Two functions with one signature between those with smaller and larger ones. -/
theorem pairwise_between {f g : AbiFunction} {l : List AbiFunction}
    (hl : l.Pairwise fun f g => signatureLe f g = true) (h : f.signature = g.signature) :
    (l.filter (fun x => !signatureLe f x) ++ f :: g :: l.filter (signatureLe f)).Pairwise
      fun f g => signatureLe f g = true := by
  have hlower : ∀ x ∈ l.filter (fun x => !signatureLe f x), signatureLe x f = true :=
    fun x hx => signatureLe_of_not (List.mem_filter.1 hx).2
  have hupper : ∀ x ∈ l.filter (signatureLe f), signatureLe f x = true :=
    fun x hx => (List.mem_filter.1 hx).2
  rw [List.pairwise_append, List.pairwise_cons, List.pairwise_cons]
  refine ⟨hl.filter _, ⟨fun x hx => ?_, fun x hx => ?_, hl.filter _⟩, fun x hx y hy => ?_⟩
  · rcases List.mem_cons.1 hx with rfl | hx
    · exact signatureLe_of_eq h
    · exact hupper x hx
  · rw [← signatureLe_congr h rfl]
    exact hupper x hx
  · rcases List.mem_cons.1 hy with rfl | hy
    · exact hlower x hx
    · rcases List.mem_cons.1 hy with rfl | hy
      · exact signatureLe_trans (hlower x hx) (signatureLe_of_eq h)
      · exact signatureLe_trans (hlower x hx) (hupper y hy)

/-- Functions with one signature can be listed so that they are next to each other once they
are sorted, in both orders. -/
theorem exists_listings {f g : AbiFunction} (h : f.signature = g.signature)
    (rest : List AbiFunction) : ∃ before after : List AbiFunction,
      (before ++ f :: g :: after).Perm (f :: g :: rest) ∧
        sortOverloads (before ++ f :: g :: after) = before ++ f :: g :: after ∧
        sortOverloads (before ++ g :: f :: after) = before ++ g :: f :: after := by
  have hsorted := pairwise_sortOverloads rest
  have hfilter : signatureLe g = signatureLe f :=
    funext fun x => signatureLe_congr h.symm rfl
  have hswapped := pairwise_between hsorted h.symm
  rw [hfilter] at hswapped
  refine ⟨(sortOverloads rest).filter fun x => !signatureLe f x,
    (sortOverloads rest).filter (signatureLe f), ?_,
    List.mergeSort_of_pairwise (pairwise_between hsorted h), List.mergeSort_of_pairwise hswapped⟩
  have hparts := List.filter_append_perm (fun x => !signatureLe f x) (sortOverloads rest)
  simp only [Bool.not_not] at hparts
  refine List.perm_middle.trans ((List.perm_middle.trans ?_).cons f)
  exact (hparts.trans (List.mergeSort_perm _ _)).cons g

/-- The declarations of the overloads from the index `k` on. -/
def numbered (selectorOf : SelectorOf) (name : Text) (overloads : List AbiFunction) (k : ℕ) :
    Text :=
  (overloads.zipIdx k).flatMap fun p => Method.header selectorOf ⟨cName name p.2, p.1⟩

theorem flatMap_overloadMethods (name : Text) (overloads : List AbiFunction) :
    (overloadMethods name overloads).flatMap (Method.header selectorOf) =
      numbered selectorOf name (sortOverloads overloads) 0 := by
  unfold overloadMethods
  rw [List.flatMap_map]
  rfl

theorem numbered_append_cons (name : Text) (before after : List AbiFunction) (f : AbiFunction)
    (k : ℕ) : numbered selectorOf name (before ++ f :: after) k =
      numbered selectorOf name before k ++
        (Method.header selectorOf ⟨cName name (k + before.length), f⟩ ++
          numbered selectorOf name after (k + before.length + 1)) := by
  unfold numbered
  rw [List.zipIdx_append, List.flatMap_append, List.zipIdx_cons, List.flatMap_cons]

/-! ## Orders of one contract -/

/-- In all orders the functions of the ABI are written in the same way. -/
def ContractReproducible (selectorOf : SelectorOf) (abi : List AbiFunction) : Prop :=
  ∀ abi' abi'' : List AbiFunction, ∀ methods methods' : List (Text × List AbiFunction),
    abi'.Perm abi → abi'.map AbiFunction.name = abi.map AbiFunction.name →
      abi''.Perm abi → abi''.map AbiFunction.name = abi.map AbiFunction.name →
        methods.Perm (collectMethods abi') → methods'.Perm (collectMethods abi'') →
          declarations selectorOf methods = declarations selectorOf methods'

theorem name_eq_of_reproducible (h : ContractReproducible selectorOf abi)
    (hspace : ∀ f ∈ abi, ' ' ∉ f.name) {f g : AbiFunction} (hf : f ∈ abi) (hg : g ∈ abi) :
    f.name = g.name := by
  have hgroups := isGrouping_groupEntries AbiFunction.name abi
  have hentry : ∀ {f}, f ∈ abi → (f.name, abi.filter (·.name = f.name)) ∈ collectMethods abi ∧
      abi.filter (·.name = f.name) ≠ [] := by
    intro f hf
    refine ⟨hgroups.mem_of_key (List.mem_map_of_mem (f := AbiFunction.name) hf), ?_⟩
    exact List.ne_nil_of_mem (List.mem_filter.2 ⟨hf, decide_eq_true rfl⟩)
  exact name_eq_of_declarations (hspace f hf) (hspace g hg) (hentry hf).2 (hentry hg).2
    (h abi abi _ _ (.refl _) rfl (.refl _) rfl (List.perm_cons_erase (hentry hf).1).symm
      (List.perm_cons_erase (hentry hg).1).symm)

theorem stateMutability_eq_of_reproducible (h : ContractReproducible selectorOf abi) {name : Text}
    (hname : ∀ f ∈ abi, f.name = name) {f g : AbiFunction} (hf : f ∈ abi) (hg : g ∈ abi)
    (hsignature : f.signature = g.signature) : f.stateMutability = g.stateMutability := by
  rcases eq_or_ne f g with rfl | hne
  · rfl
  have hperm : abi.Perm (f :: g :: (abi.erase f).erase g) := by
    refine (List.perm_cons_erase hf).trans (.cons f (List.perm_cons_erase ?_))
    exact (List.mem_erase_of_ne hne.symm).2 hg
  obtain ⟨before, after, hlisting, hsorted, hsorted'⟩ := exists_listings hsignature
    ((abi.erase f).erase g)
  have hlisting' : (before ++ g :: f :: after).Perm abi :=
    ((List.Perm.swap f g after).append_left before).trans (hlisting.trans hperm.symm)
  have hlisting := hlisting.trans hperm.symm
  have hgenerated : ∀ {abi'}, List.Perm abi' abi → declarations selectorOf (collectMethods abi') =
      numbered selectorOf name (sortOverloads abi') 0 := by
    intro abi' habi'
    rw [declarations, generated_of_name (fun f hf => hname f (habi'.mem_iff.1 hf)) (.refl _),
      flatMap_overloadMethods]
  have heq := h _ _ _ _ hlisting (relisting_names hlisting hname) hlisting'
    (relisting_names hlisting' hname) (.refl _) (.refl _)
  rw [hgenerated hlisting, hgenerated hlisting', hsorted, hsorted', numbered_append_cons,
    numbered_append_cons] at heq
  exact stateMutability_eq_of_header hsignature (List.append_cancel_left heq)

/-! ## Orders of an input -/

/-- The listing that replaces `abi` by `abi'`. -/
def Relisting.replace (abi abi' : List AbiFunction) (hperm : abi'.Perm abi)
    (hnames : abi'.map AbiFunction.name = abi.map AbiFunction.name) : Relisting where
  relist _ l := if l = abi then abi' else l
  perm _ l := by
    split_ifs with h
    · exact h ▸ hperm
    · exact .refl l
  names _ l := by
    split_ifs with h
    · exact h ▸ hnames
    · rfl

/-- The order that replaces `entries` by `methods`. -/
def MapOrder.replace (entries methods : List (Text × List AbiFunction))
    (hperm : methods.Perm entries) : MapOrder where
  iterate _ _ l := if l = entries then methods else l
  perm _ _ l := by
    split_ifs with h
    · exact h ▸ hperm
    · exact .refl l

variable {libs : GenLibs} {properties : Fields}

theorem readAbi_listed_error {e : String} (h : readAbi libs properties = .error e)
    (listing : Relisting) : readAbi (libs.listed listing) properties = .error e := by
  unfold readAbi at h ⊢
  cases hraw : Fields.get? properties "abi" with
  | none =>
    rw [hraw] at h
    cases h
  | some raw =>
    rw [hraw] at h
    exact congrArg (listing.relist raw <$> ·) h

theorem readAbi_listed (h : readAbi libs properties = .ok abi) (listing : Relisting) :
    ∃ abi', readAbi (libs.listed listing) properties = .ok abi' ∧ abi'.Perm abi := by
  unfold readAbi at h ⊢
  cases hraw : Fields.get? properties "abi" with
  | none =>
    rw [hraw] at h
    exact ⟨[], rfl, Except.ok.inj h ▸ .refl _⟩
  | some raw =>
    rw [hraw] at h
    exact ⟨_, congrArg (listing.relist raw <$> ·) h, listing.perm raw abi⟩

theorem readAbi_replace (h : readAbi libs properties = .ok abi) (hperm : abi'.Perm abi)
    (hnames : abi'.map AbiFunction.name = abi.map AbiFunction.name) :
    readAbi (libs.listed (.replace abi abi' hperm hnames)) properties = .ok abi' := by
  unfold readAbi at h ⊢
  cases hraw : Fields.get? properties "abi" with
  | none =>
    rw [hraw] at h
    obtain rfl := Except.ok.inj h
    exact congrArg Except.ok (List.Perm.eq_nil hperm).symm
  | some raw =>
    rw [hraw] at h
    refine (congrArg ((Relisting.replace abi abi' hperm hnames).relist raw <$> ·) h).trans ?_
    exact congrArg Except.ok (if_pos rfl)

theorem names_of_readAbi (h : readAbi libs properties = .ok abi) : ∀ f ∈ abi, ' ' ∉ f.name := by
  unfold readAbi at h
  cases hraw : Fields.get? properties "abi" with
  | none =>
    rw [hraw] at h
    obtain rfl := Except.ok.inj h
    exact fun f hf => absurd hf List.not_mem_nil
  | some raw =>
    rw [hraw] at h
    exact libs.parseAbi_names raw abi h

theorem contractFiles_of_readAbi {order : MapOrder} (file contract : String)
    (h : readAbi libs properties = .ok abi) :
    contractFiles libs order file contract properties =
      .ok (cGen libs.selectorOf contract.toList (uniqueIdentifier libs file contract)
        (storageLines libs.keccak256 (storageArr properties))
        (order.iterate file contract (collectMethods abi))) := by
  unfold contractFiles
  rw [h]
  rfl

theorem declarations_ne_nil (hne : abi ≠ []) (hmethods : methods.Perm (collectMethods abi)) :
    declarations selectorOf methods ≠ [] :=
  fun hnil => hne ((generated_eq_nil_iff hmethods).1 (flatMap_header_eq_nil_iff.1 hnil))

theorem contractReproducible_of_contractFiles {file contract : String}
    (h : readAbi libs properties = .ok abi)
    (hall : ∀ listing listing' order order',
      contractFiles (libs.listed listing) order file contract properties =
        contractFiles (libs.listed listing') order' file contract properties) :
    ContractReproducible libs.selectorOf abi := by
  intro abi' abi'' methods methods' hperm hnames hperm' hnames' hmethods hmethods'
  rcases eq_or_ne abi [] with rfl | hne
  · obtain rfl := List.Perm.eq_nil hperm
    obtain rfl := List.Perm.eq_nil hperm'
    rw [List.Perm.eq_nil hmethods, List.Perm.eq_nil hmethods']
  · have hfiles := hall (.replace abi abi' hperm hnames) (.replace abi abi'' hperm' hnames')
      (.replace _ methods hmethods) (.replace _ methods' hmethods')
    rw [contractFiles_of_readAbi file contract (readAbi_replace h hperm hnames),
      contractFiles_of_readAbi file contract (readAbi_replace h hperm' hnames')] at hfiles
    have hcGen := Except.ok.inj hfiles
    unfold MapOrder.replace at hcGen
    dsimp only at hcGen
    rw [if_pos rfl, if_pos rfl] at hcGen
    have hne' : ∀ {l : List AbiFunction}, l.Perm abi → l ≠ [] :=
      fun hl hnil => hne (List.Perm.nil_eq (hnil ▸ hl)).symm
    exact declarations_eq_of_cGen hcGen (declarations_ne_nil (hne' hperm) hmethods)
      (declarations_ne_nil (hne' hperm') hmethods')

/-- In all orders the files of the contract are the same exactly if it has one function. -/
theorem contractFiles_listed_iff (file contract : String)
    (h : readAbi libs properties = .ok abi) :
    (∀ listing listing' order order',
        contractFiles (libs.listed listing) order file contract properties =
          contractFiles (libs.listed listing') order' file contract properties) ↔
      OneFunction abi := by
  refine ⟨fun hall => ?_, fun hone listing listing' order order' => ?_⟩
  · have hcontract := contractReproducible_of_contractFiles h hall
    have hname : ∀ f ∈ abi, ∀ g ∈ abi, f.name = g.name :=
      fun f hf g hg => name_eq_of_reproducible hcontract (names_of_readAbi h) hf hg
    intro f hf g hg
    exact ⟨hname f hf g hg, stateMutability_eq_of_reproducible hcontract
      (fun x hx => hname x hx f hf) hf hg⟩
  · obtain ⟨abi', habi', hperm⟩ := readAbi_listed h listing
    obtain ⟨abi'', habi'', hperm'⟩ := readAbi_listed h listing'
    rw [contractFiles_of_readAbi file contract habi', contractFiles_of_readAbi file contract habi'']
    have hfirst := cGen_of_oneFunction libs.selectorOf hone hperm
      (order.perm file contract (collectMethods abi')) (.refl _)
    have hsecond := cGen_of_oneFunction libs.selectorOf hone hperm'
      (order'.perm file contract (collectMethods abi'')) (.refl _)
    exact congrArg Except.ok ((hfirst _ _ _).trans (hsecond _ _ _).symm)

theorem generatedContracts_cons {order : MapOrder} {file contract : String}
    {files : Option Text × Option Text} (entries : List (String × String × Fields))
    (h : contractFiles libs order file contract properties = .ok files) :
    generatedContracts libs order ((file, contract, properties) :: entries) =
      ⟨file, contract, files⟩ :: generatedContracts libs order entries := by
  rw [generatedContracts, h]

theorem generatedContracts_cons_error {order : MapOrder} {file contract e : String}
    (entries : List (String × String × Fields)) (h : readAbi libs properties = .error e) :
    generatedContracts libs order ((file, contract, properties) :: entries) = [] := by
  have herror : contractFiles libs order file contract properties = .error e := by
    unfold contractFiles
    rw [h]
    rfl
  rw [generatedContracts, herror]

/-- In all orders the files of the contracts are the same exactly if each contract that is
reached has one function. -/
theorem generatedContracts_listed_iff {entries : List (String × String × Fields)} :
    (∀ listing listing' order order', generatedContracts (libs.listed listing) order entries =
        generatedContracts (libs.listed listing') order' entries) ↔
      ∀ entry ∈ reached libs entries, ∀ abi, readAbi libs entry.2.2 = .ok abi →
        OneFunction abi := by
  induction entries with
  | nil => exact iff_of_true (fun _ _ _ _ => rfl) fun entry hentry => absurd hentry List.not_mem_nil
  | cons entry entries ih =>
    obtain ⟨file, contract, properties⟩ := entry
    cases h : readAbi libs properties with
    | error e =>
      have hreached : reached libs ((file, contract, properties) :: entries) = [] := by
        rw [reached, List.takeWhile_cons, h]
        rfl
      rw [hreached]
      refine iff_of_true (fun listing listing' order order' => ?_) fun entry hentry =>
        absurd hentry List.not_mem_nil
      rw [generatedContracts_cons_error entries (readAbi_listed_error h listing),
        generatedContracts_cons_error entries (readAbi_listed_error h listing')]
    | ok abi =>
      have hreached : reached libs ((file, contract, properties) :: entries) =
          (file, contract, properties) :: reached libs entries := by
        rw [reached, List.takeWhile_cons, h]
        rfl
      have hcontract := contractFiles_listed_iff file contract h
      have hfiles : ∀ listing order, ∃ files,
          contractFiles (libs.listed listing) order file contract properties = .ok files := by
        intro listing order
        obtain ⟨abi', habi', -⟩ := readAbi_listed h listing
        exact ⟨_, contractFiles_of_readAbi file contract habi'⟩
      rw [hreached, List.forall_mem_cons, ← ih]
      have hone : (∀ abi, readAbi libs (file, contract, properties).2.2 = .ok abi →
          OneFunction abi) ↔ OneFunction abi := by
        refine ⟨fun hall => hall abi h, fun hone abi' habi' => ?_⟩
        obtain rfl := Except.ok.inj (h.symm.trans habi')
        exact hone
      have hcons : ∀ listing listing' order order',
          generatedContracts (libs.listed listing) order ((file, contract, properties) :: entries) =
              generatedContracts (libs.listed listing') order'
                ((file, contract, properties) :: entries) ↔
            contractFiles (libs.listed listing) order file contract properties =
                contractFiles (libs.listed listing') order' file contract properties ∧
              generatedContracts (libs.listed listing) order entries =
                generatedContracts (libs.listed listing') order' entries := by
        intro listing listing' order order'
        obtain ⟨files, hfiles'⟩ := hfiles listing order
        obtain ⟨files', hfiles''⟩ := hfiles listing' order'
        rw [generatedContracts_cons entries hfiles', generatedContracts_cons entries hfiles'',
          hfiles', hfiles'']
        simp only [List.cons.injEq, GenContract.mk.injEq, true_and, Except.ok.injEq]
      rw [hone, ← hcontract]
      simp only [hcons, forall_and]

/-- The headers and routers of an input are the same in all orders exactly if all functions of
each ABI that is reached have one name, and those with one signature are of one mutability. -/
theorem reproducible_iff (libs : GenLibs) (input : Value) :
    Reproducible libs input ↔
      ∀ entry ∈ reached libs (contractEntries ((inputContracts input).getD [])), ∀ abi,
        readAbi libs entry.2.2 = .ok abi → OneFunction abi :=
  generatedContracts_listed_iff

/-- The JSON of a function that takes and returns nothing. -/
def functionJson (name : String) : Value :=
  .object [("inputs", .array []), ("name", .string name), ("outputs", .array []),
    ("stateMutability", .string "nonpayable"), ("type", .string "function")]

/-- The function of such JSON. -/
def readFunction : Value → Except String AbiFunction
  | .object m =>
    match Fields.get? m "name", Fields.get? m "inputs" with
    | some (.string name), some (.array []) =>
      if ' ' ∈ name.toList then .error "invalid identifier" else .ok ⟨name.toList, [], .nonPayable⟩
    | _, _ => .error "not a function without inputs"
  | _ => .error "not a function"

/-- The functions of an ABI of such JSON. -/
def readFunctions : List Value → Except String (List AbiFunction)
  | [] => .ok []
  | raw :: raws => do
    let f ← readFunction raw
    let fs ← readFunctions raws
    return f :: fs

/-- An ABI that is an array of functions. -/
def readFunctionAbi : Value → Except String (List AbiFunction)
  | .array raws => readFunctions raws
  | _ => .error "not an ABI"

theorem name_of_readFunction {raw : Value} {f : AbiFunction} (h : readFunction raw = .ok f) :
    ' ' ∉ f.name := by
  unfold readFunction at h
  split at h
  · split at h
    · split_ifs at h with hspace
      obtain rfl := Except.ok.inj h
      exact hspace
    · cases h
  · cases h

theorem names_of_readFunctions {raws : List Value} {abi : List AbiFunction}
    (h : readFunctions raws = .ok abi) : ∀ f ∈ abi, ' ' ∉ f.name := by
  induction raws generalizing abi with
  | nil =>
    obtain rfl := Except.ok.inj h
    exact nofun
  | cons raw raws ih =>
    rw [readFunctions] at h
    cases hfirst : readFunction raw with
    | error e =>
      rw [hfirst] at h
      cases h
    | ok f =>
      cases hrest : readFunctions raws with
      | error e =>
        rw [hfirst, hrest] at h
        cases h
      | ok fs =>
        rw [hfirst, hrest] at h
        obtain rfl := Except.ok.inj h
        exact List.forall_mem_cons.2 ⟨name_of_readFunction hfirst, ih hrest⟩

theorem names_of_readFunctionAbi (raw : Value) (abi : List AbiFunction)
    (h : readFunctionAbi raw = .ok abi) : ∀ f ∈ abi, ' ' ∉ f.name := by
  cases raw with
  | array raws => exact names_of_readFunctions h
  | _ => cases h

/-- ABIs of functions that take and return nothing, and the selectors of `f()` and `g()`. -/
def twoFunctionLibs : GenLibs :=
  { asciiLibs with
    parseAbi := readFunctionAbi
    parseAbi_names := names_of_readFunctionAbi
    selectorOf := fun signature =>
      if signature = ['f', '(', ')'] then 0x26121ff0
      else if signature = ['g', '(', ')'] then 0xe2179b8e
      else 0 }

/-- The JSON of `f()` and `g()`. -/
def twoFunctionAbi : Value :=
  .array [functionJson "f", functionJson "g"]

/-- A contract with that ABI. -/
def abiInput : Value :=
  .object [("contracts", .object [("A.sol", .object [("C", .object [("abi", twoFunctionAbi)])])])]

/-- The functions are written in the order in which the map is iterated. -/
theorem abiInput_not_reproducible : ¬Reproducible twoFunctionLibs abiInput := by
  intro h
  have hone := generatedContracts_listed_iff.1 h ("A.sol", "C", [("abi", twoFunctionAbi)])
    List.mem_cons_self [⟨['f'], [], .nonPayable⟩, ⟨['g'], [], .nonPayable⟩] rfl
  have hname := (hone ⟨['f'], [], .nonPayable⟩ (by decide) ⟨['g'], [], .nonPayable⟩ (by decide)).1
  exact absurd hname (by decide)

end CargoStylus
