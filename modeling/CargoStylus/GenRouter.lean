import CargoStylus.GenLines

/-!
# What the generated router calls

`Dispatches` says that the generated files do what they are for : the names in C and the
macros for selectors are each of one function of the ABI, the files compile, and a call of the
contract gets to the function with its selector, or to the fallback if there is none. They do
so exactly if the names are apart (`dispatches_iff`).

An overload `f` has the name `f_1` in C, and a function of the ABI may be called `f_1` as well.
Then the macro of one of the two is defined twice, and the router never calls the other. Apart
from that, no name may be one of a macro, a local variable of the router or something that the
included files define, and that of the fallback is only for a function that is declared like it.
-/

namespace CargoStylus

open Rust CLang

variable {ident : CIdentifier} {sdk : Sdk} {libs : GenLibs} {file contract : String}
  {storageArr : List Json.Value} {ms : List Method}

/-! ## What the router does -/

/-- What the included files define, in a call of the contract with the value. `msg_value` sets
the variable that it is called with. -/
def routerLibrary (value : U256) : Library U256 where
  constant n := if n = nullName then some .null else none
  call function args :=
    match args with
    | [.unset] => if function = msgValueName then some (.sets (.data value)) else none
    | [.data v] =>
      if function = bebi32IsZero then some (.value (.number (if v = 0 then 1 else 0))) else none
    | [.pointer buffer offset, .number n] =>
      if function = bebiGetU32 then
        some (.value (.number (ofBe ((buffer.drop (offset + n)).take 4))))
      else none
    | [] => if function = revertName then some .stops else none
    | _ => none

/-- What an argument is where the router has gone over `offset` bytes of the input. -/
def CArg.eval (input : Bytes) (offset : ℕ) (value : U256) : CArg → Value U256
  | null => .null
  | .input => .pointer input offset
  | len => .number (input.length - offset)
  | .value => .data value

/-- The arguments of a call. -/
def argValues (input : Bytes) (offset : ℕ) (value : U256) (mutability : StateMutability) :
    List (Value U256) :=
  mutability.callParams.map (CArg.eval input offset value)

/-- The first bytes of the input, as a selector. -/
def inputSelector (input : Bytes) : U32 :=
  BitVec.ofNat 32 (ofBe (input.take 4))

variable {macros : Macros} {env : Env U256} {input : Bytes} {offset : ℕ} {value : U256}

/-- No name that the router evaluates is a macro, other than those of selectors. -/
def LocalsFree (macros : Macros) : Prop :=
  ∀ n ∈ nullName :: routerLocals, n ∉ macros.map Prod.fst

/-- What the local variables of the router are. -/
structure RouterHolds (input : Bytes) (offset : ℕ) (value : U256) (env : Env U256) : Prop where
  atInput : env.lookup inputVar = some (.pointer input offset)
  atLen : env.lookup lenVar = some (.number (input.length - offset))
  atValue : env.lookup valueVar = some (.data value)
  atNull : env.lookup nullName = none

theorem eval_local (hfree : LocalsFree macros) {n : Text} (hn : n ∈ nullName :: routerLocals) :
    (Atom.name n).eval (routerLibrary value) macros env =
      (env.lookup n).or ((routerLibrary value).constant n) :=
  eval_name (hfree n hn)

theorem eval_toAtom (hfree : LocalsFree macros) (henv : RouterHolds input offset value env)
    (a : CArg) :
    a.toAtom.eval (routerLibrary value) macros env = some (a.eval input offset value) := by
  cases a with
  | null => exact (eval_local hfree (by decide)).trans (by rw [henv.atNull]; rfl)
  | input => exact (eval_local hfree (by decide)).trans (by rw [henv.atInput]; rfl)
  | len => exact (eval_local hfree (by decide)).trans (by rw [henv.atLen]; rfl)
  | value => exact (eval_local hfree (by decide)).trans (by rw [henv.atValue]; rfl)

theorem exec_ret (hfree : LocalsFree macros) (henv : RouterHolds input offset value env)
    (name : Text) (mutability : StateMutability) :
    (Simple.ret (callOf name mutability)).exec (routerLibrary value) macros env =
      some (.ended (.returned name (argValues input offset value mutability))) := by
  have hargs : evalArgs (routerLibrary value) macros env (mutability.callParams.map CArg.toAtom) =
      some (argValues input offset value mutability) :=
    evalArgs_map fun a _ => eval_toAtom hfree henv a
  rw [Simple.exec, callOf, hargs]
  rfl

theorem exec_revertUnlessZero (hfree : LocalsFree macros)
    (henv : RouterHolds input offset value env) :
    revertUnlessZero.exec (routerLibrary value) macros env =
      some (if value = 0 then .next env else .ended (.stopped revertName)) := by
  have hvalue := eval_toAtom hfree henv .value
  have hcond : (Cond.not ⟨bebi32IsZero, [.name valueVar]⟩).eval (routerLibrary value) macros env =
      some (decide (value ≠ 0)) := by
    have hargs : evalArgs (routerLibrary value) macros env [.name valueVar] =
        some [.data value] := by
      rw [evalArgs, evalArgs, show Atom.name valueVar = CArg.toAtom .value from rfl, hvalue]
      rfl
    have heffect : (⟨bebi32IsZero, [.name valueVar]⟩ : Call).effect (routerLibrary value) macros
        env = some (.value (.number (if value = 0 then 1 else 0))) := by
      rw [Call.effect, hargs]
      rfl
    rw [Cond.eval, heffect]
    by_cases hzero : value = 0
    · rw [if_pos hzero, decide_eq_false (not_not.2 hzero)]
      rfl
    · rw [if_neg hzero, decide_eq_true hzero]
      rfl
  rw [revertUnlessZero, Simple.exec, hcond]
  by_cases hzero : value = 0
  · rw [if_pos hzero, decide_eq_false (not_not.2 hzero)]
    rfl
  · rw [if_neg hzero, decide_eq_true hzero]
    rfl

/-- How a call that gets to the function is answered. -/
def Method.answer (m : Method) (input : Bytes) (offset : ℕ) (value : U256) : Ended U256 :=
  if m.overload.stateMutability = .payable ∨ value = 0 then
    .returned m.cName (argValues input offset value m.overload.stateMutability)
  else .stopped revertName

theorem isPayable_iff {m : StateMutability} : m.isPayable = true ↔ m = .payable := by
  rcases m with _ | _ | _ | _ <;> simp [StateMutability.isPayable]

/-- A branch that is taken calls the function, or reverts if it gets a value it does not take. -/
theorem execBlock_branch (hfree : LocalsFree macros) (henv : RouterHolds input offset value env)
    (m : Method) : execBlock (routerLibrary value) macros env
      ((if m.overload.stateMutability.isPayable then [] else [revertUnlessZero]) ++
        [.ret (callOf m.cName m.overload.stateMutability)]) =
      some (.ended (m.answer input offset value)) := by
  have hret := exec_ret hfree henv m.cName m.overload.stateMutability
  have hlast : execBlock (routerLibrary value) macros env
      [.ret (callOf m.cName m.overload.stateMutability)] = some (.ended (.returned m.cName
        (argValues input offset value m.overload.stateMutability))) := by
    rw [execBlock, hret]
    rfl
  unfold Method.answer
  by_cases hpayable : m.overload.stateMutability = .payable
  · rw [if_pos (isPayable_iff.2 hpayable), if_pos (.inl hpayable)]
    exact hlast
  · rw [if_neg fun h => hpayable (isPayable_iff.1 h), List.singleton_append, execBlock,
      exec_revertUnlessZero hfree henv]
    by_cases hzero : value = 0
    · rw [if_pos hzero, if_pos (.inr hzero)]
      exact hlast
    · rw [if_neg hzero, if_neg fun h => h.elim hpayable hzero]
      rfl

/-- The branch is taken if its macro is the selector. -/
theorem exec_branch (hfree : LocalsFree macros) (henv : RouterHolds input offset value env)
    {m : Method} {selector s : U32} (hselector : env.lookup selectorVar = some (.number s.toNat))
    (hdefine : macros.lookup (selectorMacro m.cName) = some (selectorText selector)) :
    m.branch.exec (routerLibrary value) macros env =
      some (if selector = s then .ended (m.answer input offset value) else .next env) := by
  have hcond : (Cond.equal (.name selectorVar) (.name (selectorMacro m.cName))).eval
      (routerLibrary value) macros env = some (decide (s.toNat = selector.toNat)) := by
    have hl : (Atom.name selectorVar).eval (routerLibrary value) macros env =
        some (.number s.toNat) := by
      rw [eval_local hfree (by decide), hselector]
      rfl
    have hr : (Atom.name (selectorMacro m.cName)).eval (routerLibrary value) macros env =
        some (.number selector.toNat) := by
      rw [Atom.eval, hdefine]
      exact congrArg (Option.map Value.number) (readHexNumber_selectorText selector)
    rw [Cond.eval, hl, hr]
    rfl
  rw [Method.branch, Stmt.exec, hcond]
  by_cases heq : selector = s
  · rw [if_pos heq, heq, decide_eq_true rfl]
    exact execBlock_branch hfree henv m
  · rw [if_neg heq, decide_eq_false fun h => heq (BitVec.eq_of_toNat_eq h.symm)]
    rfl

/-- The branches one after the other : the function with the selector is called, if there is
one. -/
theorem exec_branches (hfree : LocalsFree macros) (henv : RouterHolds input offset value env)
    {selectorOf : SelectorOf} {s : U32}
    (hselector : env.lookup selectorVar = some (.number s.toNat)) (rest : List Stmt) :
    ∀ {ms : List Method}, (∀ m ∈ ms, macros.lookup (selectorMacro m.cName) =
        some (selectorText (selectorOf m.overload.signature))) →
      (∃ m ∈ ms, selectorOf m.overload.signature = s ∧
          exec (routerLibrary value) macros env (ms.map Method.branch ++ rest) =
            some (m.answer input offset value)) ∨
        (∀ m ∈ ms, selectorOf m.overload.signature ≠ s) ∧
          exec (routerLibrary value) macros env (ms.map Method.branch ++ rest) =
            exec (routerLibrary value) macros env rest
  | [], _ => .inr ⟨by simp, rfl⟩
  | m :: ms, h => by
    have hbranch := exec_branch hfree henv hselector (h m List.mem_cons_self)
    rw [List.map_cons, List.cons_append]
    by_cases heq : selectorOf m.overload.signature = s
    · rw [if_pos heq] at hbranch
      exact .inl ⟨m, List.mem_cons_self, heq, exec_ended hbranch _⟩
    · rw [if_neg heq] at hbranch
      rw [exec_next hbranch]
      rcases exec_branches hfree henv hselector rest
        (fun m' hm' => h m' (List.mem_cons_of_mem m hm')) with
        ⟨m', hm', hselector', hexec⟩ | ⟨hnone, hexec⟩
      · exact .inl ⟨m', List.mem_cons_of_mem m hm', hselector', hexec⟩
      · exact .inr ⟨List.forall_mem_cons.2 ⟨heq, hnone⟩, hexec⟩

/-- The variables once the value is fetched, where the input and its length are the parameters. -/
def fetchedEnv (input : Bytes) (value : U256) : Env U256 :=
  [(valueVar, .data value), (valueVar, .unset), (inputVar, .pointer input 0),
    (lenVar, .number input.length)]

/-- The variables before the branches. -/
def branchEnv (input : Bytes) (value : U256) : Env U256 :=
  (lenVar, .number (input.length - 4)) :: (inputVar, .pointer input 4) ::
    (selectorVar, .number (inputSelector input).toNat) :: fetchedEnv input value

theorem routerHolds_fetchedEnv : RouterHolds input 0 value (fetchedEnv input value) :=
  ⟨rfl, rfl, rfl, rfl⟩

theorem routerHolds_branchEnv : RouterHolds input 4 value (branchEnv input value) :=
  ⟨rfl, rfl, rfl, rfl⟩

theorem toNat_inputSelector (input : Bytes) : (inputSelector input).toNat =
    ofBe (input.take 4) := by
  have hlt := ofBe_lt (input.take 4)
  have hpow : 256 ^ (input.take 4).length ≤ 256 ^ 4 :=
    Nat.pow_le_pow_right (by omega) (List.length_take_le 4 input)
  rw [inputSelector, BitVec.toNat_ofNat]
  exact Nat.mod_eq_of_lt (by omega)

theorem exec_msgValue (hfree : LocalsFree macros) {start : Env U256} :
    (Stmt.simple (.call ⟨msgValueName, [.name valueVar]⟩)).exec (routerLibrary value) macros
        ((valueVar, .unset) :: start) =
      some (.next ((valueVar, .data value) :: (valueVar, .unset) :: start)) := by
  have harg : (Atom.name valueVar).eval (routerLibrary value) macros
      ((valueVar, .unset) :: start) = some .unset := eval_local hfree (by decide)
  have hargs : evalArgs (routerLibrary value) macros ((valueVar, .unset) :: start)
      [.name valueVar] = some [.unset] := by
    rw [evalArgs, harg]
    rfl
  rw [Stmt.exec, Simple.exec, Call.exec, Call.effect, hargs]
  rfl

/-- Input that is too short for a selector goes to the fallback. -/
theorem exec_short (hfree : LocalsFree macros) (input : Bytes) (value : U256) :
    (Stmt.block (.less (.name lenVar) (.number 4)) [.ret defaultCall]).exec (routerLibrary value)
        macros (fetchedEnv input value) =
      some (if input.length < 4 then
          .ended (.returned defaultFunc (argValues input 0 value .payable))
        else .next (fetchedEnv input value)) := by
  have hlen : (Atom.name lenVar).eval (routerLibrary value) macros (fetchedEnv input value) =
      some (.number input.length) := eval_toAtom hfree routerHolds_fetchedEnv .len
  have hcond : (Cond.less (.name lenVar) (.number 4)).eval (routerLibrary value) macros
      (fetchedEnv input value) = some (decide (input.length < 4)) := by
    rw [Cond.eval, hlen]
    rfl
  have hheld : RouterHolds input 0 value (fetchedEnv input value) := routerHolds_fetchedEnv
  have hret := exec_ret hfree hheld defaultFunc .payable
  rw [Stmt.exec, hcond]
  by_cases hshort : input.length < 4
  · rw [if_pos hshort, decide_eq_true hshort]
    change execBlock (routerLibrary value) macros (fetchedEnv input value) [.ret defaultCall] = _
    rw [execBlock, defaultCall, hret]
    rfl
  · rw [if_neg hshort, decide_eq_false hshort]
    rfl

theorem exec_bebiGetU32 (hfree : LocalsFree macros) (p : Param) :
    (Stmt.init p ⟨bebiGetU32, [.name inputVar, .number 0]⟩).exec (routerLibrary value) macros
        (fetchedEnv input value) =
      some (.next ((p.name, .number (inputSelector input).toNat) :: fetchedEnv input value)) := by
  have hinput : (Atom.name inputVar).eval (routerLibrary value) macros (fetchedEnv input value) =
      some (.pointer input 0) := eval_toAtom hfree routerHolds_fetchedEnv .input
  have hargs : evalArgs (routerLibrary value) macros (fetchedEnv input value)
      [.name inputVar, .number 0] = some [.pointer input 0, .number 0] := by
    rw [evalArgs, hinput]
    rfl
  rw [Stmt.exec, Call.effect, hargs, toNat_inputSelector]
  rfl

theorem exec_add {name : Text} {v v' : Value U256} (h : env.lookup name = some v) {n : ℕ}
    (hv : v.add n = some v') : (Stmt.add name n).exec (routerLibrary value) macros env =
      some (.next ((name, v') :: env)) := by
  rw [Stmt.exec, assign, h, Option.bind_eq_bind, Option.bind_some, hv]
  rfl

theorem exec_sub {name : Text} {v v' : Value U256} (h : env.lookup name = some v) {n : ℕ}
    (hv : v.sub n = some v') : (Stmt.sub name n).exec (routerLibrary value) macros env =
      some (.next ((name, v') :: env)) := by
  rw [Stmt.exec, assign, h, Option.bind_eq_bind, Option.bind_some, hv]
  rfl

/-- Before the branches the value is fetched, and the selector is read if there is one. -/
theorem exec_routerStart (hfree : LocalsFree macros) (rest : List Stmt) :
    exec (routerLibrary value) macros [(inputVar, .pointer input 0),
        (lenVar, .number input.length)] (routerStart ++ rest) =
      if input.length < 4 then some (.returned defaultFunc (argValues input 0 value .payable))
      else exec (routerLibrary value) macros (branchEnv input value) rest := by
  have hfetch : exec (routerLibrary value) macros [(inputVar, .pointer input 0),
      (lenVar, .number input.length)] (routerStart ++ rest) =
      exec (routerLibrary value) macros (fetchedEnv input value) (routerStart.drop 2 ++ rest) :=
    (exec_next rfl _).trans (exec_next (exec_msgValue hfree) _)
  have hshort := exec_short hfree input value
  rw [hfetch]
  by_cases hlen : input.length < 4
  · rw [if_pos hlen] at hshort ⊢
    exact exec_ended hshort _
  · have hsub : (Value.number input.length : Value U256).sub 4 =
        some (.number (input.length - 4)) := if_pos (not_lt.1 hlen)
    rw [if_neg hlen] at hshort ⊢
    exact (exec_next hshort _).trans <| (exec_next (exec_bebiGetU32 hfree _) _).trans <|
      (exec_next (exec_add rfl rfl) _).trans (exec_next (exec_sub rfl hsub) _)

/-- With no branch taken the fallback is called, with the whole input. -/
theorem exec_routerEnd (hfree : LocalsFree macros) (hlen : 4 ≤ input.length) :
    exec (routerLibrary value) macros (branchEnv input value) routerEnd =
      some (.returned defaultFunc (argValues input 0 value .payable)) := by
  have hadd : (Value.number (input.length - 4) : Value U256).add 4 =
      some (.number input.length) := by
    rw [Value.add, Nat.sub_add_cancel hlen]
  have hret : (Stmt.simple (.ret defaultCall)).exec (routerLibrary value) macros
      ((lenVar, .number input.length) :: (inputVar, .pointer input 0) :: branchEnv input value) =
      some (.ended (.returned defaultFunc (argValues input 0 value .payable))) :=
    exec_ret hfree ⟨rfl, rfl, rfl, rfl⟩ defaultFunc .payable
  exact (exec_next rfl _).trans <| (exec_next (exec_sub rfl rfl) _).trans <|
    (exec_next (exec_add rfl hadd) _).trans (exec_ended hret _)

/-- The router calls a function with the selector, if the input has one and there is any, and
else the fallback. -/
theorem exec_routerBody (hfree : LocalsFree macros) {selectorOf : SelectorOf}
    (hmacros : ∀ m ∈ ms, macros.lookup (selectorMacro m.cName) =
      some (selectorText (selectorOf m.overload.signature))) (input : Bytes) (value : U256) :
    (4 ≤ input.length ∧ ∃ m ∈ ms, selectorOf m.overload.signature = inputSelector input ∧
        exec (routerLibrary value) macros [(inputVar, .pointer input 0),
            (lenVar, .number input.length)] (routerBody ms) = some (m.answer input 4 value)) ∨
      (4 ≤ input.length → ∀ m ∈ ms, selectorOf m.overload.signature ≠ inputSelector input) ∧
        exec (routerLibrary value) macros [(inputVar, .pointer input 0),
            (lenVar, .number input.length)] (routerBody ms) =
          some (.returned defaultFunc (argValues input 0 value .payable)) := by
  rw [routerBody, List.append_assoc, exec_routerStart hfree]
  split_ifs with hlen
  · exact .inr ⟨fun hle => absurd hlen hle.not_gt, rfl⟩
  · rcases exec_branches hfree routerHolds_branchEnv (s := inputSelector input) rfl routerEnd
      hmacros with ⟨m, hm, hselector, hexec⟩ | ⟨hnone, hexec⟩
    · exact .inl ⟨not_lt.1 hlen, m, hm, hselector, hexec⟩
    · exact .inr ⟨fun _ => hnone, hexec.trans (exec_routerEnd hfree (not_lt.1 hlen))⟩

/-! ## Running the lines -/

section

variable {lines : List Line} (hlines : lines = keptLines ident sdk libs file contract storageArr ms)

include hlines

theorem run_lines (input : Bytes) : run (routerLibrary value) entrypoint lines
    [.pointer input 0, .number input.length] =
      exec (routerLibrary value) (contractMacros ident libs file contract storageArr ms)
        [(inputVar, .pointer input 0), (lenVar, .number input.length)] (routerBody ms) := by
  have hkept : ∀ {β : Type} {read : Line → Option β},
      (∀ line : Line, (∀ p body, line.item ≠ .function p body) →
        (∀ name argument, line.item ≠ .invoke name argument) → read line = none) →
      lines.findSome? read = ((entryItems contract.toList ms).map
        (Line.mk (contractMacros ident libs file contract storageArr ms))).findSome? read := by
    intro β read hread
    rw [hlines, keptLines, List.findSome?_append, List.findSome?_eq_none_iff.2, Option.none_or]
    intro line hline
    have hcode := code_keptItems (mem_preprocess isPlain_keptItems hline).1
    refine hread line (fun p body hitem => ?_) fun name argument hitem => ?_ <;> rw [hitem] at hcode
    · rcases hcode with hcode | hcode | ⟨m, -, hcode⟩ <;> cases hcode
    · rcases hcode with hcode | hcode | ⟨m, -, hcode⟩ <;> cases hcode
  have hinvoked : findInvoked entrypoint lines = some (contractEntry contract.toList) := by
    rw [findInvoked, hkept]
    · simp [entryItems]
    · intro line _ hline
      split
      · exact absurd ‹_› (hline _ _)
      · rfl
  have hdefinition : findDefinition (contractEntry contract.toList) lines =
      some (contractMacros ident libs file contract storageArr ms,
        prototypeOf (contractEntry contract.toList) .pure, routerBody ms) := by
    rw [findDefinition, hkept]
    · simp [entryItems, Item.defined, prototypeOf]
    · intro line hline _
      cases hitem : line.item with
      | function p body => exact absurd hitem (hline p body)
      | _ => rfl
  rw [run, hinvoked, Option.bind_eq_bind, Option.bind_some, hdefinition]
  rfl

end

/-! ## Legible lines -/

/-- The text of others that is written stays on its lines : the name of the file in the guard,
the signatures, and the names and types in the storage layout. -/
structure LinesLegible (libs : GenLibs) (file contract : String) (storageArr : List Json.Value)
    (abi : List AbiFunction) : Prop where
  guard : Unbroken (uniqueIdentifier libs file contract)
  signatures : ∀ f ∈ abi, OneLine f.signature
  storage : ∀ m ∈ layoutMacros libs.keccak256 storageArr, m.toItem.Legible

/-- The items of both files. -/
def fileItems (libs : GenLibs) (file contract : String) (storageArr : List Json.Value)
    (ms : List Method) : List Item :=
  headerItems libs.selectorOf (uniqueIdentifier libs file contract)
      (layoutMacros libs.keccak256 storageArr) ms ++ routerItems contract.toList ms

theorem unbroken_of_all {t : Text} (h : t.all (· ∉ lineBreakers)) : Unbroken t :=
  unbroken_of_forall (List.all_iff_forall_prop.1 h)

theorem not_mem_lineBreakers_of_isName {t : Text} (h : IsName ident t) :
    ∀ c ∈ t, c ∉ lineBreakers :=
  fun c hc => CIdentifier.not_mem_lineBreakers (h.chars c hc)

theorem legible_header (selectorOf : SelectorOf) {m : Method} (h : IsName ident m.cName)
    (hsignature : OneLine m.overload.signature) {item : Item}
    (hitem : item ∈ m.headerItems selectorOf) : item.Legible := by
  have hcomment : ∀ t ∈ some m.overload.signature, OneLine t := by
    rintro t ⟨⟩
    exact hsignature
  simp only [Method.headerItems, List.mem_cons, List.not_mem_nil, or_false] at hitem
  rcases hitem with rfl | rfl
  · have hhex : ∀ c ∈ hexEncode (be 4 (selectorOf m.overload.signature)), c ∉ lineBreakers := by
      intro c hc
      obtain ⟨d, hd, rfl⟩ := exists_digitChar_of_mem_hexEncode hc
      interval_cases d <;> decide
    have hdefine : ∀ c ∈ ['S', 'E', 'L', 'E', 'C', 'T', 'O', 'R', '_'], c ∉ lineBreakers :=
      List.all_iff_forall_prop.1 (by decide)
    have hblank : ∀ c ∈ " 0x".toList, c ∉ lineBreakers := List.all_iff_forall_prop.1 (by decide)
    refine ⟨unbroken_of_forall ?_, hcomment⟩
    simp only [selectorMacro, List.forall_mem_append]
    exact ⟨⟨⟨hdefine, not_mem_lineBreakers_of_isName h⟩, hblank⟩, hhex⟩
  · exact hcomment

theorem legible_generatedBy : (Item.comment generatedBy).Legible :=
  (unbroken_of_all (by decide)).toOneLine

theorem unbroken_stylusTypes : Unbroken "<stylus_types.h>".toList :=
  unbroken_of_all (by decide)

theorem unbroken_bebi : Unbroken "<bebi.h>".toList :=
  unbroken_of_all (by decide)

theorem legible_forCplusplus {t : Text} : ∀ item ∈ forCplusplus t, item.Legible := by
  intro item hitem
  simp only [forCplusplus, List.mem_cons, List.not_mem_nil, or_false] at hitem
  rcases hitem with rfl | rfl | rfl
  · exact unbroken_of_all (by decide)
  · trivial
  · rintro _ ⟨⟩

/-- The lines of the header are legible if the guard and what is declared are. -/
theorem legible_headerItems {selectorOf : SelectorOf} {uniq : Text} {storage : List StorageMacro}
    (hguard : Unbroken uniq) (hbody : ∀ item ∈ bodyItems selectorOf storage ms, item.Legible) :
    ∀ item ∈ headerItems selectorOf uniq storage ms, item.Legible := by
  intro item hitem
  simp only [headerItems, headerTop, headerBottom, List.mem_append, List.mem_cons,
    List.not_mem_nil, or_false] at hitem
  rcases hitem with ((((hitem | hitem) | hitem) | hitem) | hitem) | rfl
  · rcases hitem with rfl | rfl | rfl
    · exact legible_generatedBy
    · exact hguard
    · exact ⟨hguard, by rintro _ ⟨⟩⟩
  · rcases hitem with ((rfl | rfl | rfl | rfl) | hitem) | rfl
    · trivial
    · exact unbroken_stylusTypes
    · exact unbroken_bebi
    · trivial
    · exact legible_forCplusplus item hitem
    · trivial
  · rcases hitem with rfl | rfl
    · rintro _ ⟨⟩
    · trivial
  · exact hbody item hitem
  · rcases hitem with ((rfl | rfl) | hitem) | rfl
    · trivial
    · trivial
    · exact legible_forCplusplus item hitem
    · trivial
  · rintro t ⟨⟩
    exact hguard.toOneLine

theorem unbroken_headerInclusion {contract : Text} (h : IsName ident contract) :
    Unbroken (headerInclusion contract) := by
  have hquote : ∀ c ∈ "\"".toList, c ∉ lineBreakers := List.all_iff_forall_prop.1 (by decide)
  have hextension : ∀ c ∈ ".h\"".toList, c ∉ lineBreakers :=
    List.all_iff_forall_prop.1 (by decide)
  exact unbroken_of_forall (List.forall_mem_append.2
    ⟨List.forall_mem_append.2 ⟨hquote, not_mem_lineBreakers_of_isName h⟩, hextension⟩)

/-- The lines of the router are legible. -/
theorem legible_routerItems {contract : Text} (h : IsName ident contract) :
    ∀ item ∈ routerItems contract ms, item.Legible := by
  intro item hitem
  simp only [routerItems, routerTop, List.mem_append, List.mem_cons, List.not_mem_nil,
    or_false] at hitem
  rcases hitem with (hitem | hitem) | hitem
  · rcases hitem with rfl | rfl | rfl
    · exact legible_generatedBy
    · trivial
    · exact unbroken_headerInclusion h
  · rcases hitem with rfl | rfl | rfl | rfl | rfl
    · exact unbroken_stylusTypes
    · exact unbroken_of_all (by decide)
    · exact unbroken_bebi
    · trivial
    · trivial
  · rcases hitem with rfl | rfl | rfl <;> trivial

/-- The lines of both files are legible if the text of others stays on its lines. -/
theorem legible_of_linesLegible {abi : List AbiFunction}
    (h : LinesLegible libs file contract storageArr abi) (hnamed : Named ident ms)
    (hcontract : IsName ident contract.toList) (hms : ∀ m ∈ ms, m.overload ∈ abi) :
    ∀ item ∈ fileItems libs file contract storageArr ms, item.Legible := by
  have hbody : ∀ item ∈ bodyItems libs.selectorOf (layoutMacros libs.keccak256 storageArr) ms,
      item.Legible := by
    intro item hitem
    rcases mem_bodyItems hitem with rfl | ⟨m, hm, hitem⟩ | ⟨m, hm, rfl⟩
    · trivial
    · exact legible_header _ (hnamed m hm) (h.signatures _ (hms m hm)) hitem
    · exact h.storage m hm
  exact List.forall_mem_append.2 ⟨legible_headerItems h.guard hbody, legible_routerItems hcontract⟩

theorem linesLegible_of_legible {abi : List AbiFunction}
    (h : ∀ item ∈ fileItems libs file contract storageArr ms, item.Legible)
    (hms : ∀ f ∈ abi, ∃ m ∈ ms, m.overload = f) :
    LinesLegible libs file contract storageArr abi := by
  have hbody : ∀ item ∈ bodyItems libs.selectorOf (layoutMacros libs.keccak256 storageArr) ms,
      item.Legible := by
    intro item hitem
    refine h item (List.mem_append_left _ ?_)
    simp only [headerItems, List.mem_append, hitem, true_or, or_true]
  refine ⟨?_, fun f hf => ?_,
    fun m hm => hbody _ (List.mem_append_right _ (List.mem_map_of_mem hm))⟩
  · refine h (.ifndef (uniqueIdentifier libs file contract)) (List.mem_append_left _ ?_)
    simp [headerItems]
  · obtain ⟨m, hm, rfl⟩ := hms f hf
    have hlegible := hbody (.prototype m.prototype (some m.overload.signature)) (by
      refine List.mem_append_left _ ?_
      rw [if_neg (List.ne_nil_of_mem hm)]
      exact List.mem_append_left _ (List.mem_flatMap.2
        ⟨m, hm, List.mem_cons_of_mem _ (List.mem_singleton_self _)⟩))
    exact hlegible _ rfl

/-! ## Dispatch -/

/-- The files are written if there is something to write, and do what they are for : every name
in C and every macro for a selector is of one function, the files compile, and the router calls
the function with the selector, which gets no value unless it is payable, or the fallback. -/
structure Dispatches (ident : CIdentifier) (sdk : Sdk) (libs : GenLibs) (file contract : String)
    (storageArr : List Json.Value) (abi : List AbiFunction)
    (methods : List (Text × List AbiFunction)) : Prop where
  files : cGen libs.selectorOf contract.toList (uniqueIdentifier libs file contract)
      (storageLines libs.keccak256 storageArr) methods =
    (if abi = [] ∧ layoutMacros libs.keccak256 storageArr = [] then none
      else some (fileText (headerItems libs.selectorOf (uniqueIdentifier libs file contract)
        (layoutMacros libs.keccak256 storageArr) (generated methods))),
      if abi = [] then none
      else some (fileText (routerItems contract.toList (generated methods))))
  legible : ∀ item ∈ fileItems libs file contract storageArr (generated methods), item.Legible
  functions : ((generated methods).map Method.cName).Nodup
  macros : ∀ m ∈ generated methods,
    (((contractUnit libs file contract storageArr (generated methods)).filterMap
      (Item.definedMacro ident)).map Prod.fst).count (selectorMacro m.cName) = 1
  free : ∀ m ∈ generated methods, ∀ f ∈ definitions (contractLines ident sdk libs file contract
    storageArr (generated methods)), f.1.name ≠ m.cName
  compiles : Compiles ident sdk.names [nullName]
    (contractLines ident sdk libs file contract storageArr (generated methods))
  calls {input : Bytes} {value : U256} {f : AbiFunction} : 4 ≤ input.length → f ∈ abi →
    libs.selectorOf f.signature = inputSelector input →
    ∃ m ∈ generated methods, m.overload = f ∧
      m.prototype ∈ declarations
        (contractLines ident sdk libs file contract storageArr (generated methods)) ∧
      run (routerLibrary value) entrypoint
          (contractLines ident sdk libs file contract storageArr (generated methods))
          [.pointer input 0, .number input.length] =
        some (if f.stateMutability = .payable ∨ value = 0 then
            .returned m.cName (argValues input 4 value f.stateMutability)
          else .stopped revertName)
  fallback {input : Bytes} {value : U256} :
    (4 ≤ input.length → ∀ f ∈ abi, libs.selectorOf f.signature ≠ inputSelector input) →
    run (routerLibrary value) entrypoint
        (contractLines ident sdk libs file contract storageArr (generated methods))
        [.pointer input 0, .number input.length] =
      some (.returned defaultFunc [.null, .pointer input 0, .number input.length, .data value])

/-- The names in C are different, none stands for something else, the guard is free, and the
text of others stays on its lines. -/
structure NamesApart (ident : CIdentifier) (sdk : Sdk) (libs : GenLibs) (file contract : String)
    (storageArr : List Json.Value) (abi : List AbiFunction) : Prop where
  overloads : OverloadsApart abi
  functions : NamesMeanFunctions ident sdk libs file contract storageArr (CNameOf abi)
  guard : directiveIdent ident (uniqueIdentifier libs file contract) ∉ sdk.names
  lines : LinesLegible libs file contract storageArr abi

theorem files_eq {abi : List AbiFunction} {methods : List (Text × List AbiFunction)}
    (h : methods.Perm (collectMethods abi)) (selectorOf : SelectorOf) (entry uniq : Text)
    (storage : List StorageMacro) :
    cGen selectorOf entry uniq (storage.flatMap StorageMacro.text) methods =
      (if abi = [] ∧ storage = [] then none
        else some (fileText (headerItems selectorOf uniq storage (generated methods))),
        if abi = [] then none
        else some (fileText (routerItems entry (generated methods)))) := by
  rw [cGen_eq]
  simp only [generated_eq_nil_iff h]

theorem selectorMacro_injective : Function.Injective selectorMacro :=
  fun _ _ h => List.append_cancel_left h

theorem take_two_selectorMacro (c : Text) : (selectorMacro c).take 2 = ['S', 'E'] :=
  rfl

/-- With different names in C a macro has the selector of its function. -/
theorem lookup_selectorMacro (hnamed : Named ident ms) (hnodup : (ms.map Method.cName).Nodup)
    {m : Method} (hm : m ∈ ms) :
    (contractMacros ident libs file contract storageArr ms).lookup (selectorMacro m.cName) =
      some (selectorText (libs.selectorOf m.overload.signature)) := by
  refine lookup_of_unique ((mem_contractMacros hnamed).2 (.inr (.inl ⟨m, hm, rfl⟩)))
    fun d hd hname => ?_
  have htwo := congrArg (List.take 2) hname
  rw [take_two_selectorMacro] at htwo
  rcases (mem_contractMacros hnamed).1 hd with rfl | ⟨m', hm', rfl⟩ | ⟨m', hm', hd⟩
  · rw [take_two_guard] at htwo
    cases htwo
  · rw [List.inj_on_of_nodup_map hnodup hm hm' (selectorMacro_injective hname).symm]
    rfl
  · obtain ⟨value, hvalue⟩ := directiveIdent_toItem ident m'
    rw [Option.some.inj (hd.symm.trans hvalue), take_two_storageMacro hm'] at htwo
    cases htwo

theorem count_selectorMacro (hnamed : Named ident ms) (hnodup : (ms.map Method.cName).Nodup)
    {m : Method} (hm : m ∈ ms) :
    (((contractUnit libs file contract storageArr ms).filterMap (Item.definedMacro ident)).map
      Prod.fst).count (selectorMacro m.cName) = 1 := by
  have hselectors : ((ms.flatMap (Method.headerItems libs.selectorOf)).filterMap
      (Item.definedMacro ident)).map Prod.fst = (ms.map Method.cName).map selectorMacro := by
    rw [List.filterMap_flatMap, List.map_flatMap, List.map_map, List.map_eq_flatMap]
    refine List.flatMap_congr fun m hm => ?_
    rw [Method.headerItems, List.filterMap_cons, macro_selector (hnamed m hm).chars]
    rfl
  have hguard : directiveIdent ident (uniqueIdentifier libs file contract) ≠
      selectorMacro m.cName := by
    intro heq
    have htwo := take_two_selectorMacro m.cName
    rw [← heq, take_two_guard] at htwo
    cases htwo
  have hstorage : selectorMacro m.cName ∉ (((layoutMacros libs.keccak256 storageArr).map
      StorageMacro.toItem).filterMap (Item.definedMacro ident)).map Prod.fst := by
    intro hmem
    obtain ⟨d, hd, hname⟩ := List.mem_map.1 hmem
    obtain ⟨item, hitem, hd⟩ := List.mem_filterMap.1 hd
    obtain ⟨m', hm', rfl⟩ := List.mem_map.1 hitem
    obtain ⟨value, hvalue⟩ := directiveIdent_toItem ident m'
    rw [Option.some.inj (hd.symm.trans hvalue)] at hname
    have htwo := take_two_selectorMacro m.cName
    rw [← hname, take_two_storageMacro hm'] at htwo
    cases htwo
  have hmem : selectorMacro m.cName ∈ (ms.map Method.cName).map selectorMacro :=
    List.mem_map_of_mem (List.mem_map_of_mem hm)
  rw [contractUnit, filterMap_unitItems, filterMap_keptItems, List.map_cons, List.map_append,
    List.count_cons_of_ne hguard, List.count_append, hselectors,
    List.count_eq_zero_of_not_mem hstorage, Nat.add_zero]
  exact List.count_eq_one_of_mem ((List.nodup_map_iff selectorMacro_injective).2 hnodup) hmem

theorem localsFree (libs : GenLibs) (file contract : String) (storageArr : List Json.Value)
    (hnamed : Named ident ms) :
    LocalsFree (contractMacros ident libs file contract storageArr ms) := by
  intro n hn hmem
  have hdefine := take_two_of_isMacro ((isMacro_iff hnamed).2 hmem)
  have hlocals : ∀ n ∈ nullName :: routerLocals, n.take 2 ∉ macroStarts := by decide
  exact hlocals n hn hdefine

theorem eq_of_selector {selectorOf : SelectorOf} {abi : List AbiFunction}
    (hselectors : abi.Pairwise fun f g => selectorOf f.signature ≠ selectorOf g.signature)
    {f g : AbiFunction} (hf : f ∈ abi) (hg : g ∈ abi)
    (heq : selectorOf f.signature = selectorOf g.signature) : f = g := by
  have hsymm : Std.Symm fun f g : AbiFunction =>
      selectorOf f.signature ≠ selectorOf g.signature :=
    ⟨fun _ _ h => h.symm⟩
  by_contra hne
  exact hselectors.forall hf hg hne heq

section

variable {abi : List AbiFunction} {methods : List (Text × List AbiFunction)}

theorem named_generated (h : methods.Perm (collectMethods abi))
    (hnames : ∀ f ∈ abi, IsName ident f.name) : Named ident (generated methods) := by
  intro m hm
  have hname := (mem_generated h).1 hm
  obtain ⟨index, -, hc⟩ := hname
  rw [hc]
  exact isName_cName (hnames _ (mem_of_cNameOf ((mem_generated h).1 hm))) index

theorem guard_of_compiles (h : Compiles ident sdk.names [nullName]
    (contractLines ident sdk libs file contract storageArr ms)) :
    directiveIdent ident (uniqueIdentifier libs file contract) ∉ sdk.names := by
  intro hguard
  have hplain : ∀ item ∈ unitStart ++ (routerTop ++ entryItems contract.toList ms),
      item.isPlain := by
    intro item hitem
    rcases List.mem_append.1 hitem with hitem | hitem
    · exact isPlain_unitStart item hitem
    · rcases List.mem_append.1 hitem with hitem | hitem
      · exact isPlain_routerTop item (List.mem_cons_of_mem _ hitem)
      · exact isPlain_entryItems item hitem
  have hread : ∀ {β : Type} {read : Item → Option β}, (∀ body c, read (.define body c) = none) →
      (contractLines ident sdk libs file contract storageArr ms).filterMap
        (fun line => read line.item) =
        (unitStart ++ (routerTop ++ entryItems contract.toList ms)).filterMap read := by
    intro β read hread
    rw [contractLines, contractUnit, preprocess_guarded hguard, filterMap_preprocess hread hplain]
  have hdefinitions : definitions (contractLines ident sdk libs file contract storageArr ms) =
      [(prototypeOf (contractEntry contract.toList) .pure, routerBody ms)] :=
    hread fun _ _ => rfl
  have hdeclarations : declarations (contractLines ident sdk libs file contract storageArr ms) =
      [prototypeOf (contractEntry contract.toList) .pure] :=
    hread fun _ _ => rfl
  have hcall := (h.calls _ (hdefinitions ▸ List.mem_singleton_self _) _ defaultCall_mem_calls).2
  rcases hcall with hsdk | ⟨p, hp, hname, -⟩
  · exact sdk.noDefaultFunc hsdk
  · rw [hdeclarations, List.mem_singleton] at hp
    rw [hp] at hname
    exact contractEntry_ne_defaultFunc contract.toList hname

theorem namesApart_of_dispatches (h : methods.Perm (collectMethods abi))
    (hnames : ∀ f ∈ abi, IsName ident f.name)
    (hdispatch : Dispatches ident sdk libs file contract storageArr abi methods) :
    NamesApart ident sdk libs file contract storageArr abi := by
  have hnamed := named_generated h hnames
  have hguard := guard_of_compiles hdispatch.compiles
  have hlines : contractLines ident sdk libs file contract storageArr (generated methods) = _ :=
    contractLines_eq hguard hnamed
  refine ⟨(nodup_cNames_iff h).1 hdispatch.functions, ?_, hguard, ?_⟩
  · rw [← written_generated h]
    exact namesMeanFunctions_of_compiles hlines hnamed hdispatch.compiles hdispatch.free
  · refine linesLegible_of_legible hdispatch.legible fun f hf => ?_
    obtain ⟨c, hc⟩ := exists_cNameOf hf
    exact ⟨⟨c, f⟩, (mem_generated h).2 hc, rfl⟩

theorem dispatches_of_namesApart (h : methods.Perm (collectMethods abi))
    (hcontract : IsName ident contract.toList) (hnames : ∀ f ∈ abi, IsName ident f.name)
    (hselectors : abi.Pairwise fun f g =>
      libs.selectorOf f.signature ≠ libs.selectorOf g.signature)
    (hapart : NamesApart ident sdk libs file contract storageArr abi) :
    Dispatches ident sdk libs file contract storageArr abi methods := by
  have hnamed := named_generated h hnames
  have hnodup := (nodup_cNames_iff h).2 hapart.overloads
  have hlines : contractLines ident sdk libs file contract storageArr (generated methods) = _ :=
    contractLines_eq hapart.guard hnamed
  have hfunctions := written_generated h ▸ hapart.functions
  have hrun : ∀ (input : Bytes) (value : U256), run (routerLibrary value) entrypoint
      (contractLines ident sdk libs file contract storageArr (generated methods))
      [.pointer input 0, .number input.length] = _ := fun input value => run_lines hlines input
  have hspec := fun input value => exec_routerBody (localsFree libs file contract storageArr hnamed)
    (fun m hm => lookup_selectorMacro hnamed hnodup hm) input value
  refine ⟨files_eq h _ _ _ _, legible_of_linesLegible hapart.lines hnamed hcontract fun m hm =>
      mem_of_cNameOf ((mem_generated h).1 hm), hnodup,
    fun m hm => count_selectorMacro hnamed hnodup hm, fun m hm f hf => ?_,
    compiles_of_namesMeanFunctions hlines hnamed hcontract hnodup hfunctions, ?_, ?_⟩
  · rw [definitions_eq hlines, List.mem_singleton] at hf
    subst hf
    exact (hfunctions.free (f := m.overload) hm).2.2.symm
  · intro input value f hlen hf hselector
    obtain ⟨c, hc⟩ := exists_cNameOf hf
    have hwritten : (⟨c, f⟩ : Method) ∈ generated methods := (mem_generated h).2 hc
    rcases hspec input value with ⟨-, m, hm, hm', hexec⟩ | ⟨hnone, -⟩
    · obtain rfl := eq_of_selector hselectors (mem_of_cNameOf ((mem_generated h).1 hm)) hf
        (hm'.trans hselector.symm)
      exact ⟨m, hm, rfl, (mem_declarations hlines).2 (.inr (.inr ⟨m, hm, rfl⟩)),
        (hrun input value).trans hexec⟩
    · exact absurd hselector (hnone hlen _ hwritten)
  · intro input value hnone
    rcases hspec input value with ⟨hlen, m, hm, hm', -⟩ | ⟨-, hexec⟩
    · exact absurd hm' (hnone hlen _ (mem_of_cNameOf ((mem_generated h).1 hm)))
    · exact (hrun input value).trans hexec

end

/-- `f()`, `f(uint256)` and `f_1()`. -/
def overloadedAbi : List AbiFunction :=
  [⟨['f'], [], .nonPayable⟩,
    ⟨['f'], [['u', 'i', 'n', 't', '2', '5', '6']], .nonPayable⟩,
    ⟨['f', '_', '1'], [], .nonPayable⟩]

/-- The selectors of the three functions. -/
def overloadedSelector : SelectorOf := fun signature =>
  if signature = ['f', '(', ')'] then 0x26121ff0
  else if signature = ['f', '(', 'u', 'i', 'n', 't', '2', '5', '6', ')'] then 0xb3de648b
  else if signature = ['f', '_', '1', '(', ')'] then 0x6b1570a0
  else 0

/-- The libraries, with the selectors of these functions. -/
def overloadedLibs : GenLibs :=
  { asciiLibs with selectorOf := overloadedSelector }

/-- What a compiler and the SDK define. -/
def stylusSdk : Sdk where
  names := sdkNames ++ ["__STDC__".toList, "uint16_t".toList, "uint64_t".toList]
  used := by decide
  noDefaultFunc := by decide
  noCplusplus := by decide

theorem isName_of_all {name : Text} (hstart : ∃ c ∈ name.head?, ¬c.isDigit)
    (hchars : name.all isWordChar) (hkeyword : name ∉ keywords.map String.toList) :
    IsName ident name :=
  ⟨hstart, fun _ hc => ident.isIdent_of_mem hchars hc, hkeyword⟩

end CargoStylus
