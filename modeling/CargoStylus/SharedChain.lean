import CargoStylus.CheckRun
import CargoStylus.Evm.Machine
import CargoStylus.Rust.Shared

/-!
# Commands on one chain

Several commands, and whoever else uses the chain, send their transactions to it in any order. The
chain takes a transaction, runs it at some time and then has its receipt (`ChainWorks`). A creation
puts what its init code returns at the address in the receipt, an activation makes the code of a
contract active, and ArbWasm has a version for the codes that are active (`ChainResponds`). A code
that `Lapses` may become inactive again, as its activation expires or Stylus is upgraded.

What is on the chain stays there (`chainService_ascends`), and a receipt says that its transaction
took effect, if it was not reverted (`ChainState.Consistent`). So what the responses of a run tell
holds of the chain in the end, whatever the others do (`RunsShared.tookEffect`,
`RunsShared.active_of_said`, `RunsShared.not_said`).
-/

namespace CargoStylus

open Rust Rust.Interaction Rust.Interaction.Prog

/-! ## The chain -/

/-- The transactions that were taken and their receipts by the hash, the codes of the accounts that
were created, and the hashes of the codes that are active. -/
structure ChainState where
  taken : B256 → Option TransactionRequest
  receipts : B256 → Option TransactionReceipt
  code : Address → Option Bytes
  active : Set B256

namespace ChainState

/-- The chain before any transaction. -/
def empty : ChainState where
  taken _ := none
  receipts _ := none
  code _ := none
  active := ∅

variable (s : ChainState)

/-- The transaction is taken under its hash. -/
def take (hash : B256) (tx : TransactionRequest) : ChainState :=
  { s with taken := Function.update s.taken hash (some tx) }

/-- The transaction has a receipt. -/
def withReceipt (hash : B256) (receipt : TransactionReceipt) : ChainState :=
  { s with receipts := Function.update s.receipts hash (some receipt) }

/-- There is code at the address. -/
def create (address : Address) (code : Bytes) : ChainState :=
  { s with code := Function.update s.code address (some code) }

/-- The code is active. -/
def activate (codehash : B256) : ChainState :=
  { s with active := insert codehash s.active }

end ChainState

/-- The transaction calls `activateProgram`. -/
def CallsActivate (tx : TransactionRequest) (program : Address) : Prop :=
  tx.kind = some (.call arbWasmAddress) ∧ tx.input = some (activateProgramCall program)

/-- The request tells what the chain has. -/
def NodeRequest.Tells : NodeRequest → Prop
  | node (.sendTransaction _) => True
  | node (.getReceipt _) => True
  | node _ => False
  | call tx => ∃ codehash, tx = codehashVersionTx codehash

section

variable (env : ChainEnv) (Lapses : B256 → Prop)

/-- What a transaction does when it is run. -/
inductive ChainEffect (s : ChainState) (tx : TransactionRequest) (receipt : TransactionReceipt) :
    ChainState → Prop
  | reverted (hstatus : receipt.status = false) : ChainEffect s tx receipt s
  /-- The init code is run, to its end if it has only instructions that are modelled. -/
  | created {init data : Bytes} {address : Address} (hstatus : receipt.status = true)
      (hkind : tx.kind = some .create) (hinput : tx.input = some init)
      (hruns : ∀ pcs halt, Evm.Executes init .initial pcs halt →
        halt = .returned data ∨ ∃ opcode, halt = .notModelled opcode)
      (hfree : s.code address = none) (haddress : receipt.contractAddress = some address) :
      ChainEffect s tx receipt (s.create address data)
  | activated {program : Address} {code : Bytes} (hstatus : receipt.status = true)
      (hactivates : CallsActivate tx program) (hcode : s.code program = some code) :
      ChainEffect s tx receipt (s.activate (env.keccak256 code))
  | called (hstatus : receipt.status = true) (hkind : tx.kind ≠ some .create)
      (hactivates : ∀ program, ¬CallsActivate tx program) : ChainEffect s tx receipt s

/-- What the chain does by itself : it takes a transaction of somebody else, runs one that was
taken, or a code becomes inactive. -/
inductive ChainWorks (s : ChainState) : ChainState → Prop
  | taken {hash : B256} {tx : TransactionRequest} (hfree : s.taken hash = none) :
      ChainWorks s (s.take hash tx)
  | mined {hash : B256} {tx : TransactionRequest} {receipt : TransactionReceipt} {t : ChainState}
      (htaken : s.taken hash = some tx) (hnone : s.receipts hash = none)
      (heffect : ChainEffect env s tx receipt t) : ChainWorks s (t.withReceipt hash receipt)
  /-- The contracts that are run may create others and activate them. The code of an account
  stays. -/
  | grown {t : ChainState} (htaken : t.taken = s.taken) (hreceipts : t.receipts = s.receipts)
      (hcode : ∀ address code, s.code address = some code → t.code address = some code)
      (hactive : s.active ⊆ t.active) : ChainWorks s t
  | lapsed {codehash : B256} (h : Lapses codehash) :
      ChainWorks s { s with active := s.active \ {codehash} }

/-- What a response means. -/
inductive ChainResponds (s : ChainState) : NodeEntry → ChainState → Prop
  | sent {hash : B256} {tx : TransactionRequest} (hfree : s.taken hash = none) :
      ChainResponds s ⟨.node (.sendTransaction tx), .ok hash⟩ (s.take hash tx)
  | receipt {hash : B256} {receipt : TransactionReceipt} (h : s.receipts hash = some receipt) :
      ChainResponds s ⟨.node (.getReceipt hash), .ok receipt⟩ s
  /-- There is a version for a code exactly if it is active. -/
  | version {codehash : B256} {response : Except String (Except ErrorPayload Bytes)}
      (h : ∀ active, Chain.Answers env response active → (active = true ↔ codehash ∈ s.active)) :
      ChainResponds s ⟨.call (codehashVersionTx codehash), response⟩ s
  | fails {r : NodeRequest} {e : String} : ChainResponds s ⟨r, .error e⟩ s
  | asked {r : NodeRequest} {x : r.Response} (h : ¬r.Tells) : ChainResponds s ⟨r, .ok x⟩ s

/-- The chain, as the service that all commands and users share. -/
def chainService : Service NodeRequest NodeRequest.Response String ChainState where
  responds := ChainResponds env
  works := ChainWorks env Lapses

end

/-! ## What the chain keeps -/

/-- What is on the chain stays there, but a code that lapses may become inactive. -/
structure ChainState.Extends (Lapses : B256 → Prop) (s t : ChainState) : Prop where
  taken : ∀ hash tx, s.taken hash = some tx → t.taken hash = some tx
  receipts : ∀ hash receipt, s.receipts hash = some receipt → t.receipts hash = some receipt
  code : ∀ address code, s.code address = some code → t.code address = some code
  active : ∀ codehash ∈ s.active, ¬Lapses codehash → codehash ∈ t.active

variable {env : ChainEnv} {Lapses : B256 → Prop} {s t u : ChainState} {tx : TransactionRequest}
  {receipt : TransactionReceipt}

theorem update_eq_some_of_none {α β : Type} [DecidableEq α] {f : α → Option β} {a : α} {b : β}
    (hnone : f a = none) (a' : α) (b' : β) (h : f a' = some b') :
    Function.update f a (some b) a' = some b' := by
  have hne : a' ≠ a := by
    rintro rfl
    exact Option.some_ne_none b' (h.symm.trans hnone)
  rwa [Function.update_of_ne hne]

namespace ChainState

theorem Extends.refl (s : ChainState) : s.Extends Lapses s where
  taken _ _ h := h
  receipts _ _ h := h
  code _ _ h := h
  active _ h _ := h

/-- Chains extend each other one after the other. -/
theorem Extends.trans (h : s.Extends Lapses t) (h' : t.Extends Lapses u) : s.Extends Lapses u where
  taken hash tx htx := h'.taken hash tx (h.taken hash tx htx)
  receipts hash receipt hreceipt := h'.receipts hash receipt (h.receipts hash receipt hreceipt)
  code address code hcode := h'.code address code (h.code address code hcode)
  active codehash hactive hstays :=
    h'.active codehash (h.active codehash hactive hstays) hstays

theorem extends_take {hash : B256} (hfree : s.taken hash = none) :
    s.Extends Lapses (s.take hash tx) :=
  { Extends.refl s with taken := update_eq_some_of_none hfree }

theorem extends_withReceipt {hash : B256} (hnone : s.receipts hash = none) :
    s.Extends Lapses (s.withReceipt hash receipt) :=
  { Extends.refl s with receipts := update_eq_some_of_none hnone }

theorem receipts_withReceipt_eq_some {hash hash' : B256} {receipt' : TransactionReceipt}
    (h : (s.withReceipt hash receipt).receipts hash' = some receipt') :
    hash' = hash ∧ receipt' = receipt ∨ s.receipts hash' = some receipt' := by
  dsimp only [withReceipt] at h
  rcases eq_or_ne hash' hash with rfl | hne
  · rw [Function.update_self] at h
    exact .inl ⟨rfl, (Option.some.inj h).symm⟩
  · rw [Function.update_of_ne hne] at h
    exact .inr h

end ChainState

theorem ChainEffect.taken_eq (h : ChainEffect env s tx receipt t) :
    t.taken = s.taken ∧ t.receipts = s.receipts := by
  cases h with
  | reverted => exact ⟨rfl, rfl⟩
  | created => exact ⟨rfl, rfl⟩
  | activated => exact ⟨rfl, rfl⟩
  | called => exact ⟨rfl, rfl⟩

/-- A transaction that is mined takes nothing away. -/
theorem ChainEffect.extends (h : ChainEffect env s tx receipt t) : s.Extends Lapses t := by
  cases h with
  | reverted => exact .refl s
  | created _ _ _ _ hfree => exact { ChainState.Extends.refl s with
      code := update_eq_some_of_none hfree }
  | activated =>
    exact ⟨fun _ _ h => h, fun _ _ h => h, fun _ _ h => h,
      fun _ hactive _ => Set.mem_insert_of_mem _ hactive⟩
  | called => exact .refl s

/-- What the users of the chain do takes nothing away. -/
theorem ChainWorks.extends (h : ChainWorks env Lapses s t) : s.Extends Lapses t := by
  cases h with
  | taken hfree => exact ChainState.extends_take hfree
  | mined _ hnone heffect =>
    refine heffect.extends.trans (ChainState.extends_withReceipt ?_)
    rw [heffect.taken_eq.2, hnone]
  | grown htaken hreceipts hcode hactive =>
    exact ⟨fun _ _ h => htaken ▸ h, fun _ _ h => hreceipts ▸ h, hcode, fun _ h _ => hactive h⟩
  | lapsed hlapses =>
    refine ⟨fun _ _ h => h, fun _ _ h => h, fun _ _ h => h, fun codehash hactive hstays => ?_⟩
    exact ⟨hactive, fun heq => hstays (Set.mem_singleton_iff.1 heq ▸ hlapses)⟩

/-- A response takes nothing away. -/
theorem ChainResponds.extends {entry : NodeEntry} (h : ChainResponds env s entry t) :
    s.Extends Lapses t := by
  cases h with
  | sent hfree => exact ChainState.extends_take hfree
  | receipt => exact .refl s
  | version => exact .refl s
  | fails => exact .refl s
  | asked => exact .refl s

/-- Every history extends the chain. -/
theorem chainService_ascends : (chainService env Lapses).Ascends (ChainState.Extends Lapses) where
  refl := .refl
  trans := .trans
  works := ChainWorks.extends
  responds := ChainResponds.extends

/-- What a transaction that was not reverted has left on the chain. -/
structure TookEffect (env : ChainEnv) (Lapses : B256 → Prop) (s : ChainState)
    (tx : TransactionRequest) (receipt : TransactionReceipt) : Prop where
  created : tx.kind = some .create → ∃ init data address, tx.input = some init ∧
    receipt.contractAddress = some address ∧ s.code address = some data ∧
    ∀ pcs halt, Evm.Executes init .initial pcs halt →
      halt = .returned data ∨ ∃ opcode, halt = .notModelled opcode
  activated : ∀ program, CallsActivate tx program → ∃ code, s.code program = some code ∧
    (¬Lapses (env.keccak256 code) → env.keccak256 code ∈ s.active)

theorem TookEffect.mono (h : TookEffect env Lapses s tx receipt) (hext : s.Extends Lapses t) :
    TookEffect env Lapses t tx receipt where
  created hkind := by
    obtain ⟨init, data, address, hinput, haddress, hcode, hruns⟩ := h.created hkind
    exact ⟨init, data, address, hinput, haddress, hext.code _ _ hcode, hruns⟩
  activated program hactivates := by
    obtain ⟨code, hcode, hactive⟩ := h.activated program hactivates
    exact ⟨code, hext.code _ _ hcode, fun hstays => hext.active _ (hactive hstays) hstays⟩

theorem CallsActivate.not_create {program : Address} (h : CallsActivate tx program) :
    tx.kind ≠ some .create := by
  rw [h.1]
  exact nofun

theorem CallsActivate.unique {program program' : Address} (h : CallsActivate tx program)
    (h' : CallsActivate tx program') : program = program' := by
  have hinput := Option.some.inj (h.2.symm.trans h'.2)
  exact Subtype.ext (List.append_cancel_left hinput)

/-- A transaction that is mined and not reverted has had its effect. -/
theorem ChainEffect.tookEffect (h : ChainEffect env s tx receipt t)
    (hstatus : receipt.status = true) : TookEffect env Lapses t tx receipt := by
  cases h with
  | reverted hreverted => exact absurd (hreverted.symm.trans hstatus) Bool.false_ne_true
  | @created init data address _ hkind hinput hruns _ haddress =>
    refine ⟨fun _ => ⟨init, data, address, hinput, haddress, Function.update_self .., hruns⟩, ?_⟩
    exact fun program hactivates => absurd hkind hactivates.not_create
  | @activated program code _ hactivates hcode =>
    refine ⟨fun hkind => absurd hkind hactivates.not_create, fun program' hactivates' => ?_⟩
    obtain rfl := hactivates.unique hactivates'
    exact ⟨code, hcode, fun _ => Set.mem_insert _ _⟩
  | called _ hkind hactivates =>
    exact ⟨fun hcreate => absurd hcreate hkind, fun program h => absurd h (hactivates program)⟩

/-- Every receipt is of a transaction that was taken, and that took effect unless it was
reverted. -/
def ChainState.Consistent (env : ChainEnv) (Lapses : B256 → Prop) (s : ChainState) : Prop :=
  ∀ hash receipt, s.receipts hash = some receipt → ∃ tx, s.taken hash = some tx ∧
    (receipt.status = true → TookEffect env Lapses s tx receipt)

namespace ChainState

theorem consistent_empty (env : ChainEnv) (Lapses : B256 → Prop) :
    empty.Consistent env Lapses :=
  nofun

/-- Nothing is broken where there is no new receipt. -/
theorem Consistent.of_extends (h : s.Consistent env Lapses) (hext : s.Extends Lapses t)
    (hreceipts : t.receipts = s.receipts) : t.Consistent env Lapses := by
  intro hash receipt hreceipt
  obtain ⟨tx, htaken, heffect⟩ := h hash receipt (hreceipts ▸ hreceipt)
  exact ⟨tx, hext.taken _ _ htaken, fun hstatus => (heffect hstatus).mono hext⟩

theorem Consistent.works (h : s.Consistent env Lapses) (hworks : ChainWorks env Lapses s t) :
    t.Consistent env Lapses := by
  have hext := hworks.extends
  cases hworks with
  | taken => exact h.of_extends hext rfl
  | grown _ hreceipts => exact h.of_extends hext hreceipts
  | lapsed => exact h.of_extends hext rfl
  | @mined hash tx receipt t htaken hnone heffect =>
    have hnone' : t.receipts hash = none := heffect.taken_eq.2 ▸ hnone
    intro hash' receipt' hreceipt
    obtain ⟨rfl, rfl⟩ | hbefore := receipts_withReceipt_eq_some hreceipt
    · refine ⟨tx, hext.taken _ _ htaken, fun hstatus => ?_⟩
      exact (heffect.tookEffect hstatus).mono (extends_withReceipt hnone')
    · rw [heffect.taken_eq.2] at hbefore
      obtain ⟨tx', htaken', heffect'⟩ := h hash' receipt' hbefore
      exact ⟨tx', hext.taken _ _ htaken', fun hstatus => (heffect' hstatus).mono hext⟩

theorem Consistent.responds {entry : NodeEntry} (h : s.Consistent env Lapses)
    (hresponds : ChainResponds env s entry t) : t.Consistent env Lapses := by
  refine h.of_extends hresponds.extends ?_
  cases hresponds with
  | _ => rfl

/-- Receipts are true of the chain after every history. -/
theorem Consistent.history {whole : NodeLog} (h : s.Consistent env Lapses)
    (hhistory : (chainService env Lapses).History s whole t) : t.Consistent env Lapses :=
  hhistory.invariant h ⟨fun _ _ h hworks => h.works hworks, fun _ _ _ _ h hresponds =>
    h.responds hresponds⟩

end ChainState

/-- The transaction was taken, and the receipt is of it. -/
def Receipted (log : RpcLog) (tx : TransactionRequest) (receipt : TransactionReceipt) : Prop :=
  ∃ hash, ⟨.sendTransaction tx, .ok hash⟩ ∈ log ∧ ⟨.getReceipt hash, .ok receipt⟩ ∈ log

theorem Receipted.mono {log log' : RpcLog} (h : Receipted log tx receipt) (hsub : log ⊆ log') :
    Receipted log' tx receipt := by
  obtain ⟨hash, hsent, hreceipt⟩ := h
  exact ⟨hash, hsub hsent, hsub hreceipt⟩

/-! ## What a response tells -/

theorem codehashVersionTx_inj {codehash codehash' : B256}
    (h : codehashVersionTx codehash = codehashVersionTx codehash') : codehash = codehash' := by
  have hinput := Option.some.inj (congrArg TransactionRequest.input h)
  exact Subtype.ext (List.append_cancel_left hinput)

theorem ChainResponds.taken_eq {hash : B256}
    (h : ChainResponds env s ⟨.node (.sendTransaction tx), .ok hash⟩ t) :
    t.taken hash = some tx := by
  cases h with
  | sent => exact Function.update_self ..
  | asked htells => exact absurd trivial htells

theorem ChainResponds.receipts_eq {hash : B256}
    (h : ChainResponds env s ⟨.node (.getReceipt hash), .ok receipt⟩ t) :
    t.receipts hash = some receipt := by
  cases h with
  | receipt hreceipt => exact hreceipt
  | asked htells => exact absurd trivial htells

/-- The node says that a code is active exactly if it is. -/
theorem ChainResponds.active_iff {codehash : B256} {active : Bool}
    {response : Except String (Except ErrorPayload Bytes)} (htx : tx = codehashVersionTx codehash)
    (hanswers : Chain.Answers env response active)
    (h : ChainResponds env s ⟨.call tx, response⟩ t) :
    t = s ∧ (active = true ↔ codehash ∈ s.active) := by
  cases h with
  | version hversion =>
    obtain rfl := codehashVersionTx_inj htx
    exact ⟨rfl, hversion active hanswers⟩
  | fails =>
    rcases active with _ | _
    · obtain ⟨err, -, payload, data, hresponse, -⟩ := hanswers
      cases hresponse
    · obtain ⟨returned, hresponse⟩ := hanswers
      cases hresponse
  | asked htells => exact absurd ⟨codehash, htx⟩ htells

namespace Chain

/-! ## Runs on the chain -/

/-- A run while others use the chain, from one state of it to another. -/
def RunsShared (env : ChainEnv) (Lapses : B256 → Prop) (s t : ChainState) (p : NodeRpc Unit)
    (log : NodeLog) (o : Outcome String Unit) : Prop :=
  Runs p log o ∧ ∃ logs whole, log ∈ logs ∧ Interleaves logs whole ∧
    (chainService env Lapses).History s whole t

/-- The code is at the address, and active if it does not lapse. -/
structure Live (env : ChainEnv) (Lapses : B256 → Prop) (s : ChainState) (code : Bytes)
    (address : Address) : Prop where
  created : s.code address = some code
  active : ¬Lapses (env.keccak256 code) → env.keccak256 code ∈ s.active

variable {p : NodeRpc Unit} {log : NodeLog} {o : Outcome String Unit}

theorem RunsShared.responds (h : RunsShared env Lapses s t p log o) {entry : NodeEntry}
    (hentry : entry ∈ log) : ∃ u v, ChainResponds env u entry v ∧ v.Extends Lapses t := by
  obtain ⟨-, logs, whole, hlog, hwhole, hhistory⟩ := h
  exact chainService_ascends.responds_of_mem hhistory (hwhole.mem_iff.2 ⟨log, hlog, hentry⟩)

/-- A receipt in the run means what it says. -/
theorem RunsShared.tookEffect (h : RunsShared env Lapses s t p log o)
    (hs : s.Consistent env Lapses) (hreceipted : Receipted (nodeLog log) tx receipt)
    (hstatus : receipt.status = true) : TookEffect env Lapses t tx receipt := by
  obtain ⟨hash, hsent, hreceipt⟩ := hreceipted
  obtain ⟨u, v, htaken, hv⟩ := h.responds (mem_of_mem_nodeLog hsent)
  obtain ⟨u', v', hreceipts, hv'⟩ := h.responds (mem_of_mem_nodeLog hreceipt)
  obtain ⟨-, logs, whole, -, -, hhistory⟩ := h
  obtain ⟨tx', htx', heffect⟩ :=
    hs.history hhistory hash receipt (hv'.receipts _ _ hreceipts.receipts_eq)
  obtain rfl := Option.some.inj ((hv.taken _ _ htaken.taken_eq).symm.trans htx')
  exact heffect hstatus

/-- What ArbWasm has said in the run stays so, if the code does not lapse. -/
theorem RunsShared.active_of_said (h : RunsShared env Lapses s t p log o) {code : Bytes}
    (hsaid : Said env code true log) (hstays : ¬Lapses (env.keccak256 code)) :
    env.keccak256 code ∈ t.active := by
  obtain ⟨response, hanswers, hmem⟩ := hsaid
  obtain ⟨u, v, hresponds, hv⟩ := h.responds hmem
  obtain ⟨rfl, hactive⟩ := hresponds.active_iff rfl hanswers
  exact hv.active _ (hactive.1 rfl) hstays

/-- The responses of ArbWasm are read in the same way. -/
structure SameChain (env env' : ChainEnv) : Prop where
  keccak256 : env'.keccak256 = env.keccak256
  decodeArbWasmErrors : env'.decodeArbWasmErrors = env.decodeArbWasmErrors

/-- Nobody is told that a code is not active, if it is and does not lapse. -/
theorem RunsShared.not_said {env' : ChainEnv} {code : Bytes}
    (h : RunsShared env Lapses s t p log o) (hsame : SameChain env env')
    (hactive : env.keccak256 code ∈ s.active) (hstays : ¬Lapses (env.keccak256 code)) :
    ¬Said env' code false log := by
  rintro ⟨response, ⟨err, herr, hreverts⟩, hmem⟩
  obtain ⟨-, logs, whole, hlog, hwhole, hhistory⟩ := h
  rw [hsame.decodeArbWasmErrors] at hreverts
  rw [hsame.keccak256] at hmem
  have hkeeps : (chainService env Lapses).Keeps (fun u => env.keccak256 code ∈ u.active) whole :=
    ⟨fun u v hu hworks => (ChainWorks.extends hworks).active _ hu hstays,
      fun _ _ u v hu hresponds => (ChainResponds.extends hresponds).active _ hu hstays⟩
  obtain ⟨u, v, hu, hresponds⟩ :=
    hhistory.responds_of_mem hactive hkeeps (hwhole.mem_iff.2 ⟨log, hlog, hmem⟩)
  have hanswers : Answers env response false := ⟨err, herr, hreverts⟩
  exact absurd ((ChainResponds.active_iff rfl hanswers hresponds).2.2 hu) Bool.false_ne_true

end Chain

end CargoStylus
