import CargoStylus.DeployRun

/-!
# Which contract reports the address

The address of a new contract is in an event that the deployer emits, and it is read from the
first event of that kind in the receipt. The receipt has the events of every contract that ran,
and which of them emitted the event is not looked at. So the address depends only on the events
of the deployer exactly if the first event of that kind is the deployer's own, or says the same
(`reported_iff`).
-/

namespace CargoStylus

open Rust

/-- An event, and the contract that emitted it. -/
structure EmittedLog extends EventLog where
  address : Address
deriving DecidableEq

namespace EmittedLog

/-- The event is a `ContractDeployed`, as far as its signature says. -/
def IsAnnouncement (log : EmittedLog) : Prop :=
  ∃ topic ∈ log.topics.head?, topic.1 = contractDeployedSignatureHash

instance (log : EmittedLog) : Decidable log.IsAnnouncement := by
  unfold IsAnnouncement
  infer_instance

/-- The address in the data of an event. -/
def announced (log : EmittedLog) : Option Address :=
  if h : log.data.length = 32 then some ⟨log.data.drop 12, length_addressOfWord h⟩ else none

end EmittedLog

/-- What is read from a receipt with these events. -/
def reported (receipt : TransactionReceipt) (logs : List EmittedLog) : Outcome String Address :=
  getAddressFromReceipt { receipt with logs := logs.map EmittedLog.toEventLog }

/-- The same address, or both an error. -/
def SameResult (o o' : Outcome String Address) : Prop :=
  (∃ address, o = .ok address ∧ o' = .ok address) ∨ o.IsErr ∧ o'.IsErr

/-- The events of one contract. -/
def emittedBy (deployer : Address) (logs : List EmittedLog) : List EmittedLog :=
  logs.filter fun log => log.address = deployer

/-- The address in the first announcement. -/
def firstAnnounced (logs : List EmittedLog) : Option Address :=
  (logs.find? fun log => log.IsAnnouncement).bind EmittedLog.announced

variable {receipt receipt' : TransactionReceipt} {deployer : Address} {log : EmittedLog}
  {logs logs' : List EmittedLog}

theorem getAddressFromLogs_cons_of_not (h : ¬log.IsAnnouncement) (rest : List EventLog) :
    getAddressFromLogs (log.toEventLog :: rest) = getAddressFromLogs rest := by
  rw [getAddressFromLogs]
  rcases htopics : log.topics with _ | ⟨topic, topics⟩
  · rfl
  · exact if_neg fun hsignature => h ⟨topic, by simp [htopics], hsignature⟩

theorem getAddressFromLogs_cons_of_isAnnouncement (h : log.IsAnnouncement)
    (rest : List EventLog) :
    getAddressFromLogs (log.toEventLog :: rest) =
      .ofOption "address missing from ContractDeployed log" log.announced := by
  obtain ⟨topic, htopic, hsignature⟩ := h
  rcases htopics : log.topics with _ | ⟨first, topics⟩
  · simp [htopics] at htopic
  · obtain rfl : first = topic := by simpa [htopics] using htopic
    simp only [getAddressFromLogs, htopics, hsignature, if_true, EmittedLog.announced]
    split_ifs
    · rfl
    · rfl

/-- The first announcement is what is read. -/
theorem reported_eq (receipt : TransactionReceipt) : ∀ logs : List EmittedLog,
    (∃ address, firstAnnounced logs = some address ∧ reported receipt logs = .ok address) ∨
      firstAnnounced logs = none ∧ (reported receipt logs).IsErr
  | [] => .inr ⟨rfl, "contract address not found in receipt", rfl⟩
  | log :: logs => by
    by_cases h : log.IsAnnouncement
    · have hfirst : firstAnnounced (log :: logs) = log.announced := by
        simp [firstAnnounced, h]
      have hreported := getAddressFromLogs_cons_of_isAnnouncement h
        (logs.map EmittedLog.toEventLog)
      rw [hfirst, reported, getAddressFromReceipt, List.map_cons, hreported]
      rcases log.announced with _ | address
      · exact .inr ⟨rfl, _, rfl⟩
      · exact .inl ⟨address, rfl, rfl⟩
    · have hfirst : firstAnnounced (log :: logs) = firstAnnounced logs := by
        simp [firstAnnounced, h]
      have hreported := getAddressFromLogs_cons_of_not h (logs.map EmittedLog.toEventLog)
      rw [hfirst, reported, getAddressFromReceipt, List.map_cons, hreported]
      exact reported_eq receipt logs

theorem sameResult_iff : SameResult (reported receipt logs) (reported receipt' logs') ↔
    firstAnnounced logs = firstAnnounced logs' := by
  rcases reported_eq receipt logs with ⟨a, hfirst, ha⟩ | ⟨hfirst, e, he⟩ <;>
    rcases reported_eq receipt' logs' with ⟨b, hfirst', hb⟩ | ⟨hfirst', e', he'⟩
  · simp [SameResult, hfirst, hfirst', ha, hb, eq_comm]
  · simp [SameResult, hfirst, hfirst', ha, he']
  · simp [SameResult, hfirst, hfirst', he, hb]
  · simp [SameResult, hfirst, hfirst', he, he']

/-- The first announcement, if there is one, is the deployer's own or says the same as the first
of the deployer. -/
def Genuine (deployer : Address) (logs : List EmittedLog) : Prop :=
  ∀ log, (logs.find? fun log => log.IsAnnouncement) = some log → log.address ≠ deployer →
    log.announced = firstAnnounced (emittedBy deployer logs)

/-- Where the first announcement is the deployer's, it is the first of the deployer's. -/
theorem firstAnnounced_emittedBy
    (hfirst : (logs.find? fun log => log.IsAnnouncement) = some log)
    (haddress : log.address = deployer) :
    firstAnnounced (emittedBy deployer logs) = log.announced := by
  obtain ⟨hlog, before, after, rfl, hbefore⟩ := List.find?_eq_some_iff_append.1 hfirst
  have hnone : ((emittedBy deployer before).find? fun log => log.IsAnnouncement) = none := by
    refine List.find?_eq_none.2 fun l hl => ?_
    simpa using hbefore l (List.mem_filter.1 hl).1
  have hsplit : emittedBy deployer (before ++ log :: after) =
      emittedBy deployer before ++ log :: emittedBy deployer after := by
    simp [emittedBy, haddress]
  have hcons : ((log :: emittedBy deployer after).find? fun log => log.IsAnnouncement) = some log :=
    List.find?_cons_of_pos hlog
  rw [firstAnnounced, hsplit, List.find?_append, hnone, Option.none_or, hcons, Option.bind_some]

theorem firstAnnounced_eq_iff :
    firstAnnounced logs = firstAnnounced (emittedBy deployer logs) ↔ Genuine deployer logs := by
  rcases hfirst : logs.find? fun log => log.IsAnnouncement with _ | log
  · have hnone : firstAnnounced (emittedBy deployer logs) = none := by
      have hfind : ((emittedBy deployer logs).find? fun log => log.IsAnnouncement) = none :=
        List.find?_eq_none.2 fun l hl => List.find?_eq_none.1 hfirst l (List.mem_filter.1 hl).1
      rw [firstAnnounced, hfind, Option.bind_none]
    refine iff_of_true ?_ (by simp [Genuine, hfirst])
    rw [hnone, firstAnnounced, hfirst, Option.bind_none]
  · have hlog : firstAnnounced logs = log.announced := by
      rw [firstAnnounced, hfirst, Option.bind_some]
    rw [hlog]
    refine ⟨fun h l hl _ => ?_, fun h => ?_⟩
    · obtain rfl := Option.some.inj (hfirst.symm.trans hl)
      exact h
    · by_cases haddress : log.address = deployer
      · exact (firstAnnounced_emittedBy hfirst haddress).symm
      · exact h log hfirst haddress

/-- What is read depends on the events of the deployer alone exactly if the first announcement
is genuine, and so two such receipts with the same events of the deployer are read alike. -/
theorem reported_iff (deployer : Address) (receipt receipt' : TransactionReceipt) :
    (∀ logs, SameResult (reported receipt logs) (reported receipt' (emittedBy deployer logs)) ↔
      Genuine deployer logs) ∧
    ∀ logs logs', emittedBy deployer logs = emittedBy deployer logs' → Genuine deployer logs →
      Genuine deployer logs' → SameResult (reported receipt logs) (reported receipt' logs') := by
  refine ⟨fun logs => sameResult_iff.trans firstAnnounced_eq_iff, fun logs logs' hsame h h' => ?_⟩
  rw [sameResult_iff, firstAnnounced_eq_iff.2 h, firstAnnounced_eq_iff.2 h', hsame]

/-- The event that `emitter` emits to announce `address`. -/
def announcement (emitter address : Address) : EmittedLog where
  topics := [⟨contractDeployedSignatureHash, length_contractDeployedSignatureHash⟩]
  data := List.replicate 12 0 ++ address.1
  address := emitter

/-- A constructor that emits a look-alike before the deployer emits its event. -/
theorem lookAlike_not_sameResult :
    ¬∀ (receipt : TransactionReceipt) (deployer : Address) (logs logs' : List EmittedLog),
      emittedBy deployer logs = emittedBy deployer logs' →
      SameResult (reported receipt logs) (reported receipt logs') := by
  intro h
  have hsame := h ⟨true, none, []⟩ (filled 20 1) [announcement (filled 20 1) (filled 20 2)]
    [announcement (filled 20 3) (filled 20 4), announcement (filled 20 1) (filled 20 2)] rfl
  rw [sameResult_iff] at hsame
  exact absurd hsame (by decide)

end CargoStylus
