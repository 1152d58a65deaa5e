import UrConnect.Base
import UrConnect.Lib.Tally

/-! The queue of the contracts of one key. -/

namespace UrConnect.Contracts

open Lib.Tally

structure StoredContract where
  contractId : List UInt8
  expirationTimeUnixMilli : Option ℤ
deriving DecidableEq

structure QueuedContract where
  contract : StoredContract
  enqueueTime : ℤ
  expirationTimeUnixMilli : Option ℤ
deriving DecidableEq

def contractExpiredAt (deadline : Option ℤ) (nowUnixMilli : ℤ) : Bool := deadline.any (· ≤ nowUnixMilli)

structure ContractQueue where
  openCount : ℤ
  contracts : AList fun _ : Id => QueuedContract
  trackUsedContracts : Bool
  usedContractIds : List Id

def newContractQueue (trackUsedContracts : Bool) : ContractQueue := ⟨0, ∅, trackUsedContracts, []⟩

namespace ContractQueue

variable (q : ContractQueue)

def opened : ContractQueue := { q with openCount := q.openCount + 1 }

def closed : ContractQueue := { q with openCount := q.openCount - 1 }

def stale (minEnqueueTime : Option ℤ) (nowMilli : ℤ) (qc : QueuedContract) : Bool :=
  minEnqueueTime.any (qc.enqueueTime < ·) || contractExpiredAt qc.expirationTimeUnixMilli nowMilli

def listed (contracts : AList fun _ : Id => QueuedContract) : List StoredContract :=
  contracts.entries.map (·.2.contract)

def expireWithLockAt (minEnqueueTime : Option ℤ) (nowMilli : ℤ) : ContractQueue × List StoredContract :=
  ({ q with contracts := keep (fun qc => !stale minEnqueueTime nowMilli qc) q.contracts },
    listed (keep (stale minEnqueueTime nowMilli) q.contracts))

/-- The choice among the queued contracts is arbitrary: `pick` makes it. -/
def poll (minEnqueueTime : Option ℤ) (nowMilli : ℤ) (pick : ℕ) :
    ContractQueue × Option StoredContract × List StoredContract :=
  let (q, expired) := q.expireWithLockAt minEnqueueTime nowMilli
  match q.contracts.entries[pick % q.contracts.entries.length]? with
  | some ⟨contractId, qc⟩ => ({ q with contracts := q.contracts.erase contractId }, some qc.contract, expired)
  | none => (q, none, expired)

def add (now : ℤ) (storedContract : StoredContract) : Except Fault ContractQueue := do
  let contractId ← idFromBytes storedContract.contractId
  let qc : QueuedContract := ⟨storedContract, now, storedContract.expirationTimeUnixMilli⟩
  if contractId ∈ q.contracts then
    .ok { q with contracts := q.contracts.insert contractId qc }
  else if !q.trackUsedContracts || contractId ∉ q.usedContractIds then
    let used := if q.trackUsedContracts then contractId :: q.usedContractIds else q.usedContractIds
    .ok { q with contracts := q.contracts.insert contractId qc, usedContractIds := used }
  else .ok q

def removeUsedContract (contractId : Id) : ContractQueue :=
  { q with usedContractIds := q.usedContractIds.filter (· ≠ contractId) }

def flush (removeUsedContractIds : Bool) : ContractQueue × List StoredContract :=
  ({ q with
      contracts := ∅
      usedContractIds := if removeUsedContractIds then [] else q.usedContractIds },
    listed q.contracts)

def isDone : Bool := q.openCount ≤ 0 && q.contracts.entries.isEmpty && q.usedContractIds.isEmpty

def named (contractId : Id) (c : StoredContract) : Bool := c.contractId = contractId.bytes

def held (contractId : Id) : ℕ := (listed q.contracts).countP (named contractId)

def Keyed : Prop := ∀ contractId qc, q.contracts.lookup contractId = some qc → named contractId qc.contract

variable {q} {q' : ContractQueue} {out : List StoredContract} {contractId : Id}

structure Drains (q q' : ContractQueue) (out : List StoredContract) : Prop where
  openCount : q'.openCount = q.openCount
  track : q'.trackUsedContracts = q.trackUsedContracts
  keyed : q.Keyed → q'.Keyed
  conserves : ∀ contractId, q'.held contractId + out.countP (named contractId) = q.held contractId

lemma lookup_keep {p : QueuedContract → Bool} {qc : QueuedContract} {m : AList fun _ : Id => QueuedContract}
    (h : (keep p m).lookup contractId = some qc) : m.lookup contractId = some qc :=
  AList.mem_lookup_iff.mpr (List.mem_of_mem_filter (AList.mem_lookup_iff.mp h))

lemma expireWithLockAt_drains (minEnqueueTime : Option ℤ) (nowMilli : ℤ) :
    q.Drains (q.expireWithLockAt minEnqueueTime nowMilli).1 (q.expireWithLockAt minEnqueueTime nowMilli).2 where
  openCount := rfl
  track := rfl
  keyed h contractId qc hqc := h contractId qc (lookup_keep hqc)
  conserves contractId := by
    simp only [expireWithLockAt, held, listed, keep, List.countP_map]
    rw [List.countP_eq_countP_filter_add q.contracts.entries _ fun e => stale minEnqueueTime nowMilli e.2, add_comm]

lemma flush_drains (removeUsedContractIds : Bool) :
    q.Drains (q.flush removeUsedContractIds).1 (q.flush removeUsedContractIds).2 where
  openCount := rfl
  track := rfl
  keyed _ _ _ h := by cases h
  conserves contractId := Nat.zero_add _

lemma poll_drains (minEnqueueTime : Option ℤ) (nowMilli : ℤ) (pick : ℕ) :
    q.Drains (q.poll minEnqueueTime nowMilli pick).1
      ((q.poll minEnqueueTime nowMilli pick).2.1.toList ++ (q.poll minEnqueueTime nowMilli pick).2.2) := by
  obtain ⟨hopen, htrack, hkeyed, hconserves⟩ := q.expireWithLockAt_drains minEnqueueTime nowMilli
  rw [poll]
  generalize q.expireWithLockAt minEnqueueTime nowMilli = r at *
  obtain ⟨rest, expired⟩ := r
  dsimp only at *
  split
  · rename_i contractId qc hpick
    have hlookup : rest.contracts.lookup contractId = some qc :=
      AList.mem_lookup_iff.mpr (List.mem_of_getElem? hpick)
    refine ⟨hopen, htrack, ?_, ?_⟩
    · intro h id other hother
      apply hkeyed h
      exact AList.mem_lookup_iff.mpr ((List.kerase_sublist _ _).subset (AList.mem_lookup_iff.mp hother))
    · intro id
      rw [← hconserves id, held, held, listed, listed, ((perm_cons_erase hlookup).map _).countP_eq, List.map_cons,
        List.countP_append, List.countP_cons, Option.toList_some, List.countP_singleton]
      dsimp only
      omega
  · exact ⟨hopen, htrack, hkeyed, hconserves⟩

lemma countP_insert (hkeyed : q.Keyed) {qc : QueuedContract} (hqc : named contractId qc.contract) (id : Id) :
    (listed (q.contracts.insert contractId qc)).countP (named id) =
      q.held id + if contractId ∈ q.contracts then 0 else [qc.contract].countP (named id) := by
  rw [held, listed, listed]
  split
  · rename_i hmem
    obtain ⟨old, hold⟩ := Option.isSome_iff_exists.mp (AList.lookup_isSome.mpr hmem)
    have hsame : named id old.contract = named id qc.contract := by
      rw [named, named, of_decide_eq_true hqc, of_decide_eq_true (hkeyed contractId old hold)]
    rw [AList.entries_insert, ((perm_cons_erase hold).map _).countP_eq, List.map_cons, List.map_cons,
      List.countP_cons, List.countP_cons, hsame]
    rfl
  · rename_i hmem
    rw [AList.entries_insert_of_notMem hmem, List.map_cons, List.countP_cons, List.countP_singleton]

lemma keyed_insert (hkeyed : q.Keyed) {qc : QueuedContract} (hqc : named contractId qc.contract) {id : Id}
    {other : QueuedContract} (h : (q.contracts.insert contractId qc).lookup id = some other) :
    named id other.contract := by
  by_cases hne : id = contractId
  · subst hne
    rw [AList.lookup_insert] at h
    cases h
    exact hqc
  · rw [AList.lookup_insert_ne hne] at h
    exact hkeyed id other h

lemma add_spec (now : ℤ) {c : StoredContract} (hkeyed : q.Keyed) (htrack : q.trackUsedContracts = false)
    (hid : idFromBytes c.contractId = .ok contractId) :
    ∃ q', q.add now c = .ok q' ∧ q'.openCount = q.openCount ∧ q'.trackUsedContracts = false ∧ q'.Keyed ∧
      ∀ id, q'.held id = q.held id + if contractId ∈ q.contracts then 0 else [c].countP (named id) := by
  have hqc : named contractId c := decide_eq_true (idFromBytes_ok hid)
  rw [add, hid]
  simp only [bind, Except.bind, htrack, Bool.not_false, Bool.true_or, if_true]
  split
  · rename_i hmem
    refine ⟨_, rfl, rfl, rfl, fun id other h => keyed_insert hkeyed hqc h, fun id => ?_⟩
    rw [held, countP_insert hkeyed hqc, if_pos hmem]
  · rename_i hmem
    refine ⟨_, rfl, rfl, rfl, fun id other h => keyed_insert hkeyed hqc h, fun id => ?_⟩
    rw [held, countP_insert hkeyed hqc, if_neg hmem]

end ContractQueue

end UrConnect.Contracts
