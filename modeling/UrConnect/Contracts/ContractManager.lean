import UrConnect.Lib.Runs
import UrConnect.Contracts.ContractQueue

/-! The calls of the contract manager, each of which holds a queue from one locked section to the next. -/

namespace UrConnect.Contracts

open Lib.Tally Lib.Runs ContractQueue

inductive Body
  | takeContract
  | addContract (contract : StoredContract)
  | createContract
  | flushContractQueue (resetUsedContractIds : Bool)
  | removeUsedContract (contractId : Id)
deriving DecidableEq

/-- A call that waits has polled in vain: it may poll again or give up. -/
inductive Stage
  | entered
  | waiting
  | finished
deriving DecidableEq

structure Call (κ : Type) where
  contractKey : κ
  queue : ℕ
  body : Body
  stage : Stage
deriving DecidableEq

/-- A queue is an object of its own: the map and the calls refer to it by its number. The last three fields record
what was added, other than updates, returned by `TakeContract` and passed to `closeContracts`. -/
structure ContractManager (κ : Type) where
  destinationContracts : AList fun _ : κ => ℕ
  queues : ℕ → ContractQueue
  queueCount : ℕ
  calls : List (Call κ)
  added : List StoredContract
  returned : List StoredContract
  closed : List StoredContract

structure Env where
  now : ℤ
  nowMilli : ℤ
  minEnqueueTime : Option ℤ
  pick : ℕ

inductive Event (κ : Type)
  | enter (contractKey : κ) (body : Body)
  | act (call : ℕ) (env : Env)
  | leave (call : ℕ)
  | flush (resetUsedContractIds : Bool)
  | expire (minEnqueueTime : Option ℤ) (nowMilli : κ → ℤ)

namespace ContractManager

variable {κ : Type} [DecidableEq κ] (s : ContractManager κ)

def new : ContractManager κ := ⟨∅, fun _ => newContractQueue false, 0, [], [], [], []⟩

def setQueue (q : ℕ) (queue : ContractQueue) : ContractManager κ := { s with queues := Function.update s.queues q queue }

def openContractQueue (contractKey : κ) : ContractManager κ × ℕ :=
  match s.destinationContracts.lookup contractKey with
  | some q => (s.setQueue q (s.queues q).opened, q)
  | none =>
    ({ s.setQueue s.queueCount (newContractQueue false).opened with
        destinationContracts := s.destinationContracts.insert contractKey s.queueCount
        queueCount := s.queueCount + 1 }, s.queueCount)

def closeContractQueueWithForceRemove (contractKey : κ) (forceRemove : Bool) : ContractManager κ :=
  match s.destinationContracts.lookup contractKey with
  | some q =>
    let queue := (s.queues q).closed
    let s := s.setQueue q queue
    if queue.isDone || forceRemove then { s with destinationContracts := s.destinationContracts.erase contractKey }
    else s
  | none => s

def firstStage : Body → Stage
  | .createContract => .finished
  | _ => .entered

def body (call : Call κ) (env : Env) : ContractManager κ × Stage :=
  let queue := s.queues call.queue
  match call.body with
  | .takeContract =>
    let (queue, contract, expired) := queue.poll env.minEnqueueTime env.nowMilli env.pick
    ({ s.setQueue call.queue queue with returned := s.returned ++ contract.toList, closed := s.closed ++ expired },
      if contract.isSome then .finished else .waiting)
  | .addContract contract =>
    match queue.add env.now contract, idFromBytes contract.contractId with
    | .ok queue', .ok contractId =>
      ({ s.setQueue call.queue queue' with
          added := if contractId ∈ queue.contracts then s.added else s.added ++ [contract] }, .finished)
    | _, _ => (s, .finished)
  | .createContract => (s, .finished)
  | .flushContractQueue resetUsedContractIds =>
    let (queue, contracts) := queue.flush resetUsedContractIds
    ({ s.setQueue call.queue queue with closed := s.closed ++ contracts }, .finished)
  | .removeUsedContract contractId => (s.setQueue call.queue (queue.removeUsedContract contractId), .finished)

def visit (drain : κ → ContractQueue → ContractQueue × List StoredContract) (entry : (_ : κ) × ℕ) : ContractManager κ :=
  let (queue, contracts) := drain entry.1 (s.queues entry.2)
  let s := { s.setQueue entry.2 queue with closed := s.closed ++ contracts }
  if queue.isDone then { s with destinationContracts := s.destinationContracts.erase entry.1 } else s

def sweep (drain : κ → ContractQueue → ContractQueue × List StoredContract) : ContractManager κ :=
  s.destinationContracts.entries.foldl (fun s e => s.visit drain e) s

def flush (resetUsedContractIds : Bool) : ContractManager κ := s.sweep fun _ queue => queue.flush resetUsedContractIds

def expireQueuedContracts (minEnqueueTime : Option ℤ) (nowMilli : κ → ℤ) : ContractManager κ :=
  s.sweep fun contractKey queue => queue.expireWithLockAt minEnqueueTime (nowMilli contractKey)

def forceRemoves : Body → Bool
  | .flushContractQueue _ => true
  | _ => false

def step : Event κ → ContractManager κ
  | .enter contractKey body =>
    let (s, q) := s.openContractQueue contractKey
    { s with calls := s.calls ++ [⟨contractKey, q, body, firstStage body⟩] }
  | .act i env =>
    match s.calls[i]? with
    | some call =>
      if call.stage = .finished then s
      else
        let (s, stage) := s.body call env
        { s with calls := s.calls.set i { call with stage := stage } }
    | none => s
  | .leave i =>
    match s.calls[i]? with
    | some call =>
      if call.stage = .entered then s
      else
        let s := s.closeContractQueueWithForceRemove call.contractKey (forceRemoves call.body)
        { s with calls := s.calls.eraseIdx i }
    | none => s
  | .flush resetUsedContractIds => s.flush resetUsedContractIds
  | .expire minEnqueueTime nowMilli => s.expireQueuedContracts minEnqueueTime nowMilli

def present (contractId : Id) : ℕ := total (fun q => (s.queues q).held contractId) s.destinationContracts

end ContractManager

end UrConnect.Contracts
