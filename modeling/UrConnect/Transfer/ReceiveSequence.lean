import UrConnect.Transfer.AckWindow
import UrConnect.Transfer.Contract
import UrConnect.Transfer.Queue

/-! The receive half of a transfer sequence: contracts, the out-of-order hold, delivery and acks.
The state keeps a history of what the sequence did, the latest entry first. -/

namespace UrConnect.Transfer

structure ReceiveItem where
  messageId : Id
  sequenceNumber : ℕ
  messageByteCount : ℤ
  contractId : Option Id
  receiveTime : ℤ
  frames : List Frame
  contractFrame : Option ContractFrame
  tag : Option Tag
  head : Bool
  ack : Bool
  unwrapped : Bool
  committed : Bool
deriving DecidableEq

instance : TransferQueueItem ReceiveItem where
  messageId := ReceiveItem.messageId
  sequenceNumber := ReceiveItem.sequenceNumber
  messageByteCount := ReceiveItem.messageByteCount
  queueByteCount := ReceiveItem.messageByteCount
  cmp a b := if a.sequenceNumber < b.sequenceNumber then -1
    else if b.sequenceNumber < a.sequenceNumber then 1 else 0

structure ReceivePack where
  pack : Pack
  messageByteCount : ℤ
  unwrapped : Bool
deriving DecidableEq

inductive ReceiveHoldPolicyKind where
  | committedPrefix
  | evict
  | refuse
deriving DecidableEq

structure ReceiveBufferSettings where
  gapTimeout : ℤ
  receiveQueueMaxByteCount : ℤ
  receiveQueueMinByteCount : ℤ
  receiveQueueBudget : Option ℕ
  receiveQueueRetainedByteAccounting : Bool
  receiveHoldPolicy : ReceiveHoldPolicyKind
  ackGapWakeSelectiveCount : ℕ
  minMessageByteCount : ℤ
  maxOpenReceiveContract : ℕ
  allowLegacyNack : Bool
  numberModulus : ℕ

structure ContractClock where
  registered : ℤ
  set : ℤ
  opened : ℤ
  checked : ℤ
  debited : ℤ

/-- What the sequence asks its client and its session while it handles one pack or item;
`session` holds whether the session requires encryption. -/
structure ReceiveEnv where
  receiveTime : ℤ
  clock : ContractClock
  verify : Contract → Bool
  receiveNoContract : Bool
  session : Option Bool

inductive ReceiveEntry where
  | arrived (head : Bool) (sequenceNumber nextSequenceNumber : ℕ)
  | opened (contract : SequenceContract)
  | evicted (contract : SequenceContract)
  | debited (contract : SequenceContract) (messageId : Id) (byteCount : ℤ)
  | credited (contract : SequenceContract) (messageId : Id) (byteCount : ℤ)
  | delivered (item : ReceiveItem) (appFrames : List Frame) (provideMode : ProvideMode)
  | acked (ack : SequenceAck)
  | wrote (ack : SequenceAck)

/-- The current contract is always one of the open ones and is kept by its id; `exit` is set
once `Run` returned, and `panicked` once a credit exceeded what was debited. -/
structure ReceiveSequence where
  nextSequenceNumber : ℕ
  hold : Pooled ReceiveItem
  maxHeldByteCount : ℤ
  ackWindow : SequenceAckWindow
  openReceiveContracts : List SequenceContract
  receiveContract : Option Id
  nextLocalId : ℕ
  exit : Option Fault
  panicked : Bool
  history : List ReceiveEntry

namespace ReceiveSequence

variable (s : ReceiveSequence)

def log (entry : ReceiveEntry) : ReceiveSequence := { s with history := entry :: s.history }

def close (fault : Fault) : ReceiveSequence := { s with exit := some fault }

def sendAck (sequenceNumber : ℕ) (messageId : Id) (selective : Bool) (tag : Option Tag)
    (unwrapped : Bool) : ReceiveSequence :=
  let ack : SequenceAck := { sequenceNumber, messageId, selective, tag, unwrapped }
  { s with ackWindow := s.ackWindow.update ack, history := .acked ack :: s.history }

def openContract (id : Id) : Option SequenceContract :=
  s.openReceiveContracts.find? fun c => c.contractId = id

def putContract (contract : SequenceContract) : ReceiveSequence :=
  { s with openReceiveContracts := s.openReceiveContracts.map fun c =>
      if c.contractId = contract.contractId then contract else c }

def evictedContracts (open' : List SequenceContract) (limit : ℕ) (newest : Id) : List SequenceContract :=
  ((open'.insertionSort fun a b => a.localId ≤ b.localId).take (open'.length - limit)).filter
    fun c => c.contractId ≠ newest

def openNewContract (limit : ℕ) (next : SequenceContract) : ReceiveSequence :=
  let added := s.openReceiveContracts ++ [next]
  let evicted := evictedContracts added limit next.contractId
  { s with
    openReceiveContracts := added.filter fun c => !evicted.any fun e => e.contractId = c.contractId
    receiveContract := some next.contractId
    history := evicted.reverse.map .evicted ++ .opened next :: s.history }

def errContractExpired : Fault := .message "contract expired"

def setContract (cfg : ReceiveBufferSettings) (clock : ContractClock) (next : SequenceContract) :
    Except Fault ReceiveSequence :=
  if next.expired clock.set then .error errContractExpired
  else if s.receiveContract = some next.contractId then
    if (s.openContract next.contractId).any fun c => c.expired clock.opened then .error errContractExpired
    else .ok s
  else match s.openContract next.contractId with
    | some c =>
      if c.expired clock.opened then .error errContractExpired
      else .ok { s with receiveContract := some c.contractId }
    | none => .ok (s.openNewContract cfg.maxOpenReceiveContract next)

def registerContracts (cfg : ReceiveBufferSettings) (env : ReceiveEnv) (item : ReceiveItem) :
    Except Fault ReceiveSequence :=
  match item.contractFrame with
  | none => .ok s
  | some frame =>
    match frame.contract with
    | none => .error .protobuf
    | some contract =>
      if env.verify contract = false then .error (.message "Contract verification failed.")
      else match newSequenceContract s.nextLocalId contract cfg.minMessageByteCount wholeFill with
        | .error fault => .error fault
        | .ok next =>
          if next.expired env.clock.registered then .error errContractExpired
          else setContract { s with nextLocalId := s.nextLocalId + 1 } cfg env.clock next

def withoutContract (env : ReceiveEnv) (item : ReceiveItem) : Option (ReceiveSequence × ReceiveItem) :=
  if env.receiveNoContract then some (s, item) else none

def debitContract (env : ReceiveEnv) (item : ReceiveItem) :
    Option SequenceContract → Option (ReceiveSequence × ReceiveItem)
  | none => s.withoutContract env item
  | some c =>
    if c.expired env.clock.checked then none
    else match c.update env.clock.debited item.messageByteCount with
      | some c' => some ((s.putContract c').log (.debited c' item.messageId item.messageByteCount),
          { item with contractId := some c.contractId })
      | none => s.withoutContract env item

def itemContract (item : ReceiveItem) : Option SequenceContract :=
  match item.contractId with
  | some id => s.openContract id
  | none => s.receiveContract.bind s.openContract

/-- `none` where the item has no valid contract. -/
def updateContract (env : ReceiveEnv) (item : ReceiveItem) : Option (ReceiveSequence × ReceiveItem) :=
  s.debitContract env item (s.itemContract item)

def appFrames (env : ReceiveEnv) (item : ReceiveItem) : List Frame :=
  match env.session with
  | none => item.frames
  | some requireEncryption =>
    let passthrough := item.frames.filter fun f => f.messageType ≠ messageTypeTransferEncryptedControl
    if item.unwrapped && requireEncryption then [] else passthrough

def deliver (env : ReceiveEnv) (item : ReceiveItem) (provideMode : ProvideMode) : ReceiveSequence :=
  let delivered := s.log (.delivered item (appFrames env item) provideMode)
  if item.ack then delivered.sendAck item.sequenceNumber item.messageId false item.tag item.unwrapped
  else delivered

def receiveHead (env : ReceiveEnv) (item : ReceiveItem) : ReceiveSequence :=
  match item.contractId.bind s.openContract with
  | none => s.deliver env item .network
  | some c =>
    let called := s.log (.credited c item.messageId item.messageByteCount)
    match c.ack item.messageByteCount with
    | none => { called with panicked := true, exit := some (.message "Bad accounting") }
    | some c' => (called.putContract c').deliver env item c.provideMode

def makeRoom (policy : ReceiveHoldPolicyKind) (sequenceNumber : ℕ) (byteCount maxByteCount : ℤ) :
    ℕ → Pooled ReceiveItem → Pooled ReceiveItem
  | 0, hold => hold
  | fuel + 1, hold =>
    if hold.canAdd byteCount maxByteCount then hold
    else match hold.queue.peekLast with
      | none => hold
      | some lastItem =>
        if lastItem.sequenceNumber ≤ sequenceNumber then hold
        else if policy = .committedPrefix ∧ lastItem.committed then hold
        else makeRoom policy sequenceNumber byteCount maxByteCount fuel
          (hold.removeByMessageId lastItem.messageId).2

/-- Whether an item survives when everything missing below it arrives, in the arithmetic of `int64`:
`below` items are held before it, and it and they hold `heldByteCount` bytes. -/
def fitsBelow (capacity frameByteCount : ℤ) (nextSequenceNumber sequenceNumber below : ℕ)
    (heldByteCount : ℤ) : Bool :=
  let missing := max 0 (int64 ((sequenceNumber : ℤ) - nextSequenceNumber - below))
  decide (int64 (missing * frameByteCount + heldByteCount) ≤ capacity)

def committable (capacity frameByteCount : ℤ) (nextSequenceNumber : ℕ) :
    ℕ → ℤ → List ReceiveItem → List ReceiveItem
  | _, _, [] => []
  | i, heldByteCount, held :: rest =>
    if fitsBelow capacity frameByteCount nextSequenceNumber held.sequenceNumber i
        (heldByteCount + held.messageByteCount) then
      held :: committable capacity frameByteCount nextSequenceNumber (i + 1)
        (heldByteCount + held.messageByteCount) rest
    else []

def heldPrefix (capacity maxHeldByteCount : ℤ) (nextSequenceNumber : ℕ)
    (queue : TransferQueue ReceiveItem) : List ReceiveItem :=
  let frameByteCount := max maxHeldByteCount 1
  let wholeFits := queue.peekLast.any fun newest =>
    fitsBelow capacity frameByteCount nextSequenceNumber newest.sequenceNumber (queue.queueSize.1 - 1)
      queue.queueSize.2
  if queue.queueSize.1 = 0 then []
  else if wholeFits then queue.orderedItems
  else committable capacity frameByteCount nextSequenceNumber 0 0 queue.ascendingItems

def markCommitted (messageId : Id) (item : ReceiveItem) : ReceiveItem :=
  if item.messageId = messageId then { item with committed := true } else item

def commitHeldItem (held : ReceiveItem) : ReceiveSequence :=
  let committed := { s with hold := { s.hold with
    queue := s.hold.queue.mapItems (markCommitted held.messageId) } }
  committed.sendAck held.sequenceNumber held.messageId true held.tag held.unwrapped

def commitHeldPrefix (cfg : ReceiveBufferSettings) : ReceiveSequence :=
  (heldPrefix cfg.receiveQueueMaxByteCount s.maxHeldByteCount s.nextSequenceNumber s.hold.queue).foldl
    (fun s held => if held.committed then s else s.commitHeldItem held) s

def newReceiveItem (env : ReceiveEnv) (receivePack : ReceivePack) (messageId : Id)
    (contractId : Option Id) : ReceiveItem where
  messageId := messageId
  sequenceNumber := receivePack.pack.sequenceNumber
  messageByteCount := receivePack.messageByteCount
  contractId := contractId
  receiveTime := env.receiveTime
  frames := receivePack.pack.frames
  contractFrame := receivePack.pack.contractFrame
  tag := receivePack.pack.tag
  head := receivePack.pack.head
  ack := !receivePack.pack.nack
  unwrapped := receivePack.unwrapped
  committed := false

def advanceToHead (item : ReceiveItem) : ReceiveSequence :=
  if item.head ∧ s.nextSequenceNumber < item.sequenceNumber then
    { s with nextSequenceNumber := item.sequenceNumber }
  else s

def arrive (item : ReceiveItem) : ReceiveSequence :=
  (s.log (.arrived item.head item.sequenceNumber s.nextSequenceNumber)).advanceToHead item

def replaceHeld (item : ReceiveItem) : ReceiveSequence :=
  { s with hold :=
      ((s.hold.removeBySequenceNumber item.sequenceNumber).2.removeByMessageId item.messageId).2 }

def advance (cfg : ReceiveBufferSettings) : ReceiveSequence :=
  { s with nextSequenceNumber := nextNumber cfg.numberModulus s.nextSequenceNumber }

def receiveNext (cfg : ReceiveBufferSettings) (env : ReceiveEnv) (item : ReceiveItem) : ReceiveSequence :=
  match (s.advance cfg).registerContracts cfg env item with
  | .error fault => (s.advance cfg).close fault
  | .ok registered =>
    match registered.updateContract env item with
    | some (updated, item) => updated.receiveHead env item
    | none => registered.close (.message "No contract")

def ackPast (item : ReceiveItem) : ReceiveSequence :=
  if item.ack then s.sendAck item.sequenceNumber item.messageId false none item.unwrapped else s

def roomFor (cfg : ReceiveBufferSettings) (item : ReceiveItem) : Pooled ReceiveItem :=
  if cfg.receiveHoldPolicy = .refuse then s.hold
  else makeRoom cfg.receiveHoldPolicy item.sequenceNumber item.messageByteCount
    cfg.receiveQueueMaxByteCount (s.hold.queue.orderedItems.length + 1) s.hold

def admitted (cfg : ReceiveBufferSettings) (item : ReceiveItem) : ReceiveSequence :=
  { s with
    maxHeldByteCount := max s.maxHeldByteCount item.messageByteCount
    hold := (s.roomFor cfg item).add item }

def holdItem (cfg : ReceiveBufferSettings) (item : ReceiveItem) : ReceiveSequence :=
  if (s.roomFor cfg item).canAdd item.messageByteCount cfg.receiveQueueMaxByteCount then
    if cfg.receiveHoldPolicy = .committedPrefix then (s.admitted cfg item).commitHeldPrefix cfg
    else (s.admitted cfg item).commitHeldItem item
  else { s with hold := s.roomFor cfg item }

def receive (cfg : ReceiveBufferSettings) (env : ReceiveEnv) (receivePack : ReceivePack) :
    ReceiveSequence :=
  match idFromBytes receivePack.pack.messageId with
  | .error _ => s.close (.message "Bad message_id")
  | .ok messageId =>
    let item := newReceiveItem env receivePack messageId none
    let arrived := (s.arrive item).replaceHeld item
    if item.sequenceNumber ≤ arrived.nextSequenceNumber then
      if arrived.nextSequenceNumber = item.sequenceNumber then arrived.receiveNext cfg env item
      else arrived.ackPast item
    else arrived.holdItem cfg item

def receiveNack (cfg : ReceiveBufferSettings) (env : ReceiveEnv) (receivePack : ReceivePack) :
    ReceiveSequence :=
  match idFromBytes receivePack.pack.messageId, receivePack.pack.contractId.mapM idFromBytes with
  | .error _, _ => s.close (.message "Bad message_id")
  | .ok _, .error _ => s.close (.message "Bad contract_id")
  | .ok messageId, .ok contractId =>
    if contractId = none ∧ cfg.allowLegacyNack = false then s
    else
      let item := newReceiveItem env receivePack messageId contractId
      match s.registerContracts cfg env item with
      | .error fault => s.close fault
      | .ok registered =>
        if contractId.any fun id => (registered.openContract id).isNone then registered
        else match registered.updateContract env item with
          | some (updated, item) => updated.receiveHead env item
          | none => registered

def removeHeld (item : ReceiveItem) : ReceiveSequence :=
  { s with hold := (s.hold.removeByMessageId item.messageId).2 }

def deliverHeld (cfg : ReceiveBufferSettings) (env : ReceiveEnv) (item : ReceiveItem) : ReceiveSequence :=
  match s.registerContracts cfg env item with
  | .error fault => s.close fault
  | .ok registered =>
    match registered.updateContract env item with
    | some (updated, item) => (updated.advance cfg).receiveHead env item
    | none => registered.close (.message "No contract")

def drain (cfg : ReceiveBufferSettings) (env : ReceiveEnv) : ReceiveSequence :=
  match s.hold.queue.peekFirst with
  | none => s
  | some item =>
    if item.receiveTime + cfg.gapTimeout - env.receiveTime < 0 then s.close (.message "exit gap timeout")
    else if s.nextSequenceNumber < item.sequenceNumber then s
    else if s.nextSequenceNumber = item.sequenceNumber then (s.removeHeld item).deliverHeld cfg env item
    else (s.removeHeld item).ackPast item

def writeAcks : ReceiveSequence :=
  let snapshot := s.ackWindow.snapshot true
  let head := if 0 < snapshot.1.ackUpdateCount then snapshot.1.headAck.toList else []
  let selective := (snapshot.1.selectiveAcks.insertionSort fun a b =>
    a.sequenceNumber ≤ b.sequenceNumber).map fun a => { a with selective := true }
  { s with
    ackWindow := snapshot.2
    history := (head ++ selective).reverse.map .wrote ++ s.history }

inductive Event where
  | pack (env : ReceiveEnv) (receivePack : ReceivePack)
  | drain (env : ReceiveEnv)
  | commitHeldPrefix
  | writeAcks
  | pool (pool : BudgetTree)
  | exit

/-- One step of the sequence. Other queues change the shared budgets at any time; once `Run`
returned, only the ack writer can still finish its write. -/
def step (cfg : ReceiveBufferSettings) (s : ReceiveSequence) : Event → ReceiveSequence
  | .writeAcks => s.writeAcks
  | .pool pool => { s with hold := { s.hold with pool := pool } }
  | .exit => if s.exit.isSome then s else s.close (.message "Done.")
  | .pack env receivePack =>
    if s.exit.isSome ∨ ¬ Representable cfg.numberModulus receivePack.pack.sequenceNumber then s
    else if receivePack.pack.nack then s.receiveNack cfg env receivePack
    else s.receive cfg env receivePack
  | .drain env => if s.exit.isSome then s else s.drain cfg env
  | .commitHeldPrefix =>
    if s.exit.isSome ∨ cfg.receiveHoldPolicy ≠ .committedPrefix then s else s.commitHeldPrefix cfg

def newReceiveQueue (cfg : ReceiveBufferSettings) (pool : BudgetTree) : Pooled ReceiveItem :=
  let queue := (Pooled.mk .newTransferQueue pool).setBudget cfg.receiveQueueBudget
    cfg.receiveQueueMinByteCount
  if cfg.receiveQueueRetainedByteAccounting then queue.setLifetimeBudget else queue

def newReceiveSequence (cfg : ReceiveBufferSettings) (pool : BudgetTree) : ReceiveSequence where
  nextSequenceNumber := 0
  hold := newReceiveQueue cfg pool
  maxHeldByteCount := 0
  ackWindow := .newSequenceAckWindowWithGapWake cfg.ackGapWakeSelectiveCount
  openReceiveContracts := []
  receiveContract := none
  nextLocalId := 0
  exit := none
  panicked := false
  history := []

def barePack (id : Id) (sequenceNumber : ℕ) (head : Bool) (messageByteCount : ℤ) : ReceivePack where
  pack := {
    messageId := id.bytes
    sequenceNumber := sequenceNumber
    head := head
    frames := []
    nack := false
    contractFrame := none
    tag := none
    contractId := none }
  messageByteCount := messageByteCount
  unwrapped := false

def openEnv : ReceiveEnv where
  receiveTime := 0
  clock := ⟨0, 0, 0, 0, 0⟩
  verify _ := true
  receiveNoContract := true
  session := none

def holdSettings (capacity : ℤ) (policy : ReceiveHoldPolicyKind) : ReceiveBufferSettings where
  gapTimeout := 15000
  receiveQueueMaxByteCount := capacity
  receiveQueueMinByteCount := 0
  receiveQueueBudget := none
  receiveQueueRetainedByteAccounting := false
  receiveHoldPolicy := policy
  ackGapWakeSelectiveCount := 0
  minMessageByteCount := 0
  maxOpenReceiveContract := 1
  allowLegacyNack := false
  numberModulus := uint64Modulus

end ReceiveSequence

end UrConnect.Transfer
