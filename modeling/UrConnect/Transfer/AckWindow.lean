import UrConnect.Protocol

/-! The window that coalesces acks between two writes of the ack writer. -/

namespace UrConnect.Transfer

structure SequenceAck where
  sequenceNumber : ℕ
  messageId : Id
  selective : Bool
  tag : Option Tag
  unwrapped : Bool
deriving DecidableEq

structure GapWakeReasons where
  holeProvable : Bool
  holeFilled : Bool
deriving DecidableEq

/-- `selectiveAcks` holds one ack for each message id; `gapNotify` is the token of the wake channel. -/
structure SequenceAckWindow where
  headAck : Option SequenceAck
  ackUpdateCount : ℕ
  selectiveAcks : List SequenceAck
  gapNotify : Bool
  gapWakeSelectiveCount : ℕ
  gapWakeSignaled : GapWakeReasons
  gapSelectiveAboveHead : ℕ
  gapSelectiveMax : ℕ
  gapSelectiveSeen : Bool
deriving DecidableEq

structure SequenceAckWindowSnapshot where
  headAck : Option SequenceAck
  ackUpdateCount : ℕ
  selectiveAcks : List SequenceAck
deriving DecidableEq

namespace SequenceAckWindow

def newSequenceAckWindowWithGapWake (gapWakeSelectiveCount : ℕ) : SequenceAckWindow where
  headAck := none
  ackUpdateCount := 0
  selectiveAcks := []
  gapNotify := false
  gapWakeSelectiveCount := gapWakeSelectiveCount
  gapWakeSignaled := ⟨false, false⟩
  gapSelectiveAboveHead := 0
  gapSelectiveMax := 0
  gapSelectiveSeen := false

variable (w : SequenceAckWindow)

def signalHoleProvable : SequenceAckWindow :=
  if w.gapWakeSignaled.holeProvable then w
  else { w with gapWakeSignaled := { w.gapWakeSignaled with holeProvable := true }, gapNotify := true }

def signalHoleFilled : SequenceAckWindow :=
  if w.gapWakeSignaled.holeFilled then w
  else { w with gapWakeSignaled := { w.gapWakeSignaled with holeFilled := true }, gapNotify := true }

def isAboveHead (ack : SequenceAck) : Bool :=
  match w.headAck with
  | none => true
  | some headAck => decide (headAck.sequenceNumber < ack.sequenceNumber)

def putSelective (acks : List SequenceAck) (ack : SequenceAck) : List SequenceAck :=
  ack :: acks.filter fun a => a.messageId ≠ ack.messageId

def updateSelective (ack : SequenceAck) : SequenceAckWindow :=
  let prior := w.selectiveAcks.find? fun a => a.messageId = ack.messageId
  let ack := { ack with unwrapped := ack.unwrapped || prior.any fun a => a.unwrapped }
  let aboveHead := if prior.isNone then w.gapSelectiveAboveHead + 1 else w.gapSelectiveAboveHead
  let raised := !w.gapSelectiveSeen || decide (w.gapSelectiveMax < ack.sequenceNumber)
  let updated := { w with
    selectiveAcks := putSelective w.selectiveAcks ack
    gapSelectiveAboveHead := aboveHead
    gapSelectiveMax := if raised then ack.sequenceNumber else w.gapSelectiveMax
    gapSelectiveSeen := true }
  if 0 < w.gapWakeSelectiveCount ∧ w.gapWakeSelectiveCount ≤ aboveHead then updated.signalHoleProvable
  else updated

def updateHead (ack : SequenceAck) : SequenceAckWindow :=
  let filled := decide (0 < w.gapWakeSelectiveCount) && w.gapSelectiveSeen &&
    w.headAck.all fun headAck => decide (headAck.sequenceNumber < w.gapSelectiveMax)
  let signaled := if filled then w.signalHoleFilled else w
  let aboveHead :=
    if 0 < w.gapSelectiveAboveHead then
      if w.gapSelectiveMax ≤ ack.sequenceNumber then 0
      else if w.selectiveAcks.any fun a => a.messageId = ack.messageId then w.gapSelectiveAboveHead - 1
      else w.gapSelectiveAboveHead
    else w.gapSelectiveAboveHead
  let unwrapped := ack.unwrapped || (w.headAck.any fun headAck => headAck.unwrapped) ||
    w.selectiveAcks.any fun a => a.unwrapped && decide (a.sequenceNumber ≤ ack.sequenceNumber)
  { signaled with
    gapSelectiveAboveHead := aboveHead
    ackUpdateCount := w.ackUpdateCount + 1
    headAck := some { ack with unwrapped := unwrapped } }

def updatePast (ack : SequenceAck) : SequenceAckWindow :=
  { w with
    headAck := w.headAck.map fun headAck => { headAck with unwrapped := headAck.unwrapped || ack.unwrapped }
    ackUpdateCount := w.ackUpdateCount + 1 }

def update (ack : SequenceAck) : SequenceAckWindow :=
  if w.isAboveHead ack then
    if ack.selective then w.updateSelective ack else w.updateHead ack
  else w.updatePast ack

def snapshotSelective : List SequenceAck :=
  if 0 < w.ackUpdateCount then w.selectiveAcks.filter w.isAboveHead else w.selectiveAcks

def snapshot (reset : Bool) : SequenceAckWindowSnapshot × SequenceAckWindow :=
  ({ headAck := w.headAck
     ackUpdateCount := w.ackUpdateCount
     selectiveAcks := w.snapshotSelective },
   if reset then
    { w with
      ackUpdateCount := 0
      selectiveAcks := []
      gapSelectiveAboveHead := 0
      gapWakeSignaled := ⟨false, false⟩
      gapNotify := false }
   else w)

variable {w} {ack x : SequenceAck}

lemma signal_headAck (w : SequenceAckWindow) :
    w.signalHoleProvable.headAck = w.headAck ∧ w.signalHoleFilled.headAck = w.headAck := by
  rw [signalHoleProvable, signalHoleFilled]
  constructor <;> split <;> rfl

lemma updateSelective_headAck (w : SequenceAckWindow) (ack : SequenceAck) :
    (w.updateSelective ack).headAck = w.headAck := by
  rw [updateSelective, apply_ite SequenceAckWindow.headAck, (signal_headAck _).1]
  exact ite_self _

end SequenceAckWindow

end UrConnect.Transfer
