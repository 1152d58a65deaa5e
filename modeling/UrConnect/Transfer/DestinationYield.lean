import UrConnect.Base
import UrConnect.Extender.Clock
import UrConnect.Lib.Table

/-! What a send buffer remembers of each destination it writes to, and the policy that releases the ones that have
stopped to acknowledge. -/

namespace UrConnect.Transfer.Yield

open UrConnect.Extender (Time Duration)
open UrConnect.Lib

def second : Duration := 1000000000

def minute : Duration := 60 * second

def unixNano (t : Time) : Int64 := Int64.ofInt (t.wall - Time.unixEpoch)

def ofUnixNano (nano : Int64) : Time := ⟨Time.unixEpoch + nano.toInt, none⟩

structure DestinationYield where
  destinationId : Id
  sentBytes : Int64
  ackedBytes : Int64
  silentSinceNano : Int64
  lastAckNano : Int64
  lastSendNano : Int64
  releasedAtNano : Int64
  releasedShadow : Bool
deriving DecidableEq

def recoveredSilenceBounds : List Duration := [10, 30, 60, 120, 180, 300, 600].map (· * second)

def returnAfterReleaseBounds : List Duration := [30, 60, 120, 300, 600, 1800].map (· * second)

def recordDuration (bounds : List Duration) (counts : List Int64) (duration : Duration) : List Int64 :=
  counts.modify (bounds.findIdx fun bound => decide (duration ≤ bound)) (· + 1)

structure Histograms where
  recoveredSilenceCounts : List Int64
  returnAfterReleaseCounts : List Int64
  returnAfterShadowCounts : List Int64
deriving DecidableEq

namespace Histograms

def new : Histograms := ⟨List.replicate 8 0, List.replicate 7 0, List.replicate 7 0⟩

def recordRecoveredSilence (h : Histograms) (duration : Duration) : Histograms :=
  { h with recoveredSilenceCounts := recordDuration recoveredSilenceBounds h.recoveredSilenceCounts duration }

def recordReturnAfterRelease (h : Histograms) (shadow : Bool) (duration : Duration) : Histograms :=
  if shadow then
    { h with returnAfterShadowCounts := recordDuration returnAfterReleaseBounds h.returnAfterShadowCounts duration }
  else
    { h with returnAfterReleaseCounts := recordDuration returnAfterReleaseBounds h.returnAfterReleaseCounts duration }

end Histograms

namespace DestinationYield

def new (destinationId : Id) : DestinationYield := ⟨destinationId, 0, 0, 0, 0, 0, 0, false⟩

def noteSend (y : DestinationYield) (byteCount nowNano : Int64) : DestinationYield :=
  { y with
    sentBytes := y.sentBytes + byteCount
    lastSendNano := nowNano
    silentSinceNano := if y.silentSinceNano = 0 then nowNano else y.silentSinceNano }

def noteLive (y : DestinationYield) (h : Histograms) (nowNano : Int64) : DestinationYield × Histograms :=
  let returned :=
    if y.releasedAtNano ≠ 0 ∧ y.releasedAtNano < nowNano then
      h.recordReturnAfterRelease y.releasedShadow (nowNano - y.releasedAtNano).toInt
    else h
  let recovered :=
    if y.silentSinceNano ≠ 0 ∧ y.silentSinceNano < nowNano then
      returned.recordRecoveredSilence (nowNano - y.silentSinceNano).toInt
    else returned
  ({ y with
      lastAckNano := nowNano
      releasedAtNano := 0
      silentSinceNano := 0 },
    recovered)

def noteAck (y : DestinationYield) (h : Histograms) (byteCount nowNano : Int64) : DestinationYield × Histograms :=
  noteLive { y with ackedBytes := y.ackedBytes + byteCount } h nowNano

def reset (y : DestinationYield) : DestinationYield := { y with silentSinceNano := 0 }

def markReleased (y : DestinationYield) (nowNano : Int64) (shadow : Bool) : DestinationYield :=
  { y with
    releasedShadow := shadow
    releasedAtNano := nowNano }.reset

end DestinationYield

structure DestinationYieldView where
  destinationId : Id
  silentFor : Duration
  sinceLastAck : Duration
  sinceLastSend : Duration
  sentBytes : Int64
  ackedBytes : Int64
deriving DecidableEq

def age (now : Time) (nano : Int64) : Duration := if nano = 0 then 0 else max 0 (now.sub (ofUnixNano nano))

def DestinationYield.view (y : DestinationYield) (now : Time) : DestinationYieldView where
  destinationId := y.destinationId
  silentFor := age now y.silentSinceNano
  sinceLastAck := age now y.lastAckNano
  sinceLastSend := age now y.lastSendNano
  sentBytes := y.sentBytes
  ackedBytes := y.ackedBytes

def yieldRetention : Duration := 15 * minute

structure SendBuffer where
  yields : Table Id DestinationYield
  histograms : Histograms

namespace SendBuffer

def new : SendBuffer := ⟨∅, Histograms.new⟩

def yieldFor (b : SendBuffer) (destinationId : Id) : DestinationYield :=
  (b.yields.lookup destinationId).getD (DestinationYield.new destinationId)

/-- The record is shared, so what is noted on it is seen by the next reader of the table. -/
def update (b : SendBuffer) (destinationId : Id) (r : DestinationYield × Histograms) : SendBuffer :=
  ⟨b.yields.insert destinationId r.1, r.2⟩

def forgotten (now : Time) (y : DestinationYield) : Bool :=
  yieldRetention < max (y.view now).sinceLastSend (y.view now).sinceLastAck

def destinationYields (b : SendBuffer) (now : Time) : SendBuffer × List DestinationYieldView :=
  let kept := b.yields.sweep fun _ y => if forgotten now y then none else some y
  ({ b with yields := kept }, kept.entries.map fun e => e.2.view now)

def markDestinationReleased (b : SendBuffer) (destinationId : Id) (now : Time) (shadow : Bool) : SendBuffer :=
  { b with yields := b.yields.modify destinationId fun y => y.markReleased (unixNano now) shadow }

end SendBuffer

inductive YieldEvent
  | noteSend (destinationId : Id) (byteCount nowNano : Int64)
  | noteAck (destinationId : Id) (byteCount nowNano : Int64)
  | noteLive (destinationId : Id) (nowNano : Int64)
  | markDestinationReleased (destinationId : Id) (now : Time) (shadow : Bool)
  | destinationYields (now : Time)

def YieldEvent.nano : YieldEvent → ℤ
  | noteSend _ _ nowNano | noteAck _ _ nowNano | noteLive _ nowNano => nowNano.toInt
  | markDestinationReleased _ now _ | destinationYields now => now.wall - Time.unixEpoch

def SendBuffer.step (b : SendBuffer) : YieldEvent → SendBuffer
  | .noteSend destinationId byteCount nowNano =>
    b.update destinationId ((b.yieldFor destinationId).noteSend byteCount nowNano, b.histograms)
  | .noteAck destinationId byteCount nowNano =>
    b.update destinationId ((b.yieldFor destinationId).noteAck b.histograms byteCount nowNano)
  | .noteLive destinationId nowNano =>
    b.update destinationId ((b.yieldFor destinationId).noteLive b.histograms nowNano)
  | .markDestinationReleased destinationId now shadow => b.markDestinationReleased destinationId now shadow
  | .destinationYields now => (b.destinationYields now).1

inductive DeadClientReason
  | healthy
  | hard
  | small
deriving DecidableEq

/-- Whether too few of the active destinations are acknowledging is a comparison of floating-point numbers. -/
structure DeadClientPolicy where
  silence : Duration
  hardSilence : Duration
  activeWindow : Duration
  ackWindow : Duration
  unhealthy : (acking active : ℕ) → Bool
  minActive : ℕ

def defaultDeadClientPolicy (unhealthy : (acking active : ℕ) → Bool) : DeadClientPolicy where
  silence := 180 * second
  hardSilence := 600 * second
  activeWindow := 120 * second
  ackWindow := 60 * second
  unhealthy := unhealthy
  minActive := 5

structure DeadClientRelease where
  view : DestinationYieldView
  reason : DeadClientReason
deriving DecidableEq

structure DeadClientDecision where
  release : List DeadClientRelease
  silent : ℕ
  fleetCollapsed : Bool
  active : ℕ
  acking : ℕ

namespace DeadClientPolicy

variable (policy : DeadClientPolicy)

def within (window since : Duration) : Bool := since ≠ 0 ∧ since ≤ window

def active (view : DestinationYieldView) : Bool :=
  within policy.activeWindow view.sinceLastSend || within policy.activeWindow view.sinceLastAck

def candidate (view : DestinationYieldView) : Bool :=
  within policy.activeWindow view.sinceLastSend && decide (policy.silence ≤ view.silentFor)

def reason (judged fleetCollapsed : Bool) (view : DestinationYieldView) : Option DeadClientReason :=
  if !judged then if policy.hardSilence ≤ view.silentFor then some .small else none
  else if fleetCollapsed then if policy.hardSilence ≤ view.silentFor then some .hard else none
  else some .healthy

def decideDeadClients (views : List DestinationYieldView) : DeadClientDecision :=
  let actives := views.filter policy.active
  let acking := (actives.filter fun view => within policy.ackWindow view.sinceLastAck).length
  let judged := decide (policy.minActive ≤ actives.length)
  let fleetCollapsed := judged && policy.unhealthy acking actives.length
  let silent := views.filter policy.candidate
  { release := silent.filterMap fun view => (policy.reason judged fleetCollapsed view).map (⟨view, ·⟩)
    silent := silent.length
    fleetCollapsed := fleetCollapsed
    active := actives.length
    acking := acking }

end DeadClientPolicy

end UrConnect.Transfer.Yield
