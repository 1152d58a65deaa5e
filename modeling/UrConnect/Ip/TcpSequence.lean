import UrConnect.Base
import UrConnect.Lib.Word
import UrConnect.Lib.Bytes

/-! The synthetic TCP endpoint of a provider: the critical sections of its loops, in any interleaving. -/

namespace UrConnect.Ip.Tcp

open Lib.Bytes Lib.SerialNumber

structure TcpOptions where
  enableMss : Bool
  mss : UInt32
  enableWindowScale : Bool
  windowScale : UInt32
  enableTimestamp : Bool
  timestampValue : UInt32
  timestampEcho : UInt32
  windowScale_le : windowScale ≤ 14
deriving DecidableEq

def TcpOptions.none : TcpOptions := ⟨false, 0, false, 0, false, 0, 0, by decide⟩

lemma min_scale_le (scale : UInt32) : min scale 14 ≤ 14 := by
  rcases UInt32.le_total scale 14 with h | h
  · exact (if_pos h).trans_le h
  · by_cases hle : scale ≤ 14
    · exact (if_pos hle).trans_le hle
    · exact (if_neg hle).trans_le (UInt32.le_refl 14)

def TcpOptions.read (o : TcpOptions) (kind : UInt8) (body : List UInt8) : TcpOptions :=
  match kind.toNat, body with
  | 2, [a, b] =>
    { o with enableMss := true, mss := max (UInt32.ofNat (ofBigEndian [a, b])) 536 }
  | 3, [scale] =>
    { o with
      enableWindowScale := true
      windowScale := min scale.toUInt32 14
      windowScale_le := min_scale_le _ }
  | 8, [a, b, c, d, e, f, g, h] =>
    { o with
      enableTimestamp := true
      timestampValue := UInt32.ofNat (ofBigEndian [a, b, c, d])
      timestampEcho := UInt32.ofNat (ofBigEndian [e, f, g, h]) }
  | _, _ => o

def parseTcpOptions (o : TcpOptions) : List UInt8 → TcpOptions
  | [] => o
  | kind :: rest =>
    if kind = 0 then o
    else if kind = 1 then parseTcpOptions o rest
    else
      match rest with
      | [] => o
      | byteCount :: body =>
        if byteCount < 2 ∨ body.length + 2 < byteCount.toNat then o
        else
          parseTcpOptions (o.read kind (body.take (byteCount.toNat - 2))) (body.drop (byteCount.toNat - 2))
termination_by options => options.length
decreasing_by
  · simp
  · simp
    omega

/-- `parsedTcp`, without the addresses. -/
structure Segment where
  fin : Bool
  syn : Bool
  rst : Bool
  ack : Bool
  seq : UInt32
  ackNumber : UInt32
  windowSize : UInt16
  options : TcpOptions
  payload : List UInt8
deriving DecidableEq

def headerByteCountWithoutExtensions : ℕ := 20

def tcpTimestampOptionByteCount : ℕ := 12

structure TcpBufferSettings where
  mtu : ℤ
  minWindowSize : UInt32
  initialWindowSize : UInt32
  maxWindowSize : UInt32

def TcpBufferSettings.scale (settings : TcpBufferSettings) : UInt32 :=
  UInt32.ofNat (Nat.clog 2 ((settings.maxWindowSize.toNat + 65534) / 65535))

structure ConnectionState where
  ipVersion : IpVersion
  sendSeq : UInt32
  receiveSeq : UInt32
  receiveSeqAck : UInt32
  receiveWindowSize : UInt32
  receiveWindowScale : UInt32
  enableWindowScale : Bool
  windowSize : UInt32
  windowScale : UInt32
  enableTimestamp : Bool
  timestampRecent : UInt32
  timestampOffset : UInt32
  peerMss : UInt32

structure Packet where
  syn : Bool
  fin : Bool
  rst : Bool
  seq : UInt32
  ackNumber : UInt32
  windowSize : UInt16
  options : List UInt8
  payload : List UInt8
deriving DecidableEq

namespace ConnectionState

variable (c : ConnectionState)

def encodedWindowSize : UInt16 := (min (c.windowSize >>> c.windowScale) 65535).toUInt16

/-- At `now` milliseconds from the epoch of the process. -/
def timestampValue (now : UInt32) : UInt32 := c.timestampOffset + now + 1

def updateTimestampRecentWithLock (tcp : Segment) : ConnectionState :=
  if c.enableTimestamp = false ∨ tcp.options.enableTimestamp = false then c
  else if c.timestampRecent = 0 ∨ tcp.options.timestampValue - c.timestampRecent < 2 ^ 31 then
    { c with timestampRecent := tcp.options.timestampValue }
  else c

def timestampBytes (now : UInt32) : List UInt8 :=
  [8, 10] ++ bigEndian 4 (c.timestampValue now).toNat ++ bigEndian 4 c.timestampRecent.toNat

def tcpOptionsBytes (now : UInt32) : List UInt8 :=
  if c.enableTimestamp then [1, 1] ++ c.timestampBytes now else []

def mtuFault (mtu : ℤ) (headerByteCount : ℕ) : String :=
  s!"mtu {mtu} is too small for IP+TCP headers ({headerByteCount} bytes)"

def synAckOptions (mss : ℕ) (now : UInt32) : List UInt8 :=
  let timestamp := if c.enableTimestamp then c.timestampBytes now else []
  let pad := if c.enableWindowScale ∧ c.enableTimestamp then [1] else []
  let scale := if c.enableWindowScale then [3, 3, c.windowScale.toUInt8] else []
  let options := [2, 4] ++ bigEndian 2 mss ++ timestamp ++ pad ++ scale
  options ++ List.replicate ((4 - options.length % 4) % 4) 0

def synAck (mtu : ℤ) (now : UInt32) : Except String Packet :=
  let headerByteCount := c.ipVersion.headerByteCount + headerByteCountWithoutExtensions
  let mss := mtu - headerByteCount
  if mss ≤ 0 then .error (mtuFault mtu headerByteCount)
  else
    .ok
      { syn := true, fin := false, rst := false, seq := c.receiveSeq, ackNumber := c.sendSeq
        windowSize := (min c.windowSize 65535).toUInt16
        options := c.synAckOptions mss.toNat now
        payload := [] }

def tcpPacket (payload : List UInt8) (seq : UInt32) (now : UInt32) : Packet where
  syn := false
  fin := false
  rst := false
  seq := seq
  ackNumber := c.sendSeq
  windowSize := c.encodedWindowSize
  options := c.tcpOptionsBytes now
  payload := payload

def pureAck (now : UInt32) : Packet := c.tcpPacket [] c.receiveSeq now

def finAck (now : UInt32) : Packet := { c.tcpPacket [] c.receiveSeq now with fin := true }

def rstAck (now : UInt32) : Packet := { c.tcpPacket [] c.receiveSeq now with rst := true, options := [] }

def dataLoop (byteCount : ℕ) (now : UInt32) (i : ℕ) : List UInt8 → List Packet
  | [] => []
  | b :: rest =>
    c.tcpPacket (b :: rest.take byteCount) (c.receiveSeq + UInt32.ofNat i) now ::
      dataLoop byteCount now (i + (b :: rest.take byteCount).length) (rest.drop byteCount)
termination_by payload => payload.length
decreasing_by
  simp only [List.length_drop, List.length_cons]
  omega

def dataHeaderByteCount : ℕ :=
  c.ipVersion.headerByteCount + headerByteCountWithoutExtensions +
    if c.enableTimestamp then tcpTimestampOptionByteCount else 0

def packetByteCount (mtu : ℤ) : ℕ :=
  let byteCount := mtu - c.dataHeaderByteCount
  let optionByteCount := if c.enableTimestamp then tcpTimestampOptionByteCount else 0
  let clamped :=
    if c.peerMss ≠ 0 then min byteCount (max 1 ((c.peerMss.toNat : ℤ) - optionByteCount)) else byteCount
  (max 1 clamped).toNat

def dataPackets (payload : List UInt8) (mtu : ℤ) (now : UInt32) : Except String (List Packet) :=
  if mtu ≤ c.dataHeaderByteCount then .error (mtuFault mtu c.dataHeaderByteCount)
  else if payload.length ≤ c.packetByteCount mtu then .ok [c.tcpPacket payload c.receiveSeq now]
  else .ok (c.dataLoop (c.packetByteCount mtu - 1) now 0 payload)

end ConnectionState

inductive Sending
  | listening
  | dialing (packet : Packet)
  | refused
  | ready
  | accepted (tcp : Segment)
  | counted (tcp : Segment)
  | queued (tcp : Segment)
  | finished
  | closed
deriving DecidableEq

inductive Reading
  | ready
  | holding (bytes : List UInt8) (eof : Bool)
  | finishing
  | closed
deriving DecidableEq

structure TcpSequence extends ConnectionState where
  ackedSendSeq : UInt32
  nonBlockingByteCount : UInt32
  blockingByteCount : UInt32
  sending : Sending
  reading : Reading
  /-- the payloads handed to the socket writer -/
  writes : List (List UInt8)
  /-- what the reads of the socket have returned -/
  reads : List (List UInt8)
  /-- the packets generated for the source -/
  packets : List Packet

inductive Event
  | segment (tcp : Segment) (now : UInt32)
  | connected
  | refused (rst : Bool) (now : UInt32)
  | proceed (blocked : Bool)
  | read (bytes : List UInt8) (eof : Bool)
  | forward (now : UInt32)
  | finish (now : UInt32)
  | reset (now : UInt32)
  | acknowledge (now : UInt32)
  | scaleDown

def newTcpSequence (settings : TcpBufferSettings) (ipVersion : IpVersion) (timestampOffset : UInt32) :
    TcpSequence where
  ipVersion := ipVersion
  sendSeq := 0
  receiveSeq := 0
  receiveSeqAck := 0
  receiveWindowSize := 0
  receiveWindowScale := 0
  enableWindowScale := false
  windowSize :=
    let initial := if settings.initialWindowSize = 0 then settings.minWindowSize else settings.initialWindowSize
    min (max initial settings.minWindowSize) settings.maxWindowSize
  windowScale := 0
  enableTimestamp := false
  timestampRecent := 0
  timestampOffset := timestampOffset
  peerMss := 0
  ackedSendSeq := 0
  nonBlockingByteCount := 0
  blockingByteCount := 0
  sending := .listening
  reading := .ready
  writes := []
  reads := []
  packets := []

namespace ConnectionState

variable (settings : TcpBufferSettings) (c : ConnectionState)

def synchronize (tcp : Segment) : ConnectionState :=
  { c with
    sendSeq := tcp.seq + 1
    receiveSeq := tcp.seq
    receiveSeqAck := tcp.seq
    enableWindowScale := tcp.options.enableWindowScale
    receiveWindowScale := tcp.options.windowScale
    receiveWindowSize := tcp.windowSize.toUInt32 <<< tcp.options.windowScale
    enableTimestamp := tcp.options.enableTimestamp
    timestampRecent := tcp.options.timestampValue
    peerMss := if tcp.options.enableMss then tcp.options.mss else c.peerMss
    windowScale := if tcp.options.enableWindowScale then settings.scale else 0 }

def receiveAck (tcp : Segment) : ConnectionState :=
  if tcp.ack ∧ c.receiveSeqAck ≤ tcp.ackNumber then
    { c with
      receiveWindowSize := tcp.windowSize.toUInt32 <<< c.receiveWindowScale
      receiveSeqAck := tcp.ackNumber }.updateTimestampRecentWithLock tcp
  else c

def Drops (tcp : Segment) : Prop := c.sendSeq ≠ tcp.seq ∨ tcp.syn = true

instance (tcp : Segment) : Decidable (c.Drops tcp) := inferInstanceAs (Decidable (_ ∨ _))

def WindowWaits (n : ℕ) : Prop := c.receiveWindowSize < c.receiveSeq - c.receiveSeqAck + UInt32.ofNat n

instance (n : ℕ) : Decidable (c.WindowWaits n) := inferInstanceAs (Decidable (_ < _))

end ConnectionState

namespace TcpSequence

variable (settings : TcpBufferSettings) (w : TcpSequence)

def receive (tcp : Segment) (now : UInt32) : TcpSequence :=
  match w.sending with
  | .listening =>
    if tcp.syn then
      let c := w.toConnectionState.synchronize settings tcp
      match c.synAck settings.mtu now with
      | .error _ => { w with toConnectionState := { c with receiveSeq := c.receiveSeq + 1 }, sending := .refused }
      | .ok packet =>
        { w with toConnectionState := { c with receiveSeq := c.receiveSeq + 1 }, sending := .dialing packet }
    else w
  | .ready =>
    if tcp.rst then { w with sending := .closed }
    else if w.Drops tcp then w
    else { w with toConnectionState := w.toConnectionState.receiveAck tcp, sending := .accepted tcp }
  | _ => w

def connect : TcpSequence :=
  match w.sending with
  | .dialing packet =>
    { w with ackedSendSeq := w.sendSeq, sending := .ready, packets := w.packets ++ [packet] }
  | _ => w

def refuse (rst : Bool) (now : UInt32) : TcpSequence :=
  match w.sending with
  | .dialing _ =>
    { w with sending := .refused, packets := w.packets ++ if rst then [w.rstAck now] else [] }
  | _ => w

def scaleWindow : TcpSequence :=
  if w.windowSize ≤ w.blockingByteCount + w.nonBlockingByteCount then
    { w with
      windowSize :=
        if w.windowSize ≤ w.nonBlockingByteCount then min (w.windowSize * 2) settings.maxWindowSize
        else if w.windowSize / 2 ≤ w.blockingByteCount then max (w.windowSize / 2) settings.minWindowSize
        else w.windowSize
      nonBlockingByteCount := 0
      blockingByteCount := 0 }
  else w

def afterSegment (tcp : Segment) : TcpSequence :=
  { w with sending := if tcp.fin then .finished else .ready }

def handOver (tcp : Segment) (blocked : Bool) : TcpSequence :=
  if tcp.payload = [] then w.afterSegment tcp
  else if blocked then
    { w with
      writes := w.writes ++ [tcp.payload]
      blockingByteCount := w.blockingByteCount + UInt32.ofNat tcp.payload.length
      sending := .queued tcp }
  else
    { w with
      writes := w.writes ++ [tcp.payload]
      nonBlockingByteCount := w.nonBlockingByteCount + UInt32.ofNat tcp.payload.length
      sending := .queued tcp }

def proceed (blocked : Bool) : TcpSequence :=
  match w.sending with
  | .accepted tcp =>
    if tcp.fin then { w with sendSeq := w.sendSeq + 1, sending := .counted tcp }
    else w.handOver tcp blocked
  | .counted tcp => w.handOver tcp blocked
  | .queued tcp =>
    let w := w.scaleWindow settings
    { w with sendSeq := w.sendSeq + UInt32.ofNat tcp.payload.length }.afterSegment tcp
  | _ => w

def Connected : Prop :=
  match w.sending with
  | .listening | .dialing _ | .refused => False
  | _ => True

instance : Decidable w.Connected :=
  match h : w.sending with
  | .listening | .dialing _ | .refused => .isFalse (by simp [Connected, h])
  | .ready | .accepted _ | .counted _ | .queued _ | .finished | .closed => .isTrue (by simp [Connected, h])

def read (bytes : List UInt8) (eof : Bool) : TcpSequence :=
  match w.reading with
  | .ready => { w with reads := w.reads ++ [bytes], reading := .holding bytes eof }
  | _ => w

def forward (now : UInt32) : TcpSequence :=
  match w.reading with
  | .holding bytes eof =>
    let reading := if eof then .finishing else .ready
    if bytes = [] then { w with reading }
    else if w.WindowWaits bytes.length then w
    else
      match w.dataPackets bytes settings.mtu now with
      | .error _ => { w with reading := .closed }
      | .ok packets =>
        { w with
          receiveSeq := w.receiveSeq + UInt32.ofNat bytes.length
          ackedSendSeq := w.sendSeq
          packets := w.packets ++ packets
          reading }
  | _ => w

def finish (now : UInt32) : TcpSequence :=
  match w.reading with
  | .finishing =>
    { w with receiveSeq := w.receiveSeq + 1, packets := w.packets ++ [w.finAck now], reading := .closed }
  | _ => w

def reset (now : UInt32) : TcpSequence :=
  match w.reading with
  | .closed => w
  | _ => { w with packets := w.packets ++ [w.rstAck now], reading := .closed }

def acknowledge (now : UInt32) : TcpSequence :=
  if w.sendSeq = w.ackedSendSeq then w
  else { w with ackedSendSeq := w.sendSeq, packets := w.packets ++ [w.pureAck now] }

def scaleDown : TcpSequence :=
  match w.sending with
  | .ready =>
    if w.windowSize ≠ settings.minWindowSize then
      { w with windowSize := settings.minWindowSize, nonBlockingByteCount := 0, blockingByteCount := 0 }
    else w
  | _ => w

/-- A section of one of the loops; those of the loops over the socket wait for the connection. -/
def step (w : TcpSequence) : Event → TcpSequence
  | .segment tcp now => w.receive settings tcp now
  | .connected => w.connect
  | .refused rst now => w.refuse rst now
  | .proceed blocked => w.proceed settings blocked
  | .scaleDown => w.scaleDown settings
  | .read bytes eof => if w.Connected then w.read bytes eof else w
  | .forward now => if w.Connected then w.forward settings now else w
  | .finish now => if w.Connected then w.finish now else w
  | .reset now => if w.Connected then w.reset now else w
  | .acknowledge now => if w.Connected then w.acknowledge now else w

end TcpSequence

end UrConnect.Ip.Tcp

/-! The packets that a TCP sequence makes for its source are numbered one after the other. -/

namespace UrConnect.Ip.Tcp

def Packet.length (p : Packet) : ℕ := p.payload.length + p.syn.toNat + p.fin.toNat

def totalLength (packets : List Packet) : ℕ := (packets.map Packet.length).sum

def carried (packets : List Packet) : List UInt8 := (packets.map Packet.payload).flatten

def Consecutive : UInt32 → List Packet → Prop
  | _, [] => True
  | start, p :: packets =>
    (p.payload ≠ [] → p.seq = start) ∧ Consecutive (start + UInt32.ofNat p.payload.length) packets

@[simp] lemma totalLength_nil : totalLength [] = 0 := rfl

@[simp] lemma totalLength_cons (p : Packet) (packets : List Packet) :
    totalLength (p :: packets) = p.length + totalLength packets := rfl

@[simp] lemma totalLength_append (ps qs : List Packet) : totalLength (ps ++ qs) = totalLength ps + totalLength qs := by
  simp [totalLength]

@[simp] lemma carried_nil : carried [] = [] := rfl

@[simp] lemma carried_cons (p : Packet) (packets : List Packet) :
    carried (p :: packets) = p.payload ++ carried packets := rfl

@[simp] lemma carried_append (ps qs : List Packet) : carried (ps ++ qs) = carried ps ++ carried qs := by
  simp [carried]

lemma consecutive_append {start : UInt32} {ps qs : List Packet} :
    Consecutive start (ps ++ qs) ↔
      Consecutive start ps ∧ Consecutive (start + UInt32.ofNat (carried ps).length) qs := by
  induction ps generalizing start with
  | nil => simp [Consecutive]
  | cons p ps ih =>
    simp only [List.cons_append, Consecutive, ih, and_assoc, carried_cons, List.length_append, UInt32.ofNat_add,
      UInt32.add_assoc]

structure Packet.Data (ackNumber : UInt32) (p : Packet) : Prop where
  syn : p.syn = false
  fin : p.fin = false
  ackNumber : p.ackNumber = ackNumber

namespace ConnectionState

variable (c : ConnectionState)

lemma receiveAck_frame (tcp : Segment) :
    (c.receiveAck tcp).sendSeq = c.sendSeq ∧ (c.receiveAck tcp).receiveSeq = c.receiveSeq ∧
      (c.receiveAck tcp).receiveWindowScale = c.receiveWindowScale := by
  rw [receiveAck]
  split
  · rw [updateTimestampRecentWithLock]
    split
    · exact ⟨rfl, rfl, rfl⟩
    · split <;> exact ⟨rfl, rfl, rfl⟩
  · exact ⟨rfl, rfl, rfl⟩

lemma receiveAck_of_le {tcp : Segment} (hack : tcp.ack = true) (h : c.receiveSeqAck ≤ tcp.ackNumber) :
    (c.receiveAck tcp).receiveSeqAck = tcp.ackNumber ∧
      (c.receiveAck tcp).receiveWindowSize = tcp.windowSize.toUInt32 <<< c.receiveWindowScale := by
  rw [receiveAck, if_pos ⟨hack, h⟩, updateTimestampRecentWithLock]
  split
  · exact ⟨rfl, rfl⟩
  · split <;> exact ⟨rfl, rfl⟩

lemma data_tcpPacket (payload : List UInt8) (seq now : UInt32) :
    (c.tcpPacket payload seq now).Data c.sendSeq := ⟨rfl, rfl, rfl⟩

lemma length_tcpPacket (payload : List UInt8) (seq now : UInt32) :
    (c.tcpPacket payload seq now).length = payload.length := rfl

lemma dataLoop_spec (byteCount : ℕ) (now : UInt32) (i : ℕ) (payload : List UInt8) :
    Consecutive (c.receiveSeq + UInt32.ofNat i) (c.dataLoop byteCount now i payload) ∧
      carried (c.dataLoop byteCount now i payload) = payload ∧
      totalLength (c.dataLoop byteCount now i payload) = payload.length ∧
      ∀ p ∈ c.dataLoop byteCount now i payload, p.Data c.sendSeq := by
  fun_induction dataLoop c byteCount now i payload with
  | case1 => exact ⟨trivial, rfl, rfl, nofun⟩
  | case2 i b rest ih =>
    obtain ⟨hseq, hbytes, hlength, hdata⟩ := ih
    refine ⟨⟨fun _ => rfl, ?_⟩, ?_, ?_, ?_⟩
    · rw [tcpPacket, UInt32.add_assoc, ← UInt32.ofNat_add]
      exact hseq
    · rw [carried_cons, hbytes]
      exact congrArg (b :: ·) (List.take_append_drop byteCount rest)
    · rw [totalLength_cons, hlength, length_tcpPacket]
      simp only [List.length_cons, List.length_take, List.length_drop]
      omega
    · rw [List.forall_mem_cons]
      exact ⟨c.data_tcpPacket _ _ _, hdata⟩

lemma dataPackets_spec {payload : List UInt8} {mtu : ℤ} {now : UInt32} {packets : List Packet}
    (h : c.dataPackets payload mtu now = .ok packets) :
    Consecutive c.receiveSeq packets ∧ carried packets = payload ∧ totalLength packets = payload.length ∧
      ∀ p ∈ packets, p.Data c.sendSeq := by
  rw [dataPackets] at h
  split at h
  · cases h
  · split at h <;> cases h
    · refine ⟨⟨fun _ => rfl, trivial⟩, List.append_nil payload, Nat.add_zero _, ?_⟩
      rw [List.forall_mem_singleton]
      exact c.data_tcpPacket _ _ _
    · have hloop := c.dataLoop_spec (c.packetByteCount mtu - 1) now 0 payload
      rw [show UInt32.ofNat 0 = 0 from rfl, UInt32.add_zero] at hloop
      exact hloop

end ConnectionState

end UrConnect.Ip.Tcp
