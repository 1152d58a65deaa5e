import Mathlib.Data.List.Basic

/-! The inspection of a flow: the positive BitTorrent signatures, and the state machine that each packet of an
undecided flow moves forward. The detectors of other traffic are parameters. -/

namespace UrConnect.Security

abbrev Bytes := List UInt8

inductive IpProtocol
  | tcp
  | udp
  | icmp
deriving DecidableEq

structure IpPath where
  protocol : IpProtocol
  sourceIp : Bytes
  sourcePort : ℕ
  destinationIp : Bytes
  destinationPort : ℕ
  syn : Bool
deriving DecidableEq

section Signatures

def bytesOf (s : String) : Bytes := s.toUTF8.toList

def hasPrefix (b start : Bytes) : Bool := start.isPrefixOf b

def contains (b marker : Bytes) : Bool := b.tails.any fun rest => marker.isPrefixOf rest

def firstLine (b : Bytes) : Bytes := b.takeWhile fun c => decide (c ≠ 10)

def bittorrentHandshakePrefix : Bytes := 0x13 :: bytesOf "BitTorrent protocol"

def hasBittorrentHandshake (b : Bytes) : Bool := hasPrefix b bittorrentHandshakePrefix

def hasHttpTrackerRequest (b : Bytes) : Bool :=
  hasPrefix b (bytesOf "GET ") && contains (firstLine b) (bytesOf "info_hash=") &&
    (contains (firstLine b) (bytesOf "/announce") || contains (firstLine b) (bytesOf "/scrape"))

def httpRequestMethods : List Bytes :=
  ["GET ", "HEAD ", "POST ", "PUT ", "DELETE ", "OPTIONS ", "PATCH ", "TRACE "].map bytesOf

def isHttpRequest (b : Bytes) : Bool :=
  httpRequestMethods.any (hasPrefix b) && contains (firstLine b) (bytesOf " HTTP/1.")

def isDhtKrpc (b : Bytes) : Bool :=
  decide (5 ≤ b.length) && hasPrefix b (bytesOf "d") &&
    (hasPrefix b (bytesOf "d1:ad2:id20:") || hasPrefix b (bytesOf "d1:rd2:id20:") ||
      ((contains b (bytesOf "1:y1:q") || contains b (bytesOf "1:y1:r") || contains b (bytesOf "1:y1:e")) &&
        contains b (bytesOf "1:t")))

def udpTrackerConnectMagic : Bytes := [0x00, 0x00, 0x04, 0x17, 0x27, 0x10, 0x19, 0x80]

def isUdpTrackerConnect (b : Bytes) : Bool :=
  decide (16 ≤ b.length) && hasPrefix b udpTrackerConnectMagic && hasPrefix (b.drop 8) [0, 0, 0, 0]

def utpV1CarriesHandshake (b : Bytes) : Bool :=
  match b with
  | first :: second :: _ =>
    decide (20 ≤ b.length) && decide (first &&& 0x0f = 1) && decide (first >>> 4 ≤ 4) && decide (second ≤ 2) &&
      hasBittorrentHandshake (b.drop 20)
  | _ => false

def detectBittorrentSignature (path : IpPath) (b : Bytes) : Bool :=
  match path.protocol with
  | .tcp => hasBittorrentHandshake b || hasHttpTrackerRequest b
  | .udp => isDhtKrpc b || isUdpTrackerConnect b || utpV1CarriesHandshake b
  | .icmp => false

def containsBittorrentSignature (b : Bytes) : Bool :=
  hasBittorrentHandshake b || hasHttpTrackerRequest b || isDhtKrpc b || isUdpTrackerConnect b ||
    utpV1CarriesHandshake b

def anyOffsetBittorrentMarker (b : Bytes) : Bool :=
  contains b bittorrentHandshakePrefix || contains b (bytesOf "info_hash=") || contains b udpTrackerConnectMagic

end Signatures

inductive Verdict
  | inspecting
  | allow
  | dropEncrypted
  | bittorrent
deriving DecidableEq

inductive WebStandard
  | tls
  | dtls
  | quic
  | stun
  | turn
  | rtcp
deriving DecidableEq

inductive AppStandard
  | wireGuard
  | openVpn
  | rtmp
  | levin
  | rakNet
  | ethereumDiscv4
  | ethereumRlpx
  | whatsApp
deriving DecidableEq

inductive SecurityPolicyReason
  | unknown
  | bittorrent
  | dropEncrypted
  | inspecting
  | allowGaming
  | allowMessaging
  | allowWeb (standard : WebStandard)
  | allowApp (standard : AppStandard)
  | allowRtp
  | allowHttp
  | allowPlaintext
  | allowBudget
deriving DecidableEq

def isDpiAppAdmitReason : SecurityPolicyReason → Bool
  | .allowGaming | .allowMessaging | .allowApp _ => true
  | _ => false

structure RtpHeader where
  ssrc : UInt32
  timestamp : UInt32
  sequence : UInt16
  payloadType : UInt8
deriving DecidableEq

structure RtpCandidate where
  ssrc : UInt32
  timestamp : UInt32
  sequence : UInt16
  payloadType : UInt8
  packets : UInt8
deriving DecidableEq

structure Detectors (κ : Type) where
  isSanctionedGamingEndpoint : IpPath → Bool
  isSanctionedMessagingEndpoint : IpPath → Bool
  matchReason : IpPath → Bytes → Option WebStandard
  rtpHeader : IpPath → Bytes → Option RtpHeader
  appMatch : IpPath → (payload : Bytes) → (first : Bool) → Option (AppStandard × Fin (payload.length + 1))
  /-- The standard that the payload confirms, or the candidate that continues in the next one. -/
  appConfirm : κ → IpPath → Bytes → Option (AppStandard ⊕ κ)
  appOpen : IpPath → Bytes → (first : Bool) → Option κ
  looksRandom : Bytes → Bool

structure DmcaSettings where
  dropUnsanctionedEncrypted : Bool
  inspectionPacketBudget : ℕ
  encryptedDecisionPackets : ℕ
  maxInspectionPayload : ℕ
  minEncryptedPayload : ℕ

structure FlowState (κ : Type) where
  terminal : Verdict
  terminalReason : SecurityPolicyReason
  inspectedPackets : ℕ
  encryptedPackets : ℕ
  sawObservation : Bool
  sawFlowStart : Bool
  sawPlaintext : Bool
  rtpCandidates : Option RtpCandidate × Option RtpCandidate
  appCandidate : Option κ
  appReason : SecurityPolicyReason

structure Packet where
  path : IpPath
  payload : Bytes

structure Answer where
  verdict : Verdict
  reason : SecurityPolicyReason
  decided : Bool
deriving DecidableEq

namespace FlowState

variable {κ : Type}

def new : FlowState κ where
  terminal := .inspecting
  terminalReason := .unknown
  inspectedPackets := 0
  encryptedPackets := 0
  sawObservation := false
  sawFlowStart := false
  sawPlaintext := false
  rtpCandidates := (none, none)
  appCandidate := none
  appReason := .unknown

def setTerminal (st : FlowState κ) (v : Verdict) (reason : SecurityPolicyReason) : FlowState κ × Answer :=
  ({ st with
      terminalReason := reason
      terminal := v },
    ⟨v, reason, true⟩)

def terminalVerdict (st : FlowState κ) : Verdict × SecurityPolicyReason :=
  if st.terminal = .inspecting then (.inspecting, .inspecting) else (st.terminal, st.terminalReason)

def newRtpCandidate (header : RtpHeader) : RtpCandidate :=
  ⟨header.ssrc, header.timestamp, header.sequence, header.payloadType, 1⟩

def continueRtp (candidate : RtpCandidate) (header : RtpHeader) : RtpCandidate × Bool :=
  let delta := header.sequence - candidate.sequence
  if delta = 0 ∨ 0x8000 ≤ delta then (candidate, false)
  else if 64 < delta ∨ 0x80000000 ≤ header.timestamp - candidate.timestamp then (newRtpCandidate header, false)
  else
    let packets := if candidate.packets < 0xff then candidate.packets + 1 else candidate.packets
    (⟨candidate.ssrc, header.timestamp, header.sequence, candidate.payloadType, packets⟩, decide (2 ≤ packets))

def ofStream (header : RtpHeader) (candidate : RtpCandidate) : Bool :=
  candidate.ssrc = header.ssrc ∧ candidate.payloadType = header.payloadType

def observeRtp (st : FlowState κ) (header : RtpHeader) : FlowState κ × Bool :=
  let candidate := newRtpCandidate header
  match st.rtpCandidates with
  | (some a, some b) =>
    if ofStream header a then
      ({ st with rtpCandidates := (some (continueRtp a header).1, some b) }, (continueRtp a header).2)
    else if ofStream header b then
      ({ st with rtpCandidates := (some a, some (continueRtp b header).1) }, (continueRtp b header).2)
    else if b.packets < a.packets then ({ st with rtpCandidates := (some a, some candidate) }, false)
    else ({ st with rtpCandidates := (some candidate, some b) }, false)
  | (some a, none) =>
    if ofStream header a then
      ({ st with rtpCandidates := (some (continueRtp a header).1, none) }, (continueRtp a header).2)
    else ({ st with rtpCandidates := (some a, some candidate) }, false)
  | (none, some b) =>
    if ofStream header b then
      ({ st with rtpCandidates := (none, some (continueRtp b header).1) }, (continueRtp b header).2)
    else ({ st with rtpCandidates := (some candidate, some b) }, false)
  -- Both slots are free: the last one found free is taken.
  | (none, none) => ({ st with rtpCandidates := (none, some candidate) }, false)

variable (s : DmcaSettings)

def allowAppStandard (st : FlowState κ) (b : Bytes) (reason : SecurityPolicyReason) : FlowState κ × Answer :=
  if anyOffsetBittorrentMarker b then st.setTerminal .bittorrent .bittorrent
  else
    let st := { st with appReason := reason }
    if s.inspectionPacketBudget ≤ st.inspectedPackets then st.setTerminal .allow reason
    else (st, ⟨.allow, reason, false⟩)

def holdAppCandidate (st : FlowState κ) (candidate : κ) : FlowState κ × Answer :=
  let st := { st with appCandidate := some candidate }
  if s.inspectionPacketBudget ≤ st.inspectedPackets then st.setTerminal .allow .allowBudget
  else (st, ⟨.inspecting, .inspecting, false⟩)

variable (d : Detectors κ)

def payloadLooksEncrypted (b : Bytes) : Bool := decide (s.minEncryptedPayload ≤ b.length) && d.looksRandom b

def judgeEntropy (st : FlowState κ) (b : Bytes) : FlowState κ × Answer :=
  let st :=
    if payloadLooksEncrypted s d b then { st with encryptedPackets := st.encryptedPackets + 1 }
    else if s.minEncryptedPayload ≤ b.length then { st with sawPlaintext := true }
    else st
  let decisionPackets := min s.encryptedDecisionPackets s.inspectionPacketBudget
  if st.sawPlaintext then st.setTerminal .allow .allowPlaintext
  else if s.dropUnsanctionedEncrypted ∧ st.sawFlowStart ∧ decisionPackets ≤ st.encryptedPackets then
    st.setTerminal .dropEncrypted .dropEncrypted
  else if s.inspectionPacketBudget ≤ st.inspectedPackets then st.setTerminal .allow .allowBudget
  else (st, ⟨.inspecting, .inspecting, false⟩)

def judgeRtp (st : FlowState κ) (p : Packet) : FlowState κ × Bool :=
  match d.rtpHeader p.path p.payload with
  | some header => st.observeRtp header
  | none => (st, false)

def judgeUnidentified (st : FlowState κ) (p : Packet) (b : Bytes) : FlowState κ × Answer :=
  if d.isSanctionedMessagingEndpoint p.path then st.allowAppStandard s b .allowMessaging
  else
    let observed := st.judgeRtp d p
    if observed.2 then observed.1.setTerminal .allow .allowRtp
    else if isHttpRequest b then observed.1.setTerminal .allow .allowHttp
    else observed.1.judgeEntropy s d b

def openCandidate (st : FlowState κ) (p : Packet) (b : Bytes) : FlowState κ × Answer :=
  match d.appOpen p.path p.payload (st.inspectedPackets == 1) with
  | some candidate =>
    if anyOffsetBittorrentMarker b then st.setTerminal .bittorrent .bittorrent
    else st.holdAppCandidate s candidate
  | none => st.judgeUnidentified s d p b

def judgeCandidate (st : FlowState κ) (p : Packet) (b : Bytes) : FlowState κ × Answer :=
  match st.appCandidate with
  | some candidate =>
    let st := { st with appCandidate := none }
    match d.appConfirm candidate p.path p.payload with
    | some (.inl standard) => st.allowAppStandard s b (.allowApp standard)
    | some (.inr continued) => st.holdAppCandidate s continued
    | none => st.openCandidate s d p b
  | none => st.openCandidate s d p b

def judgeStandards (st : FlowState κ) (p : Packet) (b : Bytes) : FlowState κ × Answer :=
  match d.matchReason p.path p.payload with
  | some standard => st.setTerminal .allow (.allowWeb standard)
  | none =>
    match d.appMatch p.path p.payload (st.inspectedPackets == 1) with
    | some (standard, headerEnd) =>
      if containsBittorrentSignature ((p.payload.drop headerEnd).take s.maxInspectionPayload) then
        st.setTerminal .bittorrent .bittorrent
      else st.allowAppStandard s b (.allowApp standard)
    | none => st.judgeCandidate s d p b

def inspect (st : FlowState κ) (p : Packet) : FlowState κ × Answer :=
  let b := p.payload.take s.maxInspectionPayload
  if detectBittorrentSignature p.path b then st.setTerminal .bittorrent .bittorrent
  else if st.appReason ≠ .unknown then
    if anyOffsetBittorrentMarker b then st.setTerminal .bittorrent .bittorrent
    else if s.inspectionPacketBudget ≤ st.inspectedPackets then st.setTerminal .allow st.appReason
    else (st, ⟨.allow, st.appReason, false⟩)
  else if d.isSanctionedGamingEndpoint p.path then st.allowAppStandard s b .allowGaming
  else st.judgeStandards s d p b

def startsFlow (path : IpPath) : Bool := path.protocol ≠ .tcp || path.syn

def observe (st : FlowState κ) (path : IpPath) : FlowState κ :=
  if st.sawObservation then st
  else
    { st with
      sawObservation := true
      sawFlowStart := startsFlow path }

def advance (st : FlowState κ) (p : Packet) : FlowState κ × Answer :=
  if st.terminal ≠ .inspecting then (st, ⟨st.terminalVerdict.1, st.terminalVerdict.2, false⟩)
  else
    let st := st.observe p.path
    if p.payload.length = 0 then (st, ⟨.inspecting, .inspecting, false⟩)
    else { st with inspectedPackets := st.inspectedPackets + 1 }.inspect s d p

end FlowState

end UrConnect.Security
