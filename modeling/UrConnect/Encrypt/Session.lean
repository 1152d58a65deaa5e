import UrConnect.Base

/-! One peer encryption session. The goroutines that share it are tasks: each is about to enter one
section under the session's lock, and a section leaves the tasks that follow it. -/

namespace UrConnect

namespace Id

def lessBytes : List UInt8 → List UInt8 → Bool
  | a :: as, b :: bs => if a < b then true else if b < a then false else lessBytes as bs
  | _, _ => false

def lessThan (a b : Id) : Bool := lessBytes a.bytes b.bytes

end Id

namespace Encrypt

inductive SequenceTlsRole where
  | client
  | server
deriving DecidableEq

def SequenceTlsRole.complement : SequenceTlsRole → SequenceTlsRole
  | .client => .server
  | .server => .client

def publicKeySize : ℕ := 32

def signatureSize : ℕ := 64

structure Handshake (κ : Type) where
  cipher : κ
  exporter : List UInt8
  peerCertificates : List (List UInt8)

/-- TLS, Ed25519 and X.509 as a session meets them; the handshakes are counted by epoch. -/
structure Crypto (κ : Type) where
  handshake : ℕ → Handshake κ
  verify : List UInt8 → List UInt8 → List UInt8 → Bool
  canonicalCertChainBytes : List (List UInt8) → List UInt8
  parsePemCertificates : List (List UInt8) → Option (List (List UInt8))

namespace Crypto

variable {κ : Type} (crypto : Crypto κ)

def verifyClientKeySignature (peerPub data sig : List UInt8) : Bool :=
  peerPub.length = publicKeySize && sig.length = signatureSize && crypto.verify peerPub data sig

def verifyCertChainSignature (peerPub : List UInt8) (chain : List (List UInt8)) (sig : List UInt8) : Bool :=
  crypto.verifyClientKeySignature peerPub (crypto.canonicalCertChainBytes chain) sig

/-- `false` also where the source returns an error. -/
def verifyPeerCertificateAgainstContract (peer expectedPems : List (List UInt8)) : Bool :=
  if expectedPems = [] then true
  else match peer, crypto.parsePemCertificates expectedPems with
    | peerLeaf :: _, some expected => expected.contains peerLeaf
    | _, _ => false

end Crypto

inductive EncryptedControlType where
  | handshake
  | identityProof
  | other
deriving DecidableEq

structure EncryptedControl where
  controlType : EncryptedControlType
  payload : List UInt8
  epochId : List UInt8
deriving DecidableEq

def EncryptedControl.generation (c : EncryptedControl) : Id :=
  match idFromBytes c.epochId with
  | .ok id => id
  | .error _ => Id.zero

inductive HandshakeResult where
  | completed
  | noCipher (fault : Fault)
  | noExporter (fault : Fault)
  | failed (fault : Fault)
deriving DecidableEq

/-- `pendingGeneration` is the generation of the control that brought the pending proof; the code
does not keep it. -/
structure TlsHandshakeEpoch (κ : Type) where
  epochId : Id
  handshakeDone : Bool
  handshakeErr : Option Fault
  derivedTlsCipher : Option κ
  certVerified : Bool
  tlsExporter : List UInt8
  identityProofSent : Bool
  pendingPeerIdentityProof : List UInt8
  pendingGeneration : Id
  peerIdentityVerified : Bool
  identityFailed : Bool
  serverFlightSent : Bool
deriving DecidableEq

namespace TlsHandshakeEpoch

variable {κ : Type}

def fresh : TlsHandshakeEpoch κ where
  epochId := Id.zero
  handshakeDone := false
  handshakeErr := none
  derivedTlsCipher := none
  certVerified := false
  tlsExporter := []
  identityProofSent := false
  pendingPeerIdentityProof := []
  pendingGeneration := Id.zero
  peerIdentityVerified := false
  identityFailed := false
  serverFlightSent := false

def failed (e : TlsHandshakeEpoch κ) : Bool := e.handshakeErr.isSome || e.identityFailed

def complete (h : Handshake κ) (e : TlsHandshakeEpoch κ) : HandshakeResult → TlsHandshakeEpoch κ
  | .completed =>
    { e with
      derivedTlsCipher := some h.cipher
      tlsExporter := h.exporter
      handshakeErr := none
      handshakeDone := true }
  | .noCipher fault => { e with handshakeErr := some fault, handshakeDone := true }
  | .noExporter fault =>
    { e with
      derivedTlsCipher := some h.cipher
      handshakeErr := some fault
      handshakeDone := true }
  | .failed fault => { e with handshakeErr := some fault, handshakeDone := true }

def judged (ok : Bool) (e : TlsHandshakeEpoch κ) : TlsHandshakeEpoch κ :=
  { e with
    pendingPeerIdentityProof := []
    peerIdentityVerified := e.peerIdentityVerified || ok
    identityFailed := e.identityFailed || !ok }

end TlsHandshakeEpoch

inductive Task where
  | startEpoch
  | restartHandshake
  | reset
  | convergeToPeerEpoch
  | completeHandshake (e : ℕ) (result : HandshakeResult)
  | handshakeCompleted (e : ℕ)
  | sendIdentityProofOnce (e : ℕ)
  | maybeVerify (e : ℕ)
  | judge (e : ℕ) (payload exporter peerPub : List UInt8) (generation : Id)
  | setPeerClientPublicKey (pub : List UInt8)
  | verifyCurrent
  | markServerFlightSent (e : ℕ)
  | handshakeCurrent (c : EncryptedControl)
  | handshakeCompare (c : EncryptedControl) (e : ℕ)
  | handshakeReset (c : EncryptedControl)
  | handshakeByRole (c : EncryptedControl)
  | handshakeClosed (c : EncryptedControl) (e : ℕ)
  | handshakeFresh (c : EncryptedControl)
  | handshakeStart (c : EncryptedControl)
  | handshakeEpoch (c : EncryptedControl)
  | handshakeAdopt (c : EncryptedControl) (e : ℕ)
  | handshakeDeliver (c : EncryptedControl) (e : ℕ)
  | proofStart (c : EncryptedControl) (epochId : Id)
  | proofEpoch (c : EncryptedControl) (epochId : Id)
  | proofCompare (c : EncryptedControl) (epochId : Id) (e : ℕ)
  | proofAdopt (c : EncryptedControl) (epochId : Id) (e : ℕ)
  | proofStore (c : EncryptedControl) (e : ℕ)
  | optimisticHandshake (c : EncryptedControl)
  | optimisticAwaiting (c : EncryptedControl)
  | optimisticEpoch (c : EncryptedControl)
  | optimisticDeliver (c : EncryptedControl) (e : ℕ)
  | optimisticProof (c : EncryptedControl)
  | addTrustedPeerCertChain (chain : List (List UInt8)) (chainSig : List UInt8)
  | trustChain (chain : List (List UInt8))
  | write (companionContract : Bool)
  | certState (companionContract : Bool) (e : ℕ)
  | certSnapshot (e : ℕ)
  | certEstablished (e : ℕ) (expected : List (List UInt8))
  | markCertVerified (e : ℕ)
  | sealFrame (companionContract committed : Bool) (e : ℕ)
deriving DecidableEq

/-- What the sections did, with the id of the epoch and the generation of the control at that time;
`committed` says that the trusted set was not empty when the write looked. -/
inductive SessionEntry where
  | keyPassed (pub : List UInt8)
  | fed (e : ℕ) (generation epochId : Id) (payload : List UInt8)
  | buffered (e : ℕ) (generation epochId : Id) (payload : List UInt8)
  | judged (e : ℕ) (generation epochId : Id) (payload : List UInt8) (ok : Bool)
  | malformed (e : ℕ) (generation epochId : Id)
  | matched (e : ℕ) (expected : List (List UInt8))
  | sealed (e : ℕ) (companionContract committed : Bool)
deriving DecidableEq

/-- Epochs are named by their place in `epochs`. -/
structure PeerEncryptionSession (κ : Type) where
  role : SequenceTlsRole
  epochs : List (TlsHandshakeEpoch κ)
  epoch : Option ℕ
  establishedEpoch : Option ℕ
  priorEstablishedEpoch : Option ℕ
  lastHandshakeFailureTime : Option ℤ
  peerClientPublicKey : List UInt8
  trustedPeerCertPems : List (List UInt8)
  tasks : List Task
  history : List SessionEntry
deriving DecidableEq

def newPeerEncryptionSession (κ : Type) (role : SequenceTlsRole) : PeerEncryptionSession κ where
  role := role
  epochs := []
  epoch := none
  establishedEpoch := none
  priorEstablishedEpoch := none
  lastHandshakeFailureTime := none
  peerClientPublicKey := []
  trustedPeerCertPems := []
  tasks := []
  history := []

/-- What a section can find outside the session: the clock, the next id of `NewId`, and whether
there is a server certificate, a client key and a cipher that sealed too often. -/
structure Input where
  now : ℤ
  newId : Id
  serverTlsConfig : Bool
  clientKeyManager : Bool
  shouldRekey : Bool

def restartHandshakeCooldown : ℤ := 5000000000

def isClientHelloRecord (b : List UInt8) : Bool :=
  6 ≤ b.length && b.getD 0 0 = 22 && b.getD 5 0 = 1

def isClientSecondFlightPrefix : List UInt8 → Bool
  | [] => false
  | b :: _ => b = 20 || b = 23

namespace PeerEncryptionSession

variable {κ : Type} (s : PeerEncryptionSession κ) (crypto : Crypto κ)

def log (entry : SessionEntry) : PeerEncryptionSession κ := { s with history := entry :: s.history }

def modifyEpoch (e : ℕ) (f : TlsHandshakeEpoch κ → TlsHandshakeEpoch κ) : PeerEncryptionSession κ :=
  { s with epochs := s.epochs.modify e f }

def epochIdOf (e : ℕ) : Id := (s.epochs[e]?.map TlsHandshakeEpoch.epochId).getD Id.zero

def currentEpoch : Option (TlsHandshakeEpoch κ) := s.epoch.bind (s.epochs[·]?)

def isClosed (e : ℕ) : Bool := s.epochs[e]?.any TlsHandshakeEpoch.handshakeDone

def cipher : Option κ :=
  (s.establishedEpoch.bind (s.epochs[·]?)).bind TlsHandshakeEpoch.derivedTlsCipher

def decryptCiphers : List κ :=
  ([s.establishedEpoch, s.priorEstablishedEpoch].filterMap fun e =>
    (e.bind (s.epochs[·]?)).bind TlsHandshakeEpoch.derivedTlsCipher)

def newEpoch (i : Input) : TlsHandshakeEpoch κ :=
  match s.role with
  | .client => { TlsHandshakeEpoch.fresh with epochId := i.newId }
  | .server =>
    if i.serverTlsConfig then TlsHandshakeEpoch.fresh
    else { TlsHandshakeEpoch.fresh with
      handshakeErr := some (.message "server tls config unavailable")
      handshakeDone := true }

def buildAndStartEpochWithLock (i : Input) : PeerEncryptionSession κ :=
  { s with epochs := s.epochs ++ [s.newEpoch i], epoch := some s.epochs.length }

def startEpoch (i : Input) : PeerEncryptionSession κ :=
  if s.epoch = none then s.buildAndStartEpochWithLock i else s

def superseding : Bool := s.epoch ≠ s.establishedEpoch

def handshakeInFlightLocked : Bool :=
  s.currentEpoch.any fun e => s.superseding && !e.failed

def failedEpoch : Bool := s.currentEpoch.any fun e => s.superseding && e.failed

def restartHandshake (i : Input) : PeerEncryptionSession κ :=
  if s.handshakeInFlightLocked then s
  else if s.failedEpoch && s.lastHandshakeFailureTime.any fun t => i.now - t < restartHandshakeCooldown then s
  else if s.failedEpoch then
    { s with lastHandshakeFailureTime := some i.now }.buildAndStartEpochWithLock i
  else s.buildAndStartEpochWithLock i

def markEstablishedWithLock (e : ℕ) : PeerEncryptionSession κ :=
  if s.establishedEpoch = some e then s
  else { s with priorEstablishedEpoch := s.establishedEpoch, establishedEpoch := some e }

def completeHandshake (e : ℕ) (result : HandshakeResult) : PeerEncryptionSession κ × List Task :=
  if s.epochs[e]?.any fun epoch => !epoch.handshakeDone then
    (s.modifyEpoch e fun epoch => epoch.complete (crypto.handshake e) result,
      if result = .completed then [.handshakeCompleted e] else [])
  else (s, [])

def sendIdentityProofOnce (i : Input) (e : ℕ) : PeerEncryptionSession κ :=
  s.modifyEpoch e fun epoch =>
    if !epoch.identityProofSent && epoch.tlsExporter ≠ [] && i.clientKeyManager then
      { epoch with identityProofSent := true }
    else epoch

def readyProof (e : ℕ) : List Task :=
  match s.epochs[e]? with
  | none => []
  | some epoch =>
    if epoch.peerIdentityVerified || epoch.identityFailed || epoch.pendingPeerIdentityProof = [] ||
        epoch.tlsExporter = [] || s.peerClientPublicKey.length ≠ publicKeySize then []
    else [.judge e epoch.pendingPeerIdentityProof epoch.tlsExporter s.peerClientPublicKey
      epoch.pendingGeneration]

def judge (e : ℕ) (payload exporter peerPub : List UInt8) (generation : Id) : PeerEncryptionSession κ :=
  let ok := crypto.verifyClientKeySignature peerPub exporter payload
  let judged := (s.modifyEpoch e fun epoch => epoch.judged ok).log
    (.judged e generation (s.epochIdOf e) payload ok)
  if ok && s.epoch = some e then judged.markEstablishedWithLock e else judged

def setPeerClientPublicKey (pub : List UInt8) : PeerEncryptionSession κ × List Task :=
  let passed := s.log (.keyPassed pub)
  if pub.length ≠ publicKeySize then (passed, [])
  else if s.peerClientPublicKey = [] then ({ passed with peerClientPublicKey := pub }, [.verifyCurrent])
  else (passed, [])

def adoptEpochId (e : ℕ) (epochId : Id) : PeerEncryptionSession κ × Bool :=
  if epochId = Id.zero then (s, true)
  else if s.epochIdOf e = Id.zero then (s.modifyEpoch e fun epoch => { epoch with epochId := epochId }, true)
  else (s, s.epochIdOf e = epochId)

def feed (c : EncryptedControl) (e : ℕ) : PeerEncryptionSession κ :=
  if c.payload = [] then s else s.log (.fed e c.generation (s.epochIdOf e) c.payload)

def isAwaitingClientFinished : Bool :=
  s.role = .server && s.currentEpoch.any fun e => !e.handshakeDone && e.serverFlightSent

def storeProof (c : EncryptedControl) (e : ℕ) : PeerEncryptionSession κ × List Task :=
  match s.epochs[e]? with
  | none => (s, [])
  | some epoch =>
    if epoch.peerIdentityVerified || epoch.identityFailed || epoch.pendingPeerIdentityProof ≠ [] then (s, [])
    else if c.payload.length ≠ signatureSize then
      ((s.modifyEpoch e fun epoch => { epoch with identityFailed := true }).log
        (.malformed e c.generation (s.epochIdOf e)), [])
    else
      ((s.modifyEpoch e fun epoch =>
        { epoch with
          pendingPeerIdentityProof := c.payload
          pendingGeneration := c.generation }).log
        (.buffered e c.generation (s.epochIdOf e) c.payload), [.maybeVerify e])

def peerCertificatesOfEpoch (e : Option ℕ) : List (List UInt8) :=
  match e with
  | none => []
  | some e =>
    if (s.epochs[e]?.bind TlsHandshakeEpoch.derivedTlsCipher).isSome then
      (crypto.handshake e).peerCertificates
    else []

def certVerified : Bool := s.currentEpoch.any TlsHandshakeEpoch.certVerified

def markCertVerified : PeerEncryptionSession κ :=
  match s.epoch with
  | none => s
  | some e => s.modifyEpoch e fun epoch => { epoch with certVerified := true }

def matchEstablished (e : ℕ) (expected : List (List UInt8)) : PeerEncryptionSession κ × List Task :=
  if crypto.verifyPeerCertificateAgainstContract
      (s.peerCertificatesOfEpoch crypto s.establishedEpoch) expected then
    ((s.establishedEpoch.map fun established => s.log (.matched established expected)).getD s,
      [.markCertVerified e])
  else (s, [])

def deliverEncryptedControl (c : EncryptedControl) : List Task :=
  if c.epochId ≠ [] && c.generation = Id.zero then []
  else match c.controlType with
    | .handshake => if c.generation = Id.zero then [.handshakeByRole c] else [.handshakeCurrent c]
    | .identityProof => [.proofStart c c.generation]
    | .other => []

def optimisticControl (c : EncryptedControl) : List Task :=
  match c.controlType with
  | .handshake => [.optimisticHandshake c]
  | .identityProof => [.optimisticProof c]
  | .other => []

def advance (i : Input) : Task → PeerEncryptionSession κ × List Task
  | .startEpoch => (s.startEpoch i, [])
  | .restartHandshake => (s.restartHandshake i, [])
  | .reset => (s.buildAndStartEpochWithLock i, [])
  | .convergeToPeerEpoch => (s.buildAndStartEpochWithLock i, [])
  | .completeHandshake e result => s.completeHandshake crypto e result
  | .handshakeCompleted e => (s, if s.epoch = some e then [.sendIdentityProofOnce e] else [])
  | .sendIdentityProofOnce e => (s.sendIdentityProofOnce i e, [.maybeVerify e])
  | .maybeVerify e => (s, s.readyProof e)
  | .judge e payload exporter peerPub generation => (s.judge crypto e payload exporter peerPub generation, [])
  | .setPeerClientPublicKey pub => s.setPeerClientPublicKey pub
  | .verifyCurrent => (s, (s.epoch.map Task.maybeVerify).toList)
  | .markServerFlightSent e => (s.modifyEpoch e fun epoch => { epoch with serverFlightSent := true }, [])
  | .handshakeCurrent c =>
    (s, match s.epoch with
      | none => [.handshakeByRole c]
      | some e => [.handshakeCompare c e])
  | .handshakeCompare c e =>
    (s, if s.epochIdOf e = Id.zero || s.epochIdOf e = c.generation then [.handshakeByRole c]
      else if (s.epochIdOf e).lessThan c.generation then [.handshakeReset c]
      else [])
  | .handshakeReset c => (s.buildAndStartEpochWithLock i, [.handshakeByRole c])
  | .handshakeByRole c =>
    (s, match s.epoch with
      | none => if s.role = .server && isClientHelloRecord c.payload then [.handshakeFresh c] else [.handshakeStart c]
      | some e => [.handshakeClosed c e])
  | .handshakeClosed c e =>
    (s, if !s.isClosed e then [.handshakeStart c]
      else if s.role = .server && isClientHelloRecord c.payload then [.handshakeFresh c]
      else [])
  | .handshakeFresh c => (s.buildAndStartEpochWithLock i, [.handshakeStart c])
  | .handshakeStart c => (s.startEpoch i, [.handshakeEpoch c])
  | .handshakeEpoch c => (s, (s.epoch.map (Task.handshakeAdopt c)).toList)
  | .handshakeAdopt c e =>
    ((s.adoptEpochId e c.generation).1, if (s.adoptEpochId e c.generation).2 then [.handshakeDeliver c e] else [])
  | .handshakeDeliver c e => (s.feed c e, [])
  | .proofStart c epochId => (s.startEpoch i, [.proofEpoch c epochId])
  | .proofEpoch c epochId =>
    (s, match s.epoch with
      | none => []
      | some e => if epochId = Id.zero then [.proofStore c e] else [.proofCompare c epochId e])
  | .proofCompare c epochId e =>
    (s, if s.epochIdOf e = Id.zero then [.proofAdopt c epochId e]
      else if s.epochIdOf e = epochId then [.proofStore c e]
      else if (s.epochIdOf e).lessThan epochId then [.convergeToPeerEpoch]
      else [])
  -- the answer of `adoptEpochId` is not looked at
  | .proofAdopt c epochId e => ((s.adoptEpochId e epochId).1, [.proofStore c e])
  | .proofStore c e => s.storeProof c e
  | .optimisticHandshake c => (s, if s.isAwaitingClientFinished then [.optimisticAwaiting c] else [])
  | .optimisticAwaiting c =>
    (s, if s.isAwaitingClientFinished && isClientSecondFlightPrefix c.payload then [.optimisticEpoch c] else [])
  | .optimisticEpoch c => (s, (s.epoch.map (Task.optimisticDeliver c)).toList)
  | .optimisticDeliver c e => (if s.isClosed e then s else s.feed c e, [])
  | .optimisticProof c => (s, if s.epoch = none then [] else [.proofStart c Id.zero])
  | .addTrustedPeerCertChain chain chainSig =>
    (s, if chain ≠ [] && s.peerClientPublicKey.length = publicKeySize && chainSig ≠ [] &&
        crypto.verifyCertChainSignature s.peerClientPublicKey chain chainSig then [.trustChain chain]
      else [])
  | .trustChain chain =>
    ({ s with trustedPeerCertPems := s.trustedPeerCertPems ++ chain.filter (· ≠ []) }, [])
  | .write companionContract =>
    (s, if s.cipher.isSome then (s.establishedEpoch.map (Task.certState companionContract)).toList else [])
  | .certState companionContract e =>
    (s, if companionContract || s.certVerified || s.trustedPeerCertPems = [] then
        [.sealFrame companionContract (s.trustedPeerCertPems ≠ []) e]
      else [.certSnapshot e])
  | .certSnapshot e => (s, [.certEstablished e s.trustedPeerCertPems])
  | .certEstablished e expected => s.matchEstablished crypto e expected
  | .markCertVerified e => (s.markCertVerified, [.sealFrame false true e])
  | .sealFrame companionContract committed e =>
    (s.log (.sealed e companionContract committed), if i.shouldRekey then [.restartHandshake] else [])

inductive Call where
  | startEpoch
  | restartHandshake
  | reset
  | convergeToPeerEpoch
  | completeHandshake (e : ℕ) (result : HandshakeResult)
  | markServerFlightSent (e : ℕ)
  | setPeerClientPublicKey (pub : List UInt8)
  | optimisticControl (c : EncryptedControl)
  | deliverEncryptedControl (c : EncryptedControl)
  | addTrustedPeerCertChain (chain : List (List UInt8)) (chainSig : List UInt8)
  | write (companionContract : Bool)
deriving DecidableEq

def Call.tasks : Call → List Task
  | .startEpoch => [.startEpoch]
  | .restartHandshake => [.restartHandshake]
  | .reset => [.reset]
  | .convergeToPeerEpoch => [.convergeToPeerEpoch]
  | .completeHandshake e result => [.completeHandshake e result]
  | .markServerFlightSent e => [.markServerFlightSent e]
  | .setPeerClientPublicKey pub => [.setPeerClientPublicKey pub]
  | .optimisticControl c => PeerEncryptionSession.optimisticControl c
  | .deliverEncryptedControl c => PeerEncryptionSession.deliverEncryptedControl c
  | .addTrustedPeerCertChain chain chainSig => [.addTrustedPeerCertChain chain chainSig]
  | .write companionContract => [.write companionContract]

inductive Event where
  | call (c : Call)
  | advance (n : ℕ) (i : Input)

def step (s : PeerEncryptionSession κ) : Event → PeerEncryptionSession κ
  | .call c => { s with tasks := s.tasks ++ c.tasks }
  | .advance n i =>
    match s.tasks[n]? with
    | none => s
    | some task =>
      { (s.advance crypto i task).1 with
        tasks := s.tasks.take n ++ (s.advance crypto i task).2 ++ s.tasks.drop (n + 1) }

end PeerEncryptionSession

end Encrypt

end UrConnect
