import UrConnect.Encrypt.Session

/-! What one section of a goroutine can change in a session. -/

namespace UrConnect.Encrypt.PeerEncryptionSession

variable {κ : Type} {crypto : Crypto κ} {s : PeerEncryptionSession κ} {task : Task}

lemma modifyEpoch_of_some {e e' : ℕ} {epoch : TlsHandshakeEpoch κ} (f : TlsHandshakeEpoch κ → TlsHandshakeEpoch κ)
    (h : s.epochs[e']? = some epoch) :
    (s.modifyEpoch e f).epochs[e']? = some (if e = e' then f epoch else epoch) := by
  rw [modifyEpoch, List.getElem?_modify, h]
  split <;> rfl

lemma modifyEpoch_some {e e' : ℕ} {epoch' : TlsHandshakeEpoch κ} {f : TlsHandshakeEpoch κ → TlsHandshakeEpoch κ}
    (h : (s.modifyEpoch e f).epochs[e']? = some epoch') :
    ∃ epoch, s.epochs[e']? = some epoch ∧ epoch' = if e = e' then f epoch else epoch := by
  cases hs : s.epochs[e']? with
  | none =>
    rw [modifyEpoch, List.getElem?_modify, hs] at h
    split at h <;> cases h
  | some epoch =>
    rw [modifyEpoch_of_some f hs] at h
    exact ⟨epoch, rfl, (Option.some.inj h).symm⟩

lemma build_of_some {e : ℕ} {epoch : TlsHandshakeEpoch κ} (i : Input) (h : s.epochs[e]? = some epoch) :
    (s.buildAndStartEpochWithLock i).epochs[e]? = some epoch := by
  rw [buildAndStartEpochWithLock, List.getElem?_append_left (List.getElem?_eq_some_iff.mp h).1]
  exact h

lemma build_some {e : ℕ} {epoch' : TlsHandshakeEpoch κ} {i : Input}
    (h : (s.buildAndStartEpochWithLock i).epochs[e]? = some epoch') :
    s.epochs[e]? = some epoch' ∨ epoch' = s.newEpoch i := by
  change (s.epochs ++ [_])[e]? = some epoch' at h
  rw [List.getElem?_append] at h
  split at h
  · exact Or.inl h
  · exact Or.inr (List.mem_singleton.mp (List.mem_of_getElem? h))

lemma newEpoch_unproved (s : PeerEncryptionSession κ) (i : Input) :
    (s.newEpoch i).pendingPeerIdentityProof = [] ∧ (s.newEpoch i).identityFailed = false ∧
      (s.newEpoch i).certVerified = false := by
  rw [newEpoch]
  split
  · exact ⟨rfl, rfl, rfl⟩
  split <;> exact ⟨rfl, rfl, rfl⟩

structure Inert (f : TlsHandshakeEpoch κ → TlsHandshakeEpoch κ) : Prop where
  handshakeDone : ∀ epoch, (f epoch).handshakeDone = epoch.handshakeDone
  handshakeErr : ∀ epoch, (f epoch).handshakeErr = epoch.handshakeErr
  derivedTlsCipher : ∀ epoch, (f epoch).derivedTlsCipher = epoch.derivedTlsCipher
  tlsExporter : ∀ epoch, (f epoch).tlsExporter = epoch.tlsExporter
  pending : ∀ epoch, (f epoch).pendingPeerIdentityProof = epoch.pendingPeerIdentityProof
  pendingGeneration : ∀ epoch, (f epoch).pendingGeneration = epoch.pendingGeneration
  verified : ∀ epoch, (f epoch).peerIdentityVerified = epoch.peerIdentityVerified
  identityFailed : ∀ epoch, (f epoch).identityFailed = epoch.identityFailed

def Noted (crypto : Crypto κ) (s : PeerEncryptionSession κ) (task : Task) : SessionEntry → Prop
  | .fed e generation epochId payload => epochId = s.epochIdOf e ∧ ∃ c : EncryptedControl,
    generation = c.generation ∧ payload = c.payload ∧
      (.handshakeDeliver c e ∈ s.tasks ∨ .optimisticDeliver c e ∈ s.tasks)
  | .matched e expected => s.establishedEpoch = some e ∧ ∃ sealing, task = .certEstablished sealing expected ∧
    crypto.verifyPeerCertificateAgainstContract (s.peerCertificatesOfEpoch crypto (some e)) expected = true
  | .sealed e companionContract committed => .sealFrame companionContract committed e ∈ s.tasks
  | _ => False

inductive Change (crypto : Crypto κ) (s : PeerEncryptionSession κ) (task : Task) : PeerEncryptionSession κ → Prop
  | same : Change crypto s task s
  | build (i : Input) (t : Option ℤ) :
    Change crypto s task ({ s with lastHandshakeFailureTime := t }.buildAndStartEpochWithLock i)
  | complete (e : ℕ) (result : HandshakeResult) (hopen : s.epochs[e]?.any fun epoch => !epoch.handshakeDone) :
    Change crypto s task (s.modifyEpoch e fun epoch => epoch.complete (crypto.handshake e) result)
  | touch (e : ℕ) (f : TlsHandshakeEpoch κ → TlsHandshakeEpoch κ) (hf : Inert f)
    (hid : ∀ epoch, s.epochs[e]? = some epoch → epoch.epochId ≠ Id.zero → (f epoch).epochId = epoch.epochId)
    (hcert : (∀ epoch, (f epoch).certVerified = epoch.certVerified) ∨
      s.epoch = some e ∧ ∃ sealing, task = .markCertVerified sealing) :
    Change crypto s task (s.modifyEpoch e f)
  | judge (e : ℕ) (payload exporter peerPub : List UInt8) (generation : Id)
    (htask : .judge e payload exporter peerPub generation ∈ s.tasks) :
    Change crypto s task (s.judge crypto e payload exporter peerPub generation)
  | key (pub : List UInt8) : Change crypto s task (s.setPeerClientPublicKey pub).1
  | store (c : EncryptedControl) (e : ℕ) (htask : .proofStore c e ∈ s.tasks) : Change crypto s task (s.storeProof c e).1
  | trust (chain : List (List UInt8)) :
    Change crypto s task { s with trustedPeerCertPems := s.trustedPeerCertPems ++ chain.filter (· ≠ []) }
  | note (entry : SessionEntry) (hentry : Noted crypto s task entry) : Change crypto s task (s.log entry)

lemma change_build (i : Input) : Change crypto s task (s.buildAndStartEpochWithLock i) :=
  .build i s.lastHandshakeFailureTime

lemma change_startEpoch (i : Input) : Change crypto s task (s.startEpoch i) := by
  rw [startEpoch]
  split
  · exact change_build i
  · exact .same

lemma change_restartHandshake (i : Input) : Change crypto s task (s.restartHandshake i) := by
  rw [restartHandshake]
  split
  · exact .same
  split
  · exact .same
  split
  · exact .build i _
  · exact change_build i

lemma change_completeHandshake (e : ℕ) (result : HandshakeResult) :
    Change crypto s task (s.completeHandshake crypto e result).1 := by
  rw [completeHandshake]
  split
  · next hopen => exact .complete e result hopen
  · exact .same

lemma change_sendIdentityProofOnce (i : Input) (e : ℕ) : Change crypto s task (s.sendIdentityProofOnce i e) := by
  apply Change.touch
  · constructor <;> intro epoch <;> split <;> rfl
  · intro epoch he hid
    split <;> rfl
  · left
    intro epoch
    split <;> rfl

lemma change_adoptEpochId (e : ℕ) (epochId : Id) : Change crypto s task (s.adoptEpochId e epochId).1 := by
  rw [adoptEpochId]
  split
  · exact .same
  split
  · next hzero =>
    refine .touch e _ (by constructor <;> intro epoch <;> rfl) (fun epoch he hid => absurd ?_ hid) (Or.inl fun _ => rfl)
    rw [← hzero, epochIdOf, he, Option.map_some, Option.getD_some]
  · exact .same

lemma change_feed (c : EncryptedControl) (e : ℕ)
    (htask : .handshakeDeliver c e ∈ s.tasks ∨ .optimisticDeliver c e ∈ s.tasks) : Change crypto s task (s.feed c e) := by
  rw [feed]
  split
  · exact .same
  · exact .note _ ⟨rfl, c, rfl, rfl, htask⟩

lemma change_matchEstablished (e : ℕ) (expected : List (List UInt8)) :
    Change crypto s (.certEstablished e expected) (s.matchEstablished crypto e expected).1 := by
  rw [matchEstablished]
  split
  · next hmatch =>
    cases hestablished : s.establishedEpoch with
    | none => exact .same
    | some established =>
      rw [hestablished] at hmatch
      exact .note _ ⟨hestablished, e, rfl, hmatch⟩
  · exact .same

lemma change_markCertVerified (e : ℕ) : Change crypto s (.markCertVerified e) s.markCertVerified := by
  rw [markCertVerified]
  split
  · exact .same
  · next current hcurrent =>
    exact .touch _ _ (by constructor <;> intro epoch <;> rfl) (fun _ _ _ => rfl) (Or.inr ⟨hcurrent, e, rfl⟩)

lemma change_advance (crypto : Crypto κ) (i : Input) (htask : task ∈ s.tasks) :
    Change crypto s task (s.advance crypto i task).1 := by
  cases task with
  | startEpoch => exact change_startEpoch i
  | restartHandshake => exact change_restartHandshake i
  | reset => exact change_build i
  | convergeToPeerEpoch => exact change_build i
  | completeHandshake e result => exact change_completeHandshake e result
  | sendIdentityProofOnce e => exact change_sendIdentityProofOnce i e
  | judge e payload exporter peerPub generation => exact .judge e payload exporter peerPub generation htask
  | setPeerClientPublicKey pub => exact .key pub
  | markServerFlightSent e =>
    exact .touch e _ (by constructor <;> intro epoch <;> rfl) (fun _ _ _ => rfl) (Or.inl fun _ => rfl)
  | handshakeReset c => exact change_build i
  | handshakeFresh c => exact change_build i
  | handshakeStart c => exact change_startEpoch i
  | handshakeAdopt c e => exact change_adoptEpochId e c.generation
  | handshakeDeliver c e => exact change_feed c e (Or.inl htask)
  | proofStart c epochId => exact change_startEpoch i
  | proofAdopt c epochId e => exact change_adoptEpochId e epochId
  | proofStore c e => exact .store c e htask
  | optimisticDeliver c e =>
    rw [advance]
    split
    · exact .same
    · exact change_feed c e (Or.inr htask)
  | trustChain chain => exact .trust chain
  | certEstablished e expected => exact change_matchEstablished e expected
  | markCertVerified e => exact change_markCertVerified e
  | sealFrame companionContract committed e => exact .note _ htask
  | _ => exact .same

lemma judge_mem_advance {i : Input} {e : ℕ} {payload exporter peerPub : List UInt8} {generation : Id}
    (h : .judge e payload exporter peerPub generation ∈ (s.advance crypto i task).2) :
    (s.advance crypto i task).1 = s ∧ .judge e payload exporter peerPub generation ∈ s.readyProof e := by
  cases task with
  | maybeVerify e' =>
    refine ⟨rfl, ?_⟩
    change _ ∈ s.readyProof e' at h
    obtain rfl : e' = e := by
      rw [readyProof] at h
      split at h
      · cases h
      · split at h
        · cases h
        · exact (Task.judge.inj (List.mem_singleton.mp h)).1.symm
    exact h
  | _ =>
    exfalso
    simp only [advance, completeHandshake, setPeerClientPublicKey, storeProof, matchEstablished] at h
    grind [Option.map_eq_some_iff]

def Entry : Task → Prop
  | .startEpoch => True
  | .restartHandshake => True
  | .reset => True
  | .convergeToPeerEpoch => True
  | .completeHandshake .. => True
  | .markServerFlightSent _ => True
  | .setPeerClientPublicKey _ => True
  | .optimisticHandshake _ => True
  | .optimisticProof _ => True
  | .handshakeCurrent _ => True
  | .handshakeByRole _ => True
  | .proofStart c epochId => epochId = c.generation
  | .addTrustedPeerCertChain .. => True
  | .write _ => True
  | _ => False

lemma entry_of_call {c : Call} (h : task ∈ c.tasks) : Entry task := by
  cases c with
  | optimisticControl c =>
    rw [Call.tasks, optimisticControl] at h
    split at h
    · rw [List.mem_singleton.mp h]
      trivial
    · rw [List.mem_singleton.mp h]
      trivial
    · cases h
  | deliverEncryptedControl c =>
    rw [Call.tasks, deliverEncryptedControl] at h
    split at h
    · cases h
    split at h
    · split at h <;> rw [List.mem_singleton.mp h] <;> trivial
    · rw [List.mem_singleton.mp h]
      rfl
    · cases h
  | _ =>
    rw [List.mem_singleton.mp h]
    trivial

lemma mem_readyProof {e : ℕ} {payload exporter peerPub : List UInt8} {generation : Id}
    (h : .judge e payload exporter peerPub generation ∈ s.readyProof e) :
    ∃ epoch, s.epochs[e]? = some epoch ∧ epoch.pendingPeerIdentityProof = payload ∧ payload ≠ [] ∧
      epoch.tlsExporter = exporter ∧ exporter ≠ [] ∧ s.peerClientPublicKey = peerPub ∧
      peerPub.length = publicKeySize ∧ epoch.pendingGeneration = generation := by
  rw [readyProof] at h
  split at h
  · cases h
  · next epoch hepoch =>
    split at h
    · cases h
    · next hready =>
      simp only [Bool.or_eq_true, decide_eq_true_eq, not_or] at hready
      obtain ⟨-, rfl, rfl, rfl, rfl⟩ := Task.judge.inj (List.mem_singleton.mp h)
      exact ⟨epoch, hepoch, rfl, hready.1.1.2, rfl, hready.1.2, rfl, not_not.mp hready.2, rfl⟩

@[simp] lemma judge_history (e : ℕ) (payload exporter peerPub : List UInt8) (generation : Id) :
    (s.judge crypto e payload exporter peerPub generation).history =
      .judged e generation (s.epochIdOf e) payload (crypto.verifyClientKeySignature peerPub exporter payload) ::
        s.history := by
  rw [judge]
  split
  · rw [markEstablishedWithLock]
    split <;> rfl
  · rfl

lemma judge_epochs (e : ℕ) (payload exporter peerPub : List UInt8) (generation : Id) :
    (s.judge crypto e payload exporter peerPub generation).epochs =
      (s.modifyEpoch e fun epoch =>
        epoch.judged (crypto.verifyClientKeySignature peerPub exporter payload)).epochs := by
  rw [judge]
  split
  · rw [markEstablishedWithLock]
    split <;> rfl
  · rfl

end UrConnect.Encrypt.PeerEncryptionSession
