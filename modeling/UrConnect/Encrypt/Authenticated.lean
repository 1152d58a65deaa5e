import Mathlib
import UrConnect.Encrypt.SessionChanges
import UrConnect.Lib.Runs

/-! A session exposes only the ciphers of epochs whose peer proved its identity, and keeps them. -/

namespace UrConnect.Encrypt.PeerEncryptionSession

open Lib.Runs

variable {κ : Type} {crypto : Crypto κ} {s s' : PeerEncryptionSession κ} {task : Task} {e : ℕ}

def passedKey : SessionEntry → Option (List UInt8)
  | .keyPassed pub => some pub
  | _ => none

def keysPassed (history : List SessionEntry) : List (List UInt8) := history.reverse.filterMap passedKey

def firstKey (history : List SessionEntry) : Option (List UInt8) :=
  (keysPassed history).find? fun pub => pub.length = publicKeySize

def Received (history : List SessionEntry) (e : ℕ) (payload : List UInt8) : Prop :=
  ∃ generation epochId, .buffered e generation epochId payload ∈ history

def Proved (crypto : Crypto κ) (history : List SessionEntry) (key : List UInt8) (e : ℕ) : Prop :=
  ∃ payload, Received history e payload ∧
    crypto.verifyClientKeySignature key (crypto.handshake e).exporter payload = true

lemma Received.mono {history history' : List SessionEntry} {payload : List UInt8}
    (hsub : history ⊆ history') (h : Received history e payload) : Received history' e payload := by
  obtain ⟨generation, epochId, hmem⟩ := h
  exact ⟨generation, epochId, hsub hmem⟩

structure EpochSound (crypto : Crypto κ) (history : List SessionEntry) (key : List UInt8) (e : ℕ)
    (epoch : TlsHandshakeEpoch κ) : Prop where
  exported : epoch.tlsExporter ≠ [] → epoch.handshakeDone = true ∧ epoch.handshakeErr = none ∧
    epoch.derivedTlsCipher = some (crypto.handshake e).cipher ∧ epoch.tlsExporter = (crypto.handshake e).exporter
  pending : epoch.pendingPeerIdentityProof ≠ [] →
    Received history e epoch.pendingPeerIdentityProof ∧ epoch.peerIdentityVerified = false ∧
      epoch.identityFailed = false
  verified : epoch.peerIdentityVerified = true →
    epoch.identityFailed = false ∧ epoch.tlsExporter ≠ [] ∧ Proved crypto history key e

def Underway (crypto : Crypto κ) (payload exporter peerPub : List UInt8) (epoch : TlsHandshakeEpoch κ) : Prop :=
  epoch.tlsExporter = exporter ∧
    (epoch.pendingPeerIdentityProof = payload ∨
      (epoch.peerIdentityVerified = true ∧ crypto.verifyClientKeySignature peerPub exporter payload = true) ∨
      (epoch.identityFailed = true ∧ crypto.verifyClientKeySignature peerPub exporter payload = false))

structure Snapshot (crypto : Crypto κ) (s : PeerEncryptionSession κ) (e : ℕ)
    (payload exporter peerPub : List UInt8) : Prop where
  nonempty : payload ≠ [] ∧ exporter ≠ [] ∧ peerPub.length = publicKeySize
  key : s.peerClientPublicKey = peerPub
  received : Received s.history e payload
  epoch : ∃ epoch, s.epochs[e]? = some epoch ∧ Underway crypto payload exporter peerPub epoch

def Verified (s : PeerEncryptionSession κ) (e : ℕ) : Prop :=
  ∃ epoch, s.epochs[e]? = some epoch ∧ epoch.peerIdentityVerified = true

structure Authenticated (crypto : Crypto κ) (s : PeerEncryptionSession κ) : Prop where
  epochs : ∀ e epoch, s.epochs[e]? = some epoch → EpochSound crypto s.history s.peerClientPublicKey e epoch
  established : ∀ e, s.establishedEpoch = some e → Verified s e
  prior : ∀ e, s.priorEstablishedEpoch = some e → Verified s e
  key : (firstKey s.history).getD [] = s.peerClientPublicKey
  judges : ∀ e payload exporter peerPub generation, .judge e payload exporter peerPub generation ∈ s.tasks →
    Snapshot crypto s e payload exporter peerPub

lemma EpochSound.mono {history history' : List SessionEntry} {key key' : List UInt8} {epoch : TlsHandshakeEpoch κ}
    (h : EpochSound crypto history key e epoch) (hsub : history ⊆ history') (hkey : key ≠ [] → key' = key) :
    EpochSound crypto history' key' e epoch := by
  refine ⟨h.exported, fun hp => ⟨(h.pending hp).1.mono hsub, (h.pending hp).2⟩, fun hv => ?_⟩
  obtain ⟨hfailed, hexporter, payload, hreceived, hverify⟩ := h.verified hv
  refine ⟨hfailed, hexporter, payload, hreceived.mono hsub, ?_⟩
  have hne : key ≠ [] := by
    rintro rfl
    simp [Crypto.verifyClientKeySignature, publicKeySize] at hverify
  rw [hkey hne]
  exact hverify

lemma EpochSound.newEpoch (history : List SessionEntry) (key : List UInt8) (i : Input) :
    EpochSound crypto history key e (s.newEpoch i) := by
  rw [PeerEncryptionSession.newEpoch]
  split
  · exact ⟨fun h => absurd rfl h, fun h => absurd rfl h, (by intros; contradiction)⟩
  split <;> exact ⟨fun h => absurd rfl h, fun h => absurd rfl h, (by intros; contradiction)⟩

lemma EpochSound.complete {history : List SessionEntry} {key : List UInt8} {epoch : TlsHandshakeEpoch κ}
    (h : EpochSound crypto history key e epoch) (hopen : epoch.handshakeDone = false) (result : HandshakeResult) :
    EpochSound crypto history key e (epoch.complete (crypto.handshake e) result) := by
  have hexporter : epoch.tlsExporter = [] := by
    by_contra hne
    rw [(h.exported hne).1] at hopen
    cases hopen
  have hverified : epoch.peerIdentityVerified = false := by
    by_contra hv
    exact (h.verified (by simpa using hv)).2.1 hexporter
  cases result with
  | completed =>
    refine ⟨fun _ => ⟨rfl, rfl, rfl, rfl⟩, h.pending, fun hv => ?_⟩
    rw [show epoch.peerIdentityVerified = true from hv] at hverified
    cases hverified
  | noCipher fault => exact ⟨fun hne => absurd hexporter hne, h.pending, h.verified⟩
  | noExporter fault => exact ⟨fun hne => absurd hexporter hne, h.pending, h.verified⟩
  | failed fault => exact ⟨fun hne => absurd hexporter hne, h.pending, h.verified⟩

lemma EpochSound.inert {history : List SessionEntry} {key : List UInt8} {epoch : TlsHandshakeEpoch κ}
    (h : EpochSound crypto history key e epoch) {f : TlsHandshakeEpoch κ → TlsHandshakeEpoch κ} (hf : Inert f) :
    EpochSound crypto history key e (f epoch) := by
  refine ⟨fun hne => ?_, fun hne => ?_, fun hv => ?_⟩
  · rw [hf.tlsExporter] at hne
    rw [hf.handshakeDone, hf.handshakeErr, hf.derivedTlsCipher, hf.tlsExporter]
    exact h.exported hne
  · rw [hf.pending] at hne
    rw [hf.pending, hf.verified, hf.identityFailed]
    exact h.pending hne
  · rw [hf.verified] at hv
    rw [hf.identityFailed, hf.tlsExporter]
    exact h.verified hv

lemma EpochSound.judged {history : List SessionEntry} {key payload exporter : List UInt8}
    {epoch : TlsHandshakeEpoch κ} (h : EpochSound crypto history key e epoch) (hpayload : payload ≠ [])
    (hexporter : exporter ≠ []) (hreceived : Received history e payload)
    (hunderway : Underway crypto payload exporter key epoch) :
    EpochSound crypto history key e
      (epoch.judged (crypto.verifyClientKeySignature key exporter payload)) := by
  obtain ⟨htls, hproof⟩ := hunderway
  have hne : epoch.tlsExporter ≠ [] := htls ▸ hexporter
  have hexported := (h.exported hne).2.2.2
  refine ⟨h.exported, fun hp => absurd rfl hp, fun hv => ?_⟩
  have hok : epoch.identityFailed = false ∧ crypto.verifyClientKeySignature key exporter payload = true := by
    rcases hproof with hp | ⟨hverified, hok⟩ | ⟨hfailed, hno⟩
    · obtain ⟨-, hverified, hfailed⟩ := h.pending (hp ▸ hpayload)
      refine ⟨hfailed, ?_⟩
      rw [TlsHandshakeEpoch.judged] at hv
      simpa [hverified] using hv
    · exact ⟨(h.verified hverified).1, hok⟩
    · rw [TlsHandshakeEpoch.judged] at hv
      have hverified : epoch.peerIdentityVerified = true := by simpa [hno] using hv
      rw [(h.verified hverified).1] at hfailed
      cases hfailed
  refine ⟨?_, hne, payload, hreceived, ?_⟩
  · rw [TlsHandshakeEpoch.judged]
    simp [hok]
  · rw [← hexported, htls]
    exact hok.2

lemma subset_of_change (h : Change crypto s task s') : s.history ⊆ s'.history := by
  cases h with
  | same => exact List.Subset.refl _
  | build i t => exact List.Subset.refl _
  | complete e result hopen => exact List.Subset.refl _
  | touch e f hf hid hcert => exact List.Subset.refl _
  | judge e payload exporter peerPub generation htask =>
    rw [judge_history]
    exact List.subset_cons_self _ _
  | key pub =>
    rw [setPeerClientPublicKey]
    split
    · exact List.subset_cons_self _ _
    split <;> exact List.subset_cons_self _ _
  | store c e htask =>
    rw [storeProof]
    split
    · exact List.Subset.refl _
    split
    · exact List.Subset.refl _
    split <;> exact List.subset_cons_self _ _
  | trust chain => exact List.Subset.refl _
  | note entry hentry => exact List.subset_cons_self _ _

lemma judge_key (e : ℕ) (payload exporter peerPub : List UInt8) (generation : Id) :
    (s.judge crypto e payload exporter peerPub generation).peerClientPublicKey = s.peerClientPublicKey := by
  rw [judge]
  split
  · rw [markEstablishedWithLock]
    split <;> rfl
  · rfl

lemma storeProof_key (c : EncryptedControl) (e : ℕ) :
    (s.storeProof c e).1.peerClientPublicKey = s.peerClientPublicKey := by
  rw [storeProof]
  split
  · rfl
  split
  · rfl
  split <;> rfl

lemma key_of_change (h : Change crypto s task s') (hkey : s.peerClientPublicKey ≠ []) :
    s'.peerClientPublicKey = s.peerClientPublicKey := by
  cases h with
  | judge e payload exporter peerPub generation htask => exact judge_key e payload exporter peerPub generation
  | store c e htask => exact storeProof_key c e
  | key pub =>
    rw [setPeerClientPublicKey, if_neg hkey]
    split <;> rfl
  | _ => rfl

lemma setPeerClientPublicKey_epochs (pub : List UInt8) : (s.setPeerClientPublicKey pub).1.epochs = s.epochs := by
  rw [setPeerClientPublicKey]
  split
  · rfl
  split <;> rfl

lemma storeProof_epochs (c : EncryptedControl) (e : ℕ) :
    (s.storeProof c e).1.epochs = s.epochs ∨
      ∃ epoch, s.epochs[e]? = some epoch ∧ epoch.peerIdentityVerified = false ∧ epoch.identityFailed = false ∧
        epoch.pendingPeerIdentityProof = [] ∧
        (.malformed e c.generation (s.epochIdOf e) ∈ (s.storeProof c e).1.history ∧
          (s.storeProof c e).1.epochs =
            (s.modifyEpoch e fun epoch => { epoch with identityFailed := true }).epochs ∨
          Received (s.storeProof c e).1.history e c.payload ∧
          (s.storeProof c e).1.epochs =
            (s.modifyEpoch e fun epoch =>
              { epoch with
                pendingPeerIdentityProof := c.payload
                pendingGeneration := c.generation }).epochs) := by
  rw [storeProof]
  split
  · exact Or.inl rfl
  · next epoch hepoch =>
    split
    · exact Or.inl rfl
    · next hopen =>
      simp only [Bool.or_eq_true, decide_eq_true_eq, not_or, Bool.not_eq_true, ne_eq, not_not] at hopen
      refine Or.inr ⟨epoch, hepoch, hopen.1.1, hopen.1.2, hopen.2, ?_⟩
      split
      · exact Or.inl ⟨List.mem_cons_self, rfl⟩
      · exact Or.inr ⟨⟨_, _, List.mem_cons_self⟩, rfl⟩

lemma Authenticated.epochs_change (h : Authenticated crypto s) (hc : Change crypto s task s') {epoch' : TlsHandshakeEpoch κ}
    (he : s'.epochs[e]? = some epoch') : EpochSound crypto s'.history s'.peerClientPublicKey e epoch' := by
  have hmono : ∀ epoch, EpochSound crypto s.history s.peerClientPublicKey e epoch →
      EpochSound crypto s'.history s'.peerClientPublicKey e epoch :=
    fun epoch hsound => hsound.mono (subset_of_change hc) (key_of_change hc)
  have hmodify : ∀ (e' : ℕ) (f : TlsHandshakeEpoch κ → TlsHandshakeEpoch κ),
      s'.epochs = (s.modifyEpoch e' f).epochs →
      (∀ epoch, s.epochs[e']? = some epoch → EpochSound crypto s.history s.peerClientPublicKey e' epoch →
        EpochSound crypto s'.history s'.peerClientPublicKey e' (f epoch)) →
      EpochSound crypto s'.history s'.peerClientPublicKey e epoch' := by
    intro e' f hs' hf
    rw [hs'] at he
    obtain ⟨epoch, hepoch, rfl⟩ := modifyEpoch_some he
    split
    · next heq =>
      subst heq
      exact hf epoch hepoch (h.epochs _ _ hepoch)
    · exact hmono epoch (h.epochs _ _ hepoch)
  cases hc with
  | build i t =>
    rcases build_some he with he | rfl
    · exact h.epochs _ _ he
    · exact EpochSound.newEpoch _ _ i
  | complete e' result hopen =>
    refine hmodify e' _ rfl fun epoch hepoch hsound => hsound.complete ?_ result
    simpa [hepoch] using hopen
  | touch e' f hf hid hcert => exact hmodify e' f rfl fun epoch hepoch hsound => hsound.inert hf
  | judge e' payload exporter peerPub generation htask =>
    refine hmodify e' _ (judge_epochs e' payload exporter peerPub generation) fun epoch hepoch hsound => ?_
    obtain ⟨hne, rfl, hreceived, epoch₁, hepoch₁, hunderway⟩ := h.judges _ _ _ _ _ htask
    obtain rfl : epoch₁ = epoch := Option.some.inj (hepoch₁.symm.trans hepoch)
    refine (hsound.judged hne.1 hne.2.1 hreceived hunderway).mono ?_ fun _ => judge_key _ _ _ _ _
    rw [judge_history]
    exact List.subset_cons_self _ _
  | store c e' htask =>
    rcases storeProof_epochs (s := s) c e' with hsame | ⟨epoch₁, hepoch₁, hverified, hfailed, hpending, hs'⟩
    · rw [hsame] at he
      exact hmono _ (h.epochs _ _ he)
    rcases hs' with ⟨-, hs'⟩ | ⟨hreceived, hs'⟩
    · refine hmodify e' _ hs' fun epoch hepoch hsound => ?_
      obtain rfl : epoch₁ = epoch := Option.some.inj (hepoch₁.symm.trans hepoch)
      refine ⟨hsound.exported, fun hp => absurd hpending hp, fun hv => ?_⟩
      rw [show epoch₁.peerIdentityVerified = true from hv] at hverified
      cases hverified
    · refine hmodify e' _ hs' fun epoch hepoch hsound => ?_
      obtain rfl : epoch₁ = epoch := Option.some.inj (hepoch₁.symm.trans hepoch)
      refine ⟨hsound.exported, fun _ => ⟨hreceived, hverified, hfailed⟩, fun hv => ?_⟩
      rw [show epoch₁.peerIdentityVerified = true from hv] at hverified
      cases hverified
  | key pub =>
    rw [setPeerClientPublicKey_epochs] at he
    exact hmono _ (h.epochs _ _ he)
  | same => exact hmono _ (h.epochs _ _ he)
  | trust chain => exact hmono _ (h.epochs _ _ he)
  | note entry hentry => exact hmono _ (h.epochs _ _ he)

lemma complete_verified (h : Handshake κ) (epoch : TlsHandshakeEpoch κ) (result : HandshakeResult) :
    (epoch.complete h result).peerIdentityVerified = epoch.peerIdentityVerified ∧
      (epoch.complete h result).identityFailed = epoch.identityFailed ∧
      (epoch.complete h result).pendingPeerIdentityProof = epoch.pendingPeerIdentityProof := by
  cases result <;> exact ⟨rfl, rfl, rfl⟩

lemma epoch_of_change (hc : Change crypto s task s') {epoch : TlsHandshakeEpoch κ} (he : s.epochs[e]? = some epoch) :
    ∃ epoch', s'.epochs[e]? = some epoch' ∧
      (epoch.peerIdentityVerified = true → epoch'.peerIdentityVerified = true) ∧
      (epoch.identityFailed = true → epoch'.identityFailed = true) := by
  have hmodify : ∀ (e' : ℕ) (f : TlsHandshakeEpoch κ → TlsHandshakeEpoch κ),
      s'.epochs = (s.modifyEpoch e' f).epochs →
      ((epoch.peerIdentityVerified = true → (f epoch).peerIdentityVerified = true) ∧
        (epoch.identityFailed = true → (f epoch).identityFailed = true)) →
      ∃ epoch', s'.epochs[e]? = some epoch' ∧
        (epoch.peerIdentityVerified = true → epoch'.peerIdentityVerified = true) ∧
        (epoch.identityFailed = true → epoch'.identityFailed = true) := by
    intro e' f hs' hf
    refine ⟨_, by rw [hs']; exact modifyEpoch_of_some f he, ?_⟩
    split
    · exact hf
    · exact ⟨id, id⟩
  cases hc with
  | build i t => exact ⟨epoch, build_of_some i he, id, id⟩
  | complete e' result hopen =>
    refine hmodify e' _ rfl ?_
    obtain ⟨hv, hf, -⟩ := complete_verified (crypto.handshake e') epoch result
    rw [hv, hf]
    exact ⟨id, id⟩
  | touch e' f hf hid hcert =>
    refine hmodify e' f rfl ?_
    rw [hf.verified, hf.identityFailed]
    exact ⟨id, id⟩
  | judge e' payload exporter peerPub generation htask =>
    refine hmodify e' _ (judge_epochs e' payload exporter peerPub generation) ⟨fun hv => ?_, fun hf => ?_⟩
    · simp [TlsHandshakeEpoch.judged, hv]
    · simp [TlsHandshakeEpoch.judged, hf]
  | store c e' htask =>
    rcases storeProof_epochs (s := s) c e' with hsame | ⟨-, -, -, -, -, ⟨-, hs'⟩ | ⟨-, hs'⟩⟩
    · exact ⟨epoch, by rw [hsame]; exact he, id, id⟩
    · exact hmodify e' _ hs' ⟨id, fun _ => rfl⟩
    · exact hmodify e' _ hs' ⟨id, id⟩
  | key pub => exact ⟨epoch, by rw [setPeerClientPublicKey_epochs]; exact he, id, id⟩
  | same => exact ⟨epoch, he, id, id⟩
  | trust chain => exact ⟨epoch, he, id, id⟩
  | note entry hentry => exact ⟨epoch, he, id, id⟩

lemma verified_of_change (hc : Change crypto s task s') (h : Verified s e) : Verified s' e := by
  obtain ⟨epoch, he, hv⟩ := h
  obtain ⟨epoch', he', hkeep, -⟩ := epoch_of_change hc he
  exact ⟨epoch', he', hkeep hv⟩

lemma markEstablishedWithLock_cases (s : PeerEncryptionSession κ) (e : ℕ) :
    s.markEstablishedWithLock e = s ∨
      s.markEstablishedWithLock e =
        { s with priorEstablishedEpoch := s.establishedEpoch, establishedEpoch := some e } := by
  rw [markEstablishedWithLock]
  split
  · exact Or.inl rfl
  · exact Or.inr rfl

lemma promotion_of_change (h : Authenticated crypto s) (hc : Change crypto s task s') :
    (s'.establishedEpoch = s.establishedEpoch ∧ s'.priorEstablishedEpoch = s.priorEstablishedEpoch) ∨
      ∃ e, s.epoch = some e ∧ s'.epoch = some e ∧ Verified s' e ∧ s'.establishedEpoch = some e ∧
        s'.priorEstablishedEpoch = s.establishedEpoch := by
  cases hc with
  | judge e payload exporter peerPub generation htask =>
    rw [judge]
    split
    · next hok =>
      rw [Bool.and_eq_true, decide_eq_true_eq] at hok
      rcases markEstablishedWithLock_cases
        ((s.modifyEpoch e fun epoch =>
          epoch.judged (crypto.verifyClientKeySignature peerPub exporter payload)).log
          (.judged e generation (s.epochIdOf e) payload
            (crypto.verifyClientKeySignature peerPub exporter payload))) e with hm | hm
      · rw [hm]
        exact Or.inl ⟨rfl, rfl⟩
      · rw [hm]
        refine Or.inr ⟨e, hok.2, hok.2, ?_, rfl, rfl⟩
        obtain ⟨epoch, he, -⟩ := (h.judges _ _ _ _ _ htask).epoch
        refine ⟨_, modifyEpoch_of_some _ he, ?_⟩
        rw [if_pos rfl, TlsHandshakeEpoch.judged, hok.1, Bool.or_true]
    · exact Or.inl ⟨rfl, rfl⟩
  | store c e htask =>
    left
    rw [storeProof]
    split
    · exact ⟨rfl, rfl⟩
    split
    · exact ⟨rfl, rfl⟩
    split <;> exact ⟨rfl, rfl⟩
  | key pub =>
    left
    rw [setPeerClientPublicKey]
    split
    · exact ⟨rfl, rfl⟩
    split <;> exact ⟨rfl, rfl⟩
  | _ => exact Or.inl ⟨rfl, rfl⟩

lemma Underway.judged {payload exporter peerPub payload' exporter' peerPub' : List UInt8} {history : List SessionEntry}
    {key : List UInt8} {epoch : TlsHandshakeEpoch κ} (hsound : EpochSound crypto history key e epoch)
    (hpayload : payload ≠ []) (h : Underway crypto payload exporter peerPub epoch)
    (h' : Underway crypto payload' exporter' peerPub' epoch) (hkey : peerPub' = peerPub) :
    Underway crypto payload exporter peerPub
      (epoch.judged (crypto.verifyClientKeySignature peerPub' exporter' payload')) := by
  subst hkey
  obtain ⟨htls, hproof⟩ := h
  obtain ⟨htls', hproof'⟩ := h'
  subst htls htls'
  refine ⟨rfl, Or.inr ?_⟩
  rcases hproof with hp | ⟨hverified, hok⟩ | ⟨hfailed, hno⟩
  · obtain ⟨-, hverified, hfailed⟩ := hsound.pending (hp ▸ hpayload)
    have hsame : payload' = payload := by
      rcases hproof' with hp' | ⟨hverified', -⟩ | ⟨hfailed', -⟩
      · exact hp'.symm.trans hp
      · rw [hverified] at hverified'
        cases hverified'
      · rw [hfailed] at hfailed'
        cases hfailed'
    subst hsame
    cases hanswer : crypto.verifyClientKeySignature peerPub' epoch.tlsExporter payload' with
    | true => exact Or.inl ⟨Bool.or_true _, rfl⟩
    | false => exact Or.inr ⟨Bool.or_true _, rfl⟩
  · exact Or.inl ⟨by simp [TlsHandshakeEpoch.judged, hverified], hok⟩
  · exact Or.inr ⟨by simp [TlsHandshakeEpoch.judged, hfailed], hno⟩

lemma Snapshot.change {payload exporter peerPub : List UInt8} (h : Authenticated crypto s)
    (hsnap : Snapshot crypto s e payload exporter peerPub) (hc : Change crypto s task s') :
    Snapshot crypto s' e payload exporter peerPub := by
  obtain ⟨hne, hkey, hreceived, epoch, he, hunderway⟩ := hsnap
  have hsound := h.epochs e epoch he
  have hset : s.peerClientPublicKey ≠ [] := by
    rw [hkey]
    intro hempty
    rw [hempty] at hne
    exact absurd hne.2.2 (by decide)
  refine ⟨hne, (key_of_change hc hset).trans hkey, hreceived.mono (subset_of_change hc), ?_⟩
  have hmodify : ∀ (e' : ℕ) (f : TlsHandshakeEpoch κ → TlsHandshakeEpoch κ),
      s'.epochs = (s.modifyEpoch e' f).epochs → (e' = e → Underway crypto payload exporter peerPub (f epoch)) →
      ∃ epoch', s'.epochs[e]? = some epoch' ∧ Underway crypto payload exporter peerPub epoch' := by
    intro e' f hs' hf
    refine ⟨_, by rw [hs']; exact modifyEpoch_of_some f he, ?_⟩
    split
    · next heq => exact hf heq
    · exact hunderway
  cases hc with
  | build i t => exact ⟨epoch, build_of_some i he, hunderway⟩
  | complete e' result hopen =>
    refine hmodify e' _ rfl fun heq => ?_
    -- the epoch has an exporter, so its handshake is done
    subst heq
    have hdone := (hsound.exported (hunderway.1 ▸ hne.2.1)).1
    simp [he, hdone] at hopen
  | touch e' f hf hid hcert =>
    refine hmodify e' f rfl fun _ => ?_
    rw [Underway, hf.tlsExporter, hf.pending, hf.verified, hf.identityFailed]
    exact hunderway
  | judge e' payload' exporter' peerPub' generation htask =>
    refine hmodify e' _ (judge_epochs e' payload' exporter' peerPub' generation) fun heq => ?_
    subst heq
    obtain ⟨-, hkey', -, epoch', he', hunderway'⟩ := h.judges _ _ _ _ _ htask
    obtain rfl : epoch' = epoch := Option.some.inj (he'.symm.trans he)
    exact hunderway.judged hsound hne.1 hunderway' (hkey'.symm.trans hkey)
  | store c e' htask =>
    rcases storeProof_epochs (s := s) c e' with hsame | ⟨epoch₁, hepoch₁, hverified, hfailed, hpending, hs'⟩
    · exact ⟨epoch, by rw [hsame]; exact he, hunderway⟩
    have hother : e' ≠ e := by
      rintro rfl
      obtain rfl : epoch₁ = epoch := Option.some.inj (hepoch₁.symm.trans he)
      obtain ⟨-, hproof⟩ := hunderway
      rw [hverified, hfailed, hpending] at hproof
      rcases hproof with hp | ⟨hp, -⟩ | ⟨hp, -⟩
      · exact hne.1 hp.symm
      · cases hp
      · cases hp
    rcases hs' with ⟨-, hs'⟩ | ⟨-, hs'⟩
    · exact hmodify e' _ hs' fun heq => absurd heq hother
    · exact hmodify e' _ hs' fun heq => absurd heq hother
  | key pub => exact ⟨epoch, by rw [setPeerClientPublicKey_epochs]; exact he, hunderway⟩
  | same => exact ⟨epoch, he, hunderway⟩
  | trust chain => exact ⟨epoch, he, hunderway⟩
  | note entry hentry => exact ⟨epoch, he, hunderway⟩

lemma firstKey_cons (entry : SessionEntry) (history : List SessionEntry) :
    firstKey (entry :: history) =
      (firstKey history).or ((passedKey entry).filter fun pub => pub.length = publicKeySize) := by
  rw [firstKey, keysPassed, List.reverse_cons, List.filterMap_append, List.find?_append]
  congr 1
  cases entry with
  | keyPassed pub => simp [passedKey, Option.filter]
  | _ => rfl

lemma firstKey_length {history : List SessionEntry} {key : List UInt8} (h : firstKey history = some key) :
    key.length = publicKeySize := by
  simpa using List.find?_some h

lemma firstKey_of_passedKey {entry : SessionEntry} (h : passedKey entry = none) (history : List SessionEntry) :
    firstKey (entry :: history) = firstKey history := by
  rw [firstKey_cons, h]
  simp

lemma Authenticated.key_change (h : Authenticated crypto s) (hc : Change crypto s task s') :
    (firstKey s'.history).getD [] = s'.peerClientPublicKey := by
  cases hc with
  | judge e payload exporter peerPub generation htask =>
    rw [judge_history, judge_key, firstKey_of_passedKey rfl]
    exact h.key
  | store c e htask =>
    rw [storeProof_key, ← h.key, storeProof]
    split
    · rfl
    split
    · rfl
    split
    · exact congrArg (Option.getD · []) (firstKey_of_passedKey rfl s.history)
    · exact congrArg (Option.getD · []) (firstKey_of_passedKey rfl s.history)
  | note entry hentry =>
    change (firstKey (entry :: s.history)).getD [] = s.peerClientPublicKey
    rw [firstKey_of_passedKey, h.key]
    cases entry <;> trivial
  | key pub =>
    rw [setPeerClientPublicKey]
    split
    · next hsize =>
      change (firstKey (.keyPassed pub :: s.history)).getD [] = s.peerClientPublicKey
      rw [firstKey_cons, ← h.key]
      simp [passedKey, Option.filter, hsize]
    next hsize =>
    split
    · next hempty =>
      change (firstKey (.keyPassed pub :: s.history)).getD [] = pub
      have hnone : firstKey s.history = none := by
        cases hfirst : firstKey s.history with
        | none => rfl
        | some key =>
          have hkey := h.key
          rw [hfirst, hempty] at hkey
          have hlength := firstKey_length hfirst
          rw [show key = [] from hkey] at hlength
          exact absurd hlength (by decide)
      rw [firstKey_cons, hnone]
      simp [passedKey, Option.filter, not_not.mp hsize]
    · next hne =>
      change (firstKey (.keyPassed pub :: s.history)).getD [] = s.peerClientPublicKey
      rw [firstKey_cons, ← h.key]
      cases hfirst : firstKey s.history with
      | none =>
        rw [← h.key, hfirst] at hne
        exact absurd rfl hne
      | some key => rfl
  | same => exact h.key
  | build i t => exact h.key
  | complete e result hopen => exact h.key
  | touch e f hf hid hcert => exact h.key
  | trust chain => exact h.key

lemma Authenticated.change (h : Authenticated crypto s) (hc : Change crypto s task s') {tasks : List Task}
    (htasks : ∀ e payload exporter peerPub generation, .judge e payload exporter peerPub generation ∈ tasks →
      Snapshot crypto s' e payload exporter peerPub) : Authenticated crypto { s' with tasks := tasks } := by
  have hkey := h.key_change hc
  have hverified : ∀ e, Verified s e → Verified s' e := fun e => verified_of_change hc
  refine ⟨fun e epoch he => h.epochs_change hc he, fun e he => ?_, fun e he => ?_, hkey,
    fun e payload exporter peerPub g hmem => ?_⟩
  · rcases promotion_of_change h hc with ⟨hsame, -⟩ | ⟨e', -, -, hpromoted, hest, -⟩
    · exact hverified e (h.established e (hsame ▸ he))
    · obtain rfl : e' = e := Option.some.inj (hest.symm.trans he)
      exact hpromoted
  · rcases promotion_of_change h hc with ⟨-, hsame⟩ | ⟨e', -, -, -, -, hprior⟩
    · exact hverified e (h.prior e (hsame ▸ he))
    · exact hverified e (h.established e (hprior ▸ he))
  · obtain ⟨hne, hkey, hreceived, hepoch⟩ := htasks e payload exporter peerPub g hmem
    exact ⟨hne, hkey, hreceived, hepoch⟩

lemma snapshot_of_readyProof (h : Authenticated crypto s) {payload exporter peerPub : List UInt8} {generation : Id}
    (hmem : .judge e payload exporter peerPub generation ∈ s.readyProof e) :
    Snapshot crypto s e payload exporter peerPub := by
  obtain ⟨epoch, he, hpending, hpayload, htls, hexporter, hkey, hsize, -⟩ := mem_readyProof hmem
  refine ⟨⟨hpayload, hexporter, hsize⟩, hkey, ?_, epoch, he, htls, Or.inl hpending⟩
  have hreceived := ((h.epochs e epoch he).pending (hpending ▸ hpayload)).1
  rw [hpending] at hreceived
  exact hreceived

lemma authenticated_step (h : Authenticated crypto s) (event : Event) : Authenticated crypto (step crypto s event) := by
  cases event with
  | call c =>
    refine h.change (.same : Change crypto s .startEpoch s) fun e payload exporter peerPub generation hmem => ?_
    rcases List.mem_append.mp hmem with hmem | hmem
    · exact h.judges _ _ _ _ _ hmem
    · exact (entry_of_call hmem).elim
  | advance n i =>
    rw [step]
    split
    · exact h
    · next task htask =>
      have hc := change_advance crypto i (List.mem_of_getElem? htask)
      refine h.change hc fun e payload exporter peerPub generation hmem => ?_
      rcases List.mem_append.mp hmem with hmem | hmem
      · rcases List.mem_append.mp hmem with hmem | hmem
        · exact (h.judges _ _ _ _ _ (List.mem_of_mem_take hmem)).change h hc
        · obtain ⟨hsame, hmem⟩ := judge_mem_advance hmem
          rw [hsame]
          exact snapshot_of_readyProof h hmem
      · exact (h.judges _ _ _ _ _ (List.mem_of_mem_drop hmem)).change h hc

lemma authenticated_new (role : SequenceTlsRole) : Authenticated crypto (newPeerEncryptionSession κ role) :=
  ⟨by simp [newPeerEncryptionSession], nofun, nofun, rfl, by simp [newPeerEncryptionSession]⟩

end UrConnect.Encrypt.PeerEncryptionSession
