import UrConnect.Encrypt.GenerationOrder

/-! The verdict on the peer's identity proof. The handshake that ends, the proof and the peer's key come in any order,
each publishes its piece in one section and looks for the other two in a later one. -/

namespace UrConnect.Encrypt.PeerEncryptionSession

open Lib.Runs

variable {κ : Type} {crypto : Crypto κ} {s s' : PeerEncryptionSession κ} {task : Task} {e : ℕ}
  {epoch epoch' : TlsHandshakeEpoch κ}

def Accepted (s : PeerEncryptionSession κ) (e : ℕ) (proof : List UInt8) : Prop :=
  ∃ generation epochId, .buffered e generation epochId proof ∈ s.history

def identityCall (e : ℕ) : Call → Bool
  | .completeHandshake e' _ => e' = e
  | .setPeerClientPublicKey _ => true
  | .deliverEncryptedControl c => c.controlType = .identityProof
  | .optimisticControl c => c.controlType = .identityProof
  | _ => false

def staysOn (crypto : Crypto κ) (e : ℕ) (s : PeerEncryptionSession κ) : Event → Bool
  | .call c => identityCall e c
  | event => (step crypto s event).epoch = some e

structure Begins (s : PeerEncryptionSession κ) (e : ℕ) : Prop where
  current : s.epoch = some e
  epoch : ∃ epoch, s.epochs[e]? = some epoch ∧ epoch.pendingPeerIdentityProof = [] ∧
    epoch.peerIdentityVerified = false ∧ (epoch.tlsExporter ≠ [] → epoch.handshakeDone = true)
  unproved : ∀ proof, ¬ Accepted s e proof
  waiting : s.establishedEpoch ≠ some e
  keyed : s.peerClientPublicKey = [] ∨ s.peerClientPublicKey.length = publicKeySize
  quiet : s.tasks = []

def identityTask (e : ℕ) : Task → Bool
  | .completeHandshake e' _ => e' = e
  | .handshakeCompleted e' => e' = e
  | .sendIdentityProofOnce e' => e' = e
  | .maybeVerify e' => e' = e
  | .judge e' _ _ _ _ => e' = e
  | .setPeerClientPublicKey _ => true
  | .verifyCurrent => true
  | .proofStart _ _ => true
  | .proofEpoch _ _ => true
  | .proofCompare _ _ e' => e' = e
  | .proofAdopt _ _ e' => e' = e
  | .proofStore _ e' => e' = e
  | .optimisticProof _ => true
  | .convergeToPeerEpoch => true
  | _ => false

def rechecks (e : ℕ) : Task → Bool
  | .handshakeCompleted e' => e' = e
  | .sendIdentityProofOnce e' => e' = e
  | .maybeVerify e' => e' = e
  | .judge e' _ _ _ _ => e' = e
  | .verifyCurrent => true
  | _ => false

inductive Phase (crypto : Crypto κ) (e : ℕ) (accepted : List UInt8 → Prop) (key : List UInt8) (established : Option ℕ)
    (epoch : TlsHandshakeEpoch κ) : Prop
  | before (hnone : ∀ proof, ¬ accepted proof) (hpending : epoch.pendingPeerIdentityProof = [])
    (hverified : epoch.peerIdentityVerified = false) (hestablished : established ≠ some e)
  | waiting (proof : List UInt8) (hone : ∀ other, accepted other ↔ other = proof) (hne : proof ≠ [])
    (hpending : epoch.pendingPeerIdentityProof = proof) (hverified : epoch.peerIdentityVerified = false)
    (hfailed : epoch.identityFailed = false) (hestablished : established ≠ some e)
  | judged (proof : List UInt8) (hone : ∀ other, accepted other ↔ other = proof)
    (hpending : epoch.pendingPeerIdentityProof = []) (hexporter : epoch.tlsExporter ≠ [])
    (hkey : key.length = publicKeySize)
    (hverified : epoch.peerIdentityVerified = crypto.verifyClientKeySignature key epoch.tlsExporter proof)
    (hfailed : epoch.identityFailed = !crypto.verifyClientKeySignature key epoch.tlsExporter proof)
    (hestablished : established = some e ↔ crypto.verifyClientKeySignature key epoch.tlsExporter proof = true)

def Holds (s : PeerEncryptionSession κ) (e : ℕ) (epoch : TlsHandshakeEpoch κ) (task : Task) : Prop :=
  ∀ proof exporter peerPub generation, task = .judge e proof exporter peerPub generation →
    Accepted s e proof ∧ exporter = epoch.tlsExporter ∧ exporter ≠ [] ∧ peerPub = s.peerClientPublicKey ∧
      peerPub.length = publicKeySize

def Due (s : PeerEncryptionSession κ) (epoch : TlsHandshakeEpoch κ) : Prop :=
  epoch.pendingPeerIdentityProof ≠ [] ∧ epoch.tlsExporter ≠ [] ∧ s.peerClientPublicKey.length = publicKeySize

structure Pieces (crypto : Crypto κ) (e : ℕ) (s : PeerEncryptionSession κ) (epoch : TlsHandshakeEpoch κ) : Prop where
  current : s.epoch = some e
  lookup : s.epochs[e]? = some epoch
  done : epoch.tlsExporter ≠ [] → epoch.handshakeDone = true
  keyed : s.peerClientPublicKey = [] ∨ s.peerClientPublicKey.length = publicKeySize
  phase : Phase crypto e (Accepted s e) s.peerClientPublicKey s.establishedEpoch epoch

structure Judging (crypto : Crypto κ) (e : ℕ) (s : PeerEncryptionSession κ) (epoch : TlsHandshakeEpoch κ) : Prop where
  pieces : Pieces crypto e s epoch
  tasks : ∀ t ∈ s.tasks, identityTask e t = true ∧ Holds s e epoch t
  rechecked : Due s epoch → ∃ t ∈ s.tasks, rechecks e t = true

lemma mem_others {n : ℕ} {tasks spawned : List Task} (hn : tasks[n]? = some task) {t : Task} (ht : t ∈ tasks)
    (hne : t ≠ task) : t ∈ tasks.take n ++ spawned ++ tasks.drop (n + 1) := by
  obtain ⟨hlt, rfl⟩ := List.getElem?_eq_some_iff.mp hn
  rw [← List.take_append_drop n tasks, List.drop_eq_getElem_cons hlt] at ht
  simp only [List.mem_append, List.mem_cons] at ht ⊢
  tauto

lemma Judging.next (h : Judging crypto e s epoch) {n : ℕ} (hn : s.tasks[n]? = some task)
    (spawned : List Task) (hpieces : Pieces crypto e s' epoch') (hheld : ∀ t, Holds s e epoch t → Holds s' e epoch' t)
    (hspawned : ∀ t ∈ spawned, identityTask e t = true ∧ Holds s' e epoch' t)
    (hdue : Due s' epoch' → (∃ t ∈ spawned, rechecks e t = true) ∨ Due s epoch ∧ rechecks e task = false) :
    Judging crypto e { s' with tasks := s.tasks.take n ++ spawned ++ s.tasks.drop (n + 1) } epoch' where
  pieces := ⟨hpieces.current, hpieces.lookup, hpieces.done, hpieces.keyed, hpieces.phase⟩
  tasks t ht := by
    simp only [List.mem_append] at ht
    rcases ht with (ht | ht) | ht
    · exact ⟨(h.tasks t (List.mem_of_mem_take ht)).1, hheld t (h.tasks t (List.mem_of_mem_take ht)).2⟩
    · exact hspawned t ht
    · exact ⟨(h.tasks t (List.mem_of_mem_drop ht)).1, hheld t (h.tasks t (List.mem_of_mem_drop ht)).2⟩
  rechecked hd := by
    rcases hdue hd with ⟨t, ht, hr⟩ | ⟨hbefore, htask⟩
    · exact ⟨t, by simp [ht], hr⟩
    · obtain ⟨t, ht, hr⟩ := h.rechecked hbefore
      refine ⟨t, mem_others hn ht ?_, hr⟩
      rintro rfl
      rw [hr] at htask
      cases htask

lemma Phase.alike {accepted : List UInt8 → Prop} {key : List UInt8} {established : Option ℕ}
    (h : Phase crypto e accepted key established epoch)
    (hpending : epoch'.pendingPeerIdentityProof = epoch.pendingPeerIdentityProof)
    (hverified : epoch'.peerIdentityVerified = epoch.peerIdentityVerified)
    (hfailed : epoch'.identityFailed = epoch.identityFailed) (hexporter : epoch'.tlsExporter = epoch.tlsExporter) :
    Phase crypto e accepted key established epoch' := by
  cases h with
  | before hnone hp hv he => exact .before hnone (hpending.trans hp) (hverified.trans hv) he
  | waiting proof hone hne hp hv hf he =>
    exact .waiting proof hone hne (hpending.trans hp) (hverified.trans hv) (hfailed.trans hf) he
  | judged proof hone hp hx hk hv hf he =>
    refine .judged proof hone (hpending.trans hp) ?_ hk ?_ ?_ ?_ <;> rw [hexporter]
    · exact hx
    · exact hverified.trans hv
    · exact hfailed.trans hf
    · exact he

lemma Holds.alike {t : Task} (h : Holds s e epoch t) (haccepted : ∀ proof, Accepted s e proof → Accepted s' e proof)
    (hexporter : epoch'.tlsExporter = epoch.tlsExporter) (hkey : s'.peerClientPublicKey = s.peerClientPublicKey) :
    Holds s' e epoch' t := by
  intro proof exporter peerPub generation ht
  obtain ⟨ha, hx, hne, hk, hsize⟩ := h proof exporter peerPub generation ht
  exact ⟨haccepted proof ha, hx.trans hexporter.symm, hne, hk.trans hkey.symm, hsize⟩

lemma holds_of_ne {t : Task} (h : ∀ proof exporter peerPub generation, t ≠ .judge e proof exporter peerPub generation) :
    Holds s e epoch t := fun proof exporter peerPub generation ht => absurd ht (h proof exporter peerPub generation)

section Sections

variable {n : ℕ} {i : Input}

lemma Judging.same (h : Judging crypto e s epoch) (hn : s.tasks[n]? = some task) {spawned : List Task}
    (hspawned : ∀ t ∈ spawned, identityTask e t = true ∧ Holds s e epoch t)
    (hdue : Due s epoch → (∃ t ∈ spawned, rechecks e t = true) ∨ rechecks e task = false) :
    Judging crypto e { s with tasks := s.tasks.take n ++ spawned ++ s.tasks.drop (n + 1) } epoch :=
  h.next hn _ h.pieces (fun _ ht => ht) hspawned fun hd => (hdue hd).imp_right fun ht => ⟨hd, ht⟩

lemma Judging.touch (h : Judging crypto e s epoch) (hn : s.tasks[n]? = some task) {spawned : List Task}
    {f : TlsHandshakeEpoch κ → TlsHandshakeEpoch κ} (hf : Inert f)
    (hspawned : ∀ t ∈ spawned, identityTask e t = true ∧ Holds (s.modifyEpoch e f) e (f epoch) t)
    (hdue : (∃ t ∈ spawned, rechecks e t = true) ∨ rechecks e task = false) :
    Judging crypto e
      { s.modifyEpoch e f with tasks := s.tasks.take n ++ spawned ++ s.tasks.drop (n + 1) } (f epoch) := by
  have hlookup := modifyEpoch_of_some (e := e) f h.pieces.lookup
  rw [if_pos rfl] at hlookup
  apply h.next hn
  · refine ⟨h.pieces.current, hlookup, ?_, h.pieces.keyed, ?_⟩
    · rw [hf.tlsExporter, hf.handshakeDone]
      exact h.pieces.done
    · exact h.pieces.phase.alike (hf.pending _) (hf.verified _) (hf.identityFailed _) (hf.tlsExporter _)
  · exact fun t ht => ht.alike (fun _ ha => ha) (hf.tlsExporter _) rfl
  · exact hspawned
  · rintro ⟨hp, hx, hk⟩
    rw [hf.pending] at hp
    rw [hf.tlsExporter] at hx
    exact hdue.imp_right fun ht => ⟨⟨hp, hx, hk⟩, ht⟩

lemma Judging.complete (h : Judging crypto e s epoch) (result : HandshakeResult)
    (hn : s.tasks[n]? = some (.completeHandshake e result)) :
    ∃ epoch', Judging crypto e { (s.completeHandshake crypto e result).1 with
      tasks := s.tasks.take n ++ (s.completeHandshake crypto e result).2 ++ s.tasks.drop (n + 1) } epoch' := by
  rw [completeHandshake, h.pieces.lookup, Option.any_some]
  by_cases hdone : epoch.handshakeDone = true
  · rw [if_neg (by simp [hdone])]
    exact ⟨epoch, h.same hn (by simp) fun _ => .inr rfl⟩
  rw [if_pos (by simpa using hdone)]
  have hexporter : epoch.tlsExporter = [] := by
    by_contra hne
    exact hdone (h.pieces.done hne)
  have hlookup := modifyEpoch_of_some (e := e) (fun epoch => epoch.complete (crypto.handshake e) result) h.pieces.lookup
  rw [if_pos rfl] at hlookup
  refine ⟨epoch.complete (crypto.handshake e) result, h.next hn _ ⟨h.pieces.current, hlookup, ?_, h.pieces.keyed, ?_⟩ ?_ ?_ ?_⟩
  · intro _
    cases result <;> rfl
  · have hfields : (epoch.complete (crypto.handshake e) result).pendingPeerIdentityProof =
          epoch.pendingPeerIdentityProof ∧
        (epoch.complete (crypto.handshake e) result).peerIdentityVerified = epoch.peerIdentityVerified ∧
        (epoch.complete (crypto.handshake e) result).identityFailed = epoch.identityFailed := by
      cases result <;> exact ⟨rfl, rfl, rfl⟩
    cases h.pieces.phase with
    | before hnone hp hv he => exact .before hnone (hfields.1.trans hp) (hfields.2.1.trans hv) he
    | waiting proof hone hne hp hv hf he =>
      exact .waiting proof hone hne (hfields.1.trans hp) (hfields.2.1.trans hv) (hfields.2.2.trans hf) he
    | judged proof hone hp hx hk hv hf he => exact absurd hexporter hx
  · -- no check can be under way without an exporter
    intro t ht proof exporter peerPub generation he
    obtain ⟨-, hx, hne, -⟩ := ht proof exporter peerPub generation he
    exact absurd (hx.trans hexporter) hne
  · intro t ht
    split at ht
    · rw [List.mem_singleton.mp ht]
      exact ⟨by simp [identityTask], holds_of_ne (by simp)⟩
    · cases ht
  · rintro ⟨-, hx, -⟩
    left
    cases result with
    | completed => exact ⟨.handshakeCompleted e, by simp, by simp [rechecks]⟩
    | noCipher fault => exact absurd hexporter hx
    | noExporter fault => exact absurd hexporter hx
    | failed fault => exact absurd hexporter hx

lemma accepted_log {entry : SessionEntry}
    (h : ∀ generation epochId proof, entry ≠ .buffered e generation epochId proof) (hhistory : s'.history = entry :: s.history)
    (proof : List UInt8) : Accepted s' e proof ↔ Accepted s e proof := by
  constructor
  · rintro ⟨generation, epochId, hmem⟩
    rw [hhistory] at hmem
    rcases List.mem_cons.mp hmem with he | hmem
    · exact absurd he.symm (h generation epochId proof)
    · exact ⟨generation, epochId, hmem⟩
  · rintro ⟨generation, epochId, hmem⟩
    exact ⟨generation, epochId, hhistory ▸ List.mem_cons_of_mem _ hmem⟩

lemma Judging.judge (h : Judging crypto e s epoch) {proof exporter peerPub : List UInt8} {generation : Id}
    (hn : s.tasks[n]? = some (.judge e proof exporter peerPub generation)) :
    Judging crypto e { s.judge crypto e proof exporter peerPub generation with
      tasks := s.tasks.take n ++ [] ++ s.tasks.drop (n + 1) }
      (epoch.judged (crypto.verifyClientKeySignature peerPub exporter proof)) := by
  obtain ⟨haccepted, rfl, hexporter, rfl, hsize⟩ :=
    (h.tasks _ (List.mem_of_getElem? hn)).2 proof exporter peerPub generation rfl
  have hlookup : (s.judge crypto e proof epoch.tlsExporter s.peerClientPublicKey generation).epochs[e]? =
      some (epoch.judged (crypto.verifyClientKeySignature s.peerClientPublicKey epoch.tlsExporter proof)) := by
    rw [judge_epochs]
    have hmodify := modifyEpoch_of_some (e := e) (fun epoch' =>
      epoch'.judged (crypto.verifyClientKeySignature s.peerClientPublicKey epoch.tlsExporter proof)) h.pieces.lookup
    rwa [if_pos rfl] at hmodify
  have hkeeps : (s.judge crypto e proof epoch.tlsExporter s.peerClientPublicKey generation).epoch = s.epoch ∧
      (s.judge crypto e proof epoch.tlsExporter s.peerClientPublicKey generation).peerClientPublicKey =
        s.peerClientPublicKey ∧
      (s.judge crypto e proof epoch.tlsExporter s.peerClientPublicKey generation).establishedEpoch =
        if crypto.verifyClientKeySignature s.peerClientPublicKey epoch.tlsExporter proof then some e
        else s.establishedEpoch := by
    rw [PeerEncryptionSession.judge]
    cases hok : crypto.verifyClientKeySignature s.peerClientPublicKey epoch.tlsExporter proof with
    | false => exact ⟨rfl, rfl, rfl⟩
    | true =>
      rw [if_pos (by simp [h.pieces.current]), if_pos rfl, markEstablishedWithLock]
      split
      · next hestablished => exact ⟨rfl, rfl, hestablished⟩
      · exact ⟨rfl, rfl, rfl⟩
  obtain ⟨hepoch, hkey, hestablished⟩ := hkeeps
  have hsame : ∀ other, Accepted (s.judge crypto e proof epoch.tlsExporter s.peerClientPublicKey generation) e other ↔
      Accepted s e other := accepted_log (by simp) (judge_history e proof _ _ generation)
  apply h.next hn []
  · refine ⟨hepoch.trans h.pieces.current, hlookup, h.pieces.done, by rw [hkey]; exact h.pieces.keyed, ?_⟩
    rw [hkey, hestablished]
    cases h.pieces.phase with
    | before hnone => exact absurd haccepted (hnone proof)
    | waiting first hone hne hp hv hf he =>
      obtain rfl := (hone proof).mp haccepted
      refine .judged proof (fun other => (hsame other).trans (hone other)) rfl hexporter hsize ?_ ?_ ?_
      · simp [TlsHandshakeEpoch.judged, hv]
      · simp [TlsHandshakeEpoch.judged, hf]
      · change _ ↔ crypto.verifyClientKeySignature s.peerClientPublicKey epoch.tlsExporter proof = true
        cases crypto.verifyClientKeySignature s.peerClientPublicKey epoch.tlsExporter proof <;> simp [he]
    | judged first hone hp hx hk hv hf he =>
      obtain rfl := (hone proof).mp haccepted
      refine .judged proof (fun other => (hsame other).trans (hone other)) rfl hexporter hsize ?_ ?_ ?_
      · simp [TlsHandshakeEpoch.judged, hv]
      · simp [TlsHandshakeEpoch.judged, hf]
      · change _ ↔ crypto.verifyClientKeySignature s.peerClientPublicKey epoch.tlsExporter proof = true
        cases hok : crypto.verifyClientKeySignature s.peerClientPublicKey epoch.tlsExporter proof <;> simp_all
  · exact fun t ht => ht.alike (fun other ha => (hsame other).mpr ha) rfl hkey
  · simp
  · rintro ⟨hp, -⟩
    exact absurd rfl hp

lemma Judging.key (h : Judging crypto e s epoch) (pub : List UInt8)
    (hn : s.tasks[n]? = some (.setPeerClientPublicKey pub)) :
    Judging crypto e { (s.setPeerClientPublicKey pub).1 with
      tasks := s.tasks.take n ++ (s.setPeerClientPublicKey pub).2 ++ s.tasks.drop (n + 1) } epoch := by
  have hsame : ∀ other, Accepted (s.log (.keyPassed pub)) e other ↔ Accepted s e other := accepted_log (by simp) rfl
  have hunchanged : Judging crypto e { s.log (.keyPassed pub) with
      tasks := s.tasks.take n ++ [] ++ s.tasks.drop (n + 1) } epoch := by
    apply h.next hn []
    · refine ⟨h.pieces.current, h.pieces.lookup, h.pieces.done, h.pieces.keyed, ?_⟩
      rw [show Accepted (s.log (.keyPassed pub)) e = Accepted s e from funext fun other => propext (hsame other)]
      exact h.pieces.phase
    · exact fun t ht => ht.alike (fun other ha => (hsame other).mpr ha) rfl rfl
    · simp
    · exact fun hd => .inr ⟨hd, rfl⟩
  rw [setPeerClientPublicKey]
  dsimp only
  split
  · exact hunchanged
  split
  · next hsize hempty =>
    have hpub : pub.length = publicKeySize := not_not.mp hsize
    apply h.next hn
    · refine ⟨h.pieces.current, h.pieces.lookup, h.pieces.done, .inr hpub, ?_⟩
      change Phase crypto e (Accepted (s.log (.keyPassed pub)) e) pub s.establishedEpoch epoch
      rw [show Accepted (s.log (.keyPassed pub)) e = Accepted s e from funext fun other => propext (hsame other)]
      cases h.pieces.phase with
      | before hnone hp hv he => exact .before hnone hp hv he
      | waiting first hone hne hp hv hf he => exact .waiting first hone hne hp hv hf he
      | judged first hone hp hx hk hv hf he =>
        rw [hempty] at hk
        cases hk
    · -- no check can be under way without a key
      intro t ht proof exporter peerPub generation he
      obtain ⟨-, -, -, hk, hsize'⟩ := ht proof exporter peerPub generation he
      rw [hk, hempty] at hsize'
      cases hsize'
    · intro t ht
      rw [List.mem_singleton.mp ht]
      exact ⟨rfl, holds_of_ne (by simp)⟩
    · exact fun _ => .inl ⟨.verifyCurrent, List.mem_singleton_self _, rfl⟩
  · exact hunchanged

lemma Judging.verify (h : Judging crypto e s epoch) (hn : s.tasks[n]? = some (.maybeVerify e)) :
    Judging crypto e { s with tasks := s.tasks.take n ++ s.readyProof e ++ s.tasks.drop (n + 1) } epoch := by
  apply h.same hn
  · intro t ht
    obtain ⟨proof, exporter, peerPub, generation, rfl⟩ : ∃ proof exporter peerPub generation,
        t = .judge e proof exporter peerPub generation := by
      rw [readyProof, h.pieces.lookup] at ht
      dsimp only at ht
      split at ht
      · cases ht
      · exact ⟨_, _, _, _, List.mem_singleton.mp ht⟩
    refine ⟨by simp [identityTask], ?_⟩
    intro proof' exporter' peerPub' generation' he
    cases he
    obtain ⟨found, hfound, hpending, hne, hx, hxne, hk, hsize, -⟩ := mem_readyProof ht
    obtain rfl : epoch = found := Option.some.inj (h.pieces.lookup.symm.trans hfound)
    refine ⟨?_, hx.symm, hxne, hk.symm, hsize⟩
    cases h.pieces.phase with
    | before hnone hp => exact absurd (hpending.symm.trans hp) hne
    | waiting first hone _ hp => exact (hone proof).mpr (hpending.symm.trans hp)
    | judged first hone hp => exact absurd (hpending.symm.trans hp) hne
  · rintro ⟨hp, hx, hk⟩
    left
    cases h.pieces.phase with
    | before hnone hp' => exact absurd hp' hp
    | judged first hone hp' => exact absurd hp' hp
    | waiting first hone hne hp' hv hf =>
      refine ⟨.judge e epoch.pendingPeerIdentityProof epoch.tlsExporter s.peerClientPublicKey epoch.pendingGeneration, ?_,
        by simp [rechecks]⟩
      rw [readyProof, h.pieces.lookup]
      dsimp only
      rw [if_neg (by simp [hv, hf, hp, hx, hk])]
      exact List.mem_singleton_self _

lemma Judging.store (h : Judging crypto e s epoch) (c : EncryptedControl) (hn : s.tasks[n]? = some (.proofStore c e)) :
    ∃ epoch', Judging crypto e { (s.storeProof c e).1 with
      tasks := s.tasks.take n ++ (s.storeProof c e).2 ++ s.tasks.drop (n + 1) } epoch' := by
  rw [storeProof, h.pieces.lookup]
  dsimp only
  split
  · exact ⟨epoch, h.same hn (by simp) fun _ => .inr rfl⟩
  next hfree =>
  simp only [Bool.or_eq_true, decide_eq_true_eq, not_or, Bool.not_eq_true] at hfree
  obtain ⟨⟨hverified, hfailed⟩, hpending⟩ := hfree
  have hpending : epoch.pendingPeerIdentityProof = [] := not_not.mp hpending
  -- a proof that came before would wait or have its verdict
  obtain ⟨hnone, hestablished⟩ : (∀ proof, ¬ Accepted s e proof) ∧ s.establishedEpoch ≠ some e := by
    cases h.pieces.phase with
    | before hnone _ _ he => exact ⟨hnone, he⟩
    | waiting first hone hne hp => exact absurd (hp.symm.trans hpending) hne
    | judged first hone hp hx hk hv hf =>
      rw [hverified] at hv
      rw [hfailed, ← hv] at hf
      cases hf
  split
  · have hlookup := modifyEpoch_of_some (e := e) (fun epoch => { epoch with identityFailed := true }) h.pieces.lookup
    rw [if_pos rfl] at hlookup
    have hsame : ∀ other, Accepted ((s.modifyEpoch e fun epoch => { epoch with identityFailed := true }).log
        (.malformed e c.generation (s.epochIdOf e))) e other ↔ Accepted s e other := accepted_log (by simp) rfl
    refine ⟨{ epoch with identityFailed := true }, h.next hn []
      ⟨h.pieces.current, hlookup, h.pieces.done, h.pieces.keyed, ?_⟩ ?_ (by simp) ?_⟩
    · exact .before (fun proof ha => hnone proof ((hsame proof).mp ha)) hpending hverified hestablished
    · exact fun t ht => ht.alike (fun other ha => (hsame other).mpr ha) rfl rfl
    · rintro ⟨hp, -⟩
      exact absurd hpending hp
  · next hsize =>
    have hsize : c.payload.length = signatureSize := not_not.mp hsize
    have hlookup := modifyEpoch_of_some (e := e) (fun epoch =>
      { epoch with pendingPeerIdentityProof := c.payload, pendingGeneration := c.generation }) h.pieces.lookup
    rw [if_pos rfl] at hlookup
    have hone : ∀ other, Accepted ((s.modifyEpoch e fun epoch =>
        { epoch with pendingPeerIdentityProof := c.payload, pendingGeneration := c.generation }).log
        (.buffered e c.generation (s.epochIdOf e) c.payload)) e other ↔ other = c.payload := by
      intro other
      constructor
      · rintro ⟨generation, epochId, hmem⟩
        rcases List.mem_cons.mp hmem with he | hmem
        · cases he
          rfl
        · exact absurd ⟨generation, epochId, hmem⟩ (hnone other)
      · rintro rfl
        exact ⟨_, _, List.mem_cons_self⟩
    have hne : c.payload ≠ [] := by
      intro hnil
      rw [hnil] at hsize
      cases hsize
    refine ⟨_, h.next hn [.maybeVerify e] ⟨h.pieces.current, hlookup, h.pieces.done, h.pieces.keyed, ?_⟩ ?_ ?_ ?_⟩
    · exact .waiting c.payload hone hne rfl hverified hfailed hestablished
    · intro t ht proof exporter peerPub generation he
      exact absurd (ht proof exporter peerPub generation he).1 (hnone proof)
    · intro t ht
      rw [List.mem_singleton.mp ht]
      exact ⟨by simp [identityTask], holds_of_ne (by simp)⟩
    · exact fun _ => .inl ⟨.maybeVerify e, List.mem_singleton_self _, by simp [rechecks]⟩

end Sections

lemma Judging.pass (h : Judging crypto e s epoch) {n : ℕ} (hn : s.tasks[n]? = some task) {i : Input} {t : Task}
    (hadvance : s.advance crypto i task = (s, [t])) (ht : identityTask e t = true)
    (hne : ∀ proof exporter peerPub generation, t ≠ .judge e proof exporter peerPub generation)
    (hdue : rechecks e t = true ∨ rechecks e task = false) :
    ∃ epoch', Judging crypto e { (s.advance crypto i task).1 with
      tasks := s.tasks.take n ++ (s.advance crypto i task).2 ++ s.tasks.drop (n + 1) } epoch' := by
  rw [hadvance]
  refine ⟨epoch, h.same hn ?_ fun _ => hdue.imp_left fun hr => ⟨t, List.mem_singleton_self t, hr⟩⟩
  intro t' ht'
  rw [List.mem_singleton.mp ht']
  exact ⟨ht, holds_of_ne hne⟩

lemma Judging.advance (h : Judging crypto e s epoch) {n : ℕ} (hn : s.tasks[n]? = some task) (i : Input)
    (hstays : (s.advance crypto i task).1.epoch = some e) :
    ∃ epoch', Judging crypto e { (s.advance crypto i task).1 with
      tasks := s.tasks.take n ++ (s.advance crypto i task).2 ++ s.tasks.drop (n + 1) } epoch' := by
  have htask := (h.tasks task (List.mem_of_getElem? hn)).1
  have hcurrent := h.pieces.current
  cases task with
  | completeHandshake e' result =>
    obtain rfl : e' = e := by simpa [identityTask] using htask
    exact h.complete result hn
  | handshakeCompleted e' =>
    obtain rfl : e' = e := by simpa [identityTask] using htask
    apply h.pass hn (t := .sendIdentityProofOnce e') _ (by simp [identityTask]) (by simp) (.inl (by simp [rechecks]))
    rw [PeerEncryptionSession.advance, if_pos hcurrent]
  | sendIdentityProofOnce e' =>
    obtain rfl : e' = e := by simpa [identityTask] using htask
    refine ⟨_, h.touch hn ?_ ?_ (.inl ⟨.maybeVerify e', List.mem_singleton_self _, by simp [rechecks]⟩)⟩
    · constructor <;> intro epoch <;> split <;> rfl
    · intro t ht
      rw [List.mem_singleton.mp ht]
      exact ⟨by simp [identityTask], holds_of_ne (by simp)⟩
  | maybeVerify e' =>
    obtain rfl : e' = e := by simpa [identityTask] using htask
    exact ⟨epoch, h.verify hn⟩
  | judge e' proof exporter peerPub generation =>
    obtain rfl : e' = e := by simpa [identityTask] using htask
    exact ⟨_, h.judge hn⟩
  | setPeerClientPublicKey pub => exact ⟨epoch, h.key pub hn⟩
  | verifyCurrent =>
    apply h.pass hn (t := .maybeVerify e) _ (by simp [identityTask]) (by simp) (.inl (by simp [rechecks]))
    rw [PeerEncryptionSession.advance, hcurrent, Option.map_some, Option.toList_some]
  | proofStart c epochId =>
    apply h.pass hn (t := .proofEpoch c epochId) _ rfl (by simp) (.inr rfl)
    rw [PeerEncryptionSession.advance, startEpoch_of_some hcurrent]
  | proofEpoch c epochId =>
    by_cases hzero : epochId = Id.zero
    · apply h.pass hn (t := .proofStore c e) _ (by simp [identityTask]) (by simp) (.inr rfl)
      rw [PeerEncryptionSession.advance, hcurrent]
      dsimp only
      rw [if_pos hzero]
    · apply h.pass hn (t := .proofCompare c epochId e) _ (by simp [identityTask]) (by simp) (.inr rfl)
      rw [PeerEncryptionSession.advance, hcurrent]
      dsimp only
      rw [if_neg hzero]
  | proofCompare c epochId e' =>
    obtain rfl : e' = e := by simpa [identityTask] using htask
    by_cases hzero : s.epochIdOf e' = Id.zero
    · apply h.pass hn (t := .proofAdopt c epochId e') _ (by simp [identityTask]) (by simp) (.inr rfl)
      rw [PeerEncryptionSession.advance, if_pos hzero]
    by_cases hid : s.epochIdOf e' = epochId
    · apply h.pass hn (t := .proofStore c e') _ (by simp [identityTask]) (by simp) (.inr rfl)
      rw [PeerEncryptionSession.advance, if_neg hzero, if_pos hid]
    by_cases hless : (s.epochIdOf e').lessThan epochId = true
    · apply h.pass hn (t := .convergeToPeerEpoch) _ rfl (by simp) (.inr rfl)
      rw [PeerEncryptionSession.advance, if_neg hzero, if_neg hid, if_pos hless]
    · rw [PeerEncryptionSession.advance, if_neg hzero, if_neg hid, if_neg hless]
      exact ⟨epoch, h.same hn (by simp) fun _ => .inr rfl⟩
  | proofAdopt c epochId e' =>
    obtain rfl : e' = e := by simpa [identityTask] using htask
    have hspawned : ∀ (session : PeerEncryptionSession κ) (found : TlsHandshakeEpoch κ), ∀ t ∈ [Task.proofStore c e'],
        identityTask e' t = true ∧ Holds session e' found t := by
      intro session found t ht
      rw [List.mem_singleton.mp ht]
      exact ⟨by simp [identityTask], holds_of_ne (by simp)⟩
    simp only [PeerEncryptionSession.advance, adoptEpochId]
    split
    · exact ⟨epoch, h.same hn (hspawned _ _) fun _ => .inr rfl⟩
    split
    · refine ⟨_, h.touch hn ?_ (hspawned _ _) (.inr rfl)⟩
      constructor <;> intro epoch <;> rfl
    · exact ⟨epoch, h.same hn (hspawned _ _) fun _ => .inr rfl⟩
  | proofStore c e' =>
    obtain rfl : e' = e := by simpa [identityTask] using htask
    exact h.store c hn
  | optimisticProof c =>
    apply h.pass hn (t := .proofStart c Id.zero) _ rfl (by simp) (.inr rfl)
    rw [PeerEncryptionSession.advance, if_neg (by simp [hcurrent])]
  | convergeToPeerEpoch =>
    -- this section would put another epoch in its place
    obtain rfl : s.epochs.length = e := Option.some.inj hstays
    exact absurd h.pieces.lookup (by simp)
  | _ => cases htask

lemma Judging.call (h : Judging crypto e s epoch) {c : Call} (hc : identityCall e c = true) :
    Judging crypto e { s with tasks := s.tasks ++ c.tasks } epoch := by
  refine ⟨⟨h.pieces.current, h.pieces.lookup, h.pieces.done, h.pieces.keyed, h.pieces.phase⟩, ?_, ?_⟩
  · intro t ht
    rcases List.mem_append.mp ht with ht | ht
    · exact h.tasks t ht
    · cases c with
      | completeHandshake e' result =>
        obtain rfl : e' = e := by simpa [identityCall] using hc
        rw [List.mem_singleton.mp ht]
        exact ⟨by simp [identityTask], holds_of_ne (by simp)⟩
      | setPeerClientPublicKey pub =>
        rw [List.mem_singleton.mp ht]
        exact ⟨rfl, holds_of_ne (by simp)⟩
      | deliverEncryptedControl c =>
        have hproof : c.controlType = .identityProof := by simpa [identityCall] using hc
        rw [Call.tasks, PeerEncryptionSession.deliverEncryptedControl, hproof] at ht
        split at ht
        · cases ht
        · rw [List.mem_singleton.mp ht]
          exact ⟨rfl, holds_of_ne (by simp)⟩
      | optimisticControl c =>
        have hproof : c.controlType = .identityProof := by simpa [identityCall] using hc
        rw [Call.tasks, PeerEncryptionSession.optimisticControl, hproof] at ht
        rw [List.mem_singleton.mp ht]
        exact ⟨rfl, holds_of_ne (by simp)⟩
      | _ => cases hc
  · intro hd
    obtain ⟨t, ht, hr⟩ := h.rechecked hd
    exact ⟨t, List.mem_append_left _ ht, hr⟩

lemma Begins.judging (h : Begins s e) : ∃ epoch, Judging crypto e s epoch := by
  obtain ⟨epoch, hlookup, hpending, hverified, hdone⟩ := h.epoch
  refine ⟨epoch, ⟨h.current, hlookup, hdone, h.keyed, .before h.unproved hpending hverified h.waiting⟩, ?_, ?_⟩
  · rw [h.quiet]
    simp
  · rintro ⟨hp, -⟩
    exact absurd hpending hp

lemma judging_step (h : ∃ epoch, Judging crypto e s epoch) (event : Event) (hstays : staysOn crypto e s event = true) :
    ∃ epoch, Judging crypto e (step crypto s event) epoch := by
  obtain ⟨epoch, h⟩ := h
  cases event with
  | call c => exact ⟨epoch, h.call hstays⟩
  | advance n i =>
    cases hn : s.tasks[n]? with
    | none =>
      simp only [step, hn]
      exact ⟨epoch, h⟩
    | some task =>
      simp only [staysOn, step, hn, decide_eq_true_eq] at hstays ⊢
      exact h.advance hn i hstays

/-- Once no call runs and the three pieces are there, the epoch has its verdict, and it is the one of the accepted proof
over the epoch's exporter under the known key. -/
theorem identity_verdict_is_reached (crypto : Crypto κ) (start : PeerEncryptionSession κ) (e : ℕ) (hstart : Begins start e)
    {events : List Event}
    (hstays : Meets (fun s event => staysOn crypto e s event = true) (step crypto) start events)
    (epoch : TlsHandshakeEpoch κ) (proof : List UInt8) :
    let s := run (step crypto) start events
    s.epochs[e]? = some epoch → s.tasks = [] → epoch.tlsExporter ≠ [] → Accepted s e proof →
    s.peerClientPublicKey.length = publicKeySize →
    (s.establishedEpoch = some e ↔
        crypto.verifyClientKeySignature s.peerClientPublicKey epoch.tlsExporter proof = true) ∧
      (epoch.identityFailed = true ↔
        crypto.verifyClientKeySignature s.peerClientPublicKey epoch.tlsExporter proof = false) := by
  intro s hlookup hquiet hexporter haccepted hkey
  obtain ⟨found, h⟩ : ∃ found, Judging crypto e s found :=
    meets_invariant (I := fun s => ∃ found, Judging crypto e s found) (fun _ event hj => judging_step hj event)
      hstart.judging hstays
  obtain rfl : epoch = found := Option.some.inj (hlookup.symm.trans h.pieces.lookup)
  cases h.pieces.phase with
  | before hnone => exact absurd haccepted (hnone proof)
  | waiting first hone hne hp =>
    obtain ⟨t, ht, -⟩ := h.rechecked ⟨by rw [hp]; exact hne, hexporter, hkey⟩
    rw [hquiet] at ht
    cases ht
  | judged first hone hp hx hk hv hf he =>
    obtain rfl := (hone proof).mp haccepted
    refine ⟨he, ?_⟩
    rw [hf, Bool.not_eq_true']

lemma begins_first (κ : Type) (role : SequenceTlsRole) (i : Input) :
    Begins ((newPeerEncryptionSession κ role).buildAndStartEpochWithLock i) 0 where
  current := rfl
  epoch := by
    refine ⟨(newPeerEncryptionSession κ role).newEpoch i, rfl, (newEpoch_unproved _ i).1, ?_, ?_⟩
    · rw [newEpoch]
      split
      · rfl
      split <;> rfl
    · intro hne
      exfalso
      apply hne
      rw [newEpoch]
      split
      · rfl
      split <;> rfl
  unproved proof := by
    rintro ⟨generation, epochId, hmem⟩
    cases hmem
  waiting := by
    rintro ⟨⟩
  keyed := .inl rfl
  quiet := rfl

def proofFirstRun : List Event :=
  alone (.deliverEncryptedControl (epochProof 0)) 5 ++ alone (.completeHandshake 0 .completed) 4 ++
    alone (.setPeerClientPublicKey (List.replicate 32 0)) 4

def proofFirstStart : PeerEncryptionSession ℕ := (newPeerEncryptionSession ℕ .client).buildAndStartEpochWithLock quietInput

theorem identity_verdict_is_reached_proof_first :
    let s := run (step echoCrypto) proofFirstStart proofFirstRun
    s.establishedEpoch = some 0 ∧ ∃ epoch, s.epochs[0]? = some epoch ∧
      (s.establishedEpoch = some 0 ↔ echoCrypto.verifyClientKeySignature s.peerClientPublicKey epoch.tlsExporter
        (epochProof 0).payload = true) ∧
      (epoch.identityFailed = true ↔ echoCrypto.verifyClientKeySignature s.peerClientPublicKey epoch.tlsExporter
        (epochProof 0).payload = false) := by
  have hlookup : ((run (step echoCrypto) proofFirstStart proofFirstRun).epochs[0]?).isSome = true := by decide +kernel
  refine ⟨by decide +kernel, _, (Option.some_get hlookup).symm, ?_⟩
  apply identity_verdict_is_reached echoCrypto proofFirstStart 0 (begins_first ℕ .client quietInput) _ _
    (epochProof 0).payload (Option.some_get hlookup).symm
  · decide +kernel
  · revert hlookup
    decide +kernel
  · exact ⟨Id.ofByte 1, Id.ofByte 1, by decide +kernel⟩
  · decide +kernel
  · decide +kernel

end UrConnect.Encrypt.PeerEncryptionSession
