import UrConnect.Encrypt.Authenticated

/-! What a session's ciphers promise over every interleaving of its goroutines. -/

namespace UrConnect.Encrypt.PeerEncryptionSession

open Lib.Runs

variable {κ : Type} {crypto : Crypto κ} {s s' : PeerEncryptionSession κ} {task : Task} {e : ℕ} {c : κ}

def Exposes (crypto : Crypto κ) (s : PeerEncryptionSession κ) (key : List UInt8) (c : κ) : Prop :=
  ∃ e epoch, s.epochs[e]? = some epoch ∧ c = (crypto.handshake e).cipher ∧ epoch.derivedTlsCipher = some c ∧
    epoch.handshakeDone = true ∧ epoch.handshakeErr = none ∧ Proved crypto s.history key e

def NeverServes (crypto : Crypto κ) (s : PeerEncryptionSession κ) (e : ℕ) : Prop :=
  ∀ later : List Event, (run (step crypto) s later).establishedEpoch ≠ some e ∧
    (run (step crypto) s later).priorEstablishedEpoch ≠ some e

lemma serving_of_cipher (h : s.cipher = some c ∨ c ∈ s.decryptCiphers) :
    ∃ e epoch, (s.establishedEpoch = some e ∨ s.priorEstablishedEpoch = some e) ∧ s.epochs[e]? = some epoch ∧
      epoch.derivedTlsCipher = some c := by
  have hserves : ∀ o : Option ℕ, (o.bind (s.epochs[·]?)).bind TlsHandshakeEpoch.derivedTlsCipher = some c →
      ∃ e epoch, o = some e ∧ s.epochs[e]? = some epoch ∧ epoch.derivedTlsCipher = some c := by
    intro o ho
    obtain ⟨epoch, hepoch, hc⟩ := Option.bind_eq_some_iff.mp ho
    obtain ⟨e, he, hepoch⟩ := Option.bind_eq_some_iff.mp hepoch
    exact ⟨e, epoch, he, hepoch, hc⟩
  have hfield : ∃ o ∈ [s.establishedEpoch, s.priorEstablishedEpoch],
      (o.bind (s.epochs[·]?)).bind TlsHandshakeEpoch.derivedTlsCipher = some c := by
    rcases h with h | h
    · exact ⟨_, List.mem_cons_self, h⟩
    · exact List.mem_filterMap.mp h
  obtain ⟨o, hmem, ho⟩ := hfield
  obtain ⟨e, epoch, rfl, hepoch, hc⟩ := hserves o ho
  refine ⟨e, epoch, ?_, hepoch, hc⟩
  rcases List.mem_cons.mp hmem with hmem | hmem
  · exact Or.inl hmem.symm
  · exact Or.inr (List.mem_singleton.mp hmem).symm

lemma Authenticated.exposes (h : Authenticated crypto s) (hc : s.cipher = some c ∨ c ∈ s.decryptCiphers) :
    ∃ key, firstKey s.history = some key ∧ Exposes crypto s key c := by
  obtain ⟨e, epoch, hserves, hepoch, hderived⟩ := serving_of_cipher hc
  have hverified : Verified s e := hserves.elim (h.established e) (h.prior e)
  obtain ⟨epoch', hepoch', hv⟩ := hverified
  obtain rfl : epoch' = epoch := Option.some.inj (hepoch'.symm.trans hepoch)
  have hsound := h.epochs e epoch' hepoch
  obtain ⟨-, hexporter, hproved⟩ := hsound.verified hv
  obtain ⟨hdone, herr, hcipher, -⟩ := hsound.exported hexporter
  have hkey : firstKey s.history = some s.peerClientPublicKey := by
    cases hfirst : firstKey s.history with
    | some key => rw [← h.key, hfirst, Option.getD_some]
    | none =>
      obtain ⟨payload, -, hverify⟩ := hproved
      rw [← h.key, hfirst, Option.getD_none] at hverify
      simp [Crypto.verifyClientKeySignature, publicKeySize] at hverify
  refine ⟨_, hkey, e, epoch', hepoch, ?_, hderived, hdone, herr, hproved⟩
  exact Option.some.inj (hderived.symm.trans hcipher)

lemma authenticated_run (h : Authenticated crypto s) (events : List Event) :
    Authenticated crypto (run (step crypto) s events) :=
  run_invariant (I := Authenticated crypto) (fun _ event h => authenticated_step h event) h events

lemma change_step (crypto : Crypto κ) (s : PeerEncryptionSession κ) (event : Event) :
    ∃ s₁ task tasks, Change crypto s task s₁ ∧ step crypto s event = { s₁ with tasks := tasks } := by
  cases event with
  | call c => exact ⟨s, .startEpoch, s.tasks ++ c.tasks, .same, rfl⟩
  | advance n i =>
    rw [step]
    split
    · exact ⟨s, .startEpoch, s.tasks, .same, rfl⟩
    · next task htask => exact ⟨_, _, _, change_advance crypto i (List.mem_of_getElem? htask), rfl⟩

structure Superseded (s : PeerEncryptionSession κ) (e : ℕ) : Prop where
  built : e < s.epochs.length
  current : s.epoch ≠ some e
  established : s.establishedEpoch ≠ some e
  prior : s.priorEstablishedEpoch ≠ some e

lemma length_of_change (hc : Change crypto s task s') : s.epochs.length ≤ s'.epochs.length := by
  by_contra hlt
  obtain ⟨epoch', he', -⟩ := epoch_of_change hc (List.getElem?_eq_getElem (Nat.lt_of_not_le hlt))
  rw [List.getElem?_eq_none (Nat.le_refl _)] at he'
  cases he'

lemma current_of_change (hc : Change crypto s task s') :
    s'.epoch = s.epoch ∨ s'.epoch = some s.epochs.length ∧ s.epochs.length < s'.epochs.length := by
  cases hc with
  | judge e payload exporter peerPub generation htask =>
    left
    rw [judge]
    split
    · rw [markEstablishedWithLock]
      split <;> rfl
    · rfl
  | store c e htask =>
    left
    rw [storeProof]
    split
    · rfl
    split
    · rfl
    split <;> rfl
  | key pub =>
    left
    rw [setPeerClientPublicKey]
    split
    · rfl
    split <;> rfl
  | build i t => exact Or.inr ⟨rfl, by simp [buildAndStartEpochWithLock]⟩
  | _ => exact Or.inl rfl

lemma superseded_step (hs : Authenticated crypto s) (h : Superseded s e) (event : Event) :
    Superseded (step crypto s event) e := by
  obtain ⟨s₁, task, tasks, hc, hstep⟩ := change_step crypto s event
  have hlength := length_of_change hc
  rw [hstep]
  refine ⟨Nat.lt_of_lt_of_le h.built hlength, ?_, ?_, ?_⟩
  · change s₁.epoch ≠ some e
    rcases current_of_change hc with hsame | ⟨hnew, -⟩
    · rw [hsame]
      exact h.current
    · rw [hnew]
      intro heq
      exact absurd h.built (by rw [Option.some.inj heq]; exact Nat.lt_irrefl e)
  · change s₁.establishedEpoch ≠ some e
    rcases promotion_of_change hs hc with ⟨hsame, -⟩ | ⟨e', hcurrent, -, -, hest, -⟩
    · rw [hsame]
      exact h.established
    · rw [hest, ← hcurrent]
      exact h.current
  · change s₁.priorEstablishedEpoch ≠ some e
    rcases promotion_of_change hs hc with ⟨-, hsame⟩ | ⟨e', -, -, -, -, hprior⟩
    · rw [hsame]
      exact h.prior
    · rw [hprior]
      exact h.established

lemma superseded_never (hs : Authenticated crypto s) (h : Superseded s e) : NeverServes crypto s e := by
  intro later
  have hrun := run_invariant (I := fun s => Authenticated crypto s ∧ Superseded s e)
    (fun s event h => ⟨authenticated_step h.1 event, superseded_step h.1 h.2 event⟩) ⟨hs, h⟩ later
  exact ⟨hrun.2.established, hrun.2.prior⟩

lemma failed_never (hs : Authenticated crypto s) {epoch : TlsHandshakeEpoch κ} (he : s.epochs[e]? = some epoch)
    (hfailed : epoch.identityFailed = true) : NeverServes crypto s e := by
  intro later
  have hrun := run_invariant
    (I := fun s => Authenticated crypto s ∧ ∃ epoch, s.epochs[e]? = some epoch ∧ epoch.identityFailed = true)
    (fun s event h => by
      obtain ⟨hs, epoch, he, hfailed⟩ := h
      refine ⟨authenticated_step hs event, ?_⟩
      obtain ⟨s₁, task, tasks, hc, hstep⟩ := change_step crypto s event
      obtain ⟨epoch', he', -, hkeep⟩ := epoch_of_change hc he
      rw [hstep]
      exact ⟨epoch', he', hkeep hfailed⟩)
    ⟨hs, epoch, he, hfailed⟩ later
  obtain ⟨hs', epoch', he', hfailed'⟩ := hrun
  have hunverified : ¬ Verified (run (step crypto) s later) e := by
    rintro ⟨epoch'', he'', hv⟩
    obtain rfl : epoch'' = epoch' := Option.some.inj (he''.symm.trans he')
    rw [((hs'.epochs e epoch'' he').verified hv).1] at hfailed'
    cases hfailed'
  exact ⟨fun heq => hunverified (hs'.established e heq), fun heq => hunverified (hs'.prior e heq)⟩

lemma established_step (hs : Authenticated crypto s) (h : s.establishedEpoch ≠ none) (event : Event) :
    (step crypto s event).establishedEpoch ≠ none := by
  obtain ⟨s₁, task, tasks, hc, hstep⟩ := change_step crypto s event
  rw [hstep]
  rcases promotion_of_change hs hc with ⟨hsame, -⟩ | ⟨e', -, -, -, hest, -⟩
  · change s₁.establishedEpoch ≠ none
    rw [hsame]
    exact h
  · change s₁.establishedEpoch ≠ none
    rw [hest]
    exact Option.some_ne_none e'

lemma Authenticated.cipher_ne_none (h : Authenticated crypto s) (hest : s.establishedEpoch ≠ none) : s.cipher ≠ none := by
  obtain ⟨e, he⟩ := Option.ne_none_iff_exists'.mp hest
  obtain ⟨epoch, hepoch, hv⟩ := h.established e he
  have hsound := h.epochs e epoch hepoch
  rw [cipher, he, Option.bind_some, hepoch, Option.bind_some, (hsound.exported (hsound.verified hv).2.1).2.2.1]
  exact Option.some_ne_none _

lemma cipher_never_lost (hs : Authenticated crypto s) (h : s.cipher ≠ none) (later : List Event) :
    (run (step crypto) s later).cipher ≠ none := by
  have hest : s.establishedEpoch ≠ none := by
    intro hnone
    rw [cipher, hnone] at h
    exact h rfl
  have hrun := run_invariant (I := fun s => Authenticated crypto s ∧ s.establishedEpoch ≠ none)
    (fun s event h => ⟨authenticated_step h.1 event, established_step h.1 h.2 event⟩) ⟨hs, hest⟩ later
  exact hrun.1.cipher_ne_none hrun.2

theorem exposed_ciphers_are_authenticated (crypto : Crypto κ) (role : SequenceTlsRole) (events : List Event) :
    let s := run (step crypto) (newPeerEncryptionSession κ role) events
    (∀ c, s.cipher = some c ∨ c ∈ s.decryptCiphers →
      ∃ key, firstKey s.history = some key ∧ Exposes crypto s key c) ∧
    (∀ e epoch, s.epochs[e]? = some epoch → s.epoch ≠ some e → epoch.peerIdentityVerified = false →
      NeverServes crypto s e) ∧
    (∀ e epoch, s.epochs[e]? = some epoch → epoch.identityFailed = true → NeverServes crypto s e) ∧
    (s.cipher ≠ none → ∀ later, (run (step crypto) s later).cipher ≠ none) := by
  intro s
  have hs : Authenticated crypto s := authenticated_run (authenticated_new role) events
  refine ⟨fun c hc => hs.exposes hc, fun e epoch he hcurrent hunverified => ?_,
    fun e epoch he hfailed => failed_never hs he hfailed, fun hc later => cipher_never_lost hs hc later⟩
  have hnot : ¬ Verified s e := by
    rintro ⟨epoch', he', hv⟩
    obtain rfl : epoch' = epoch := Option.some.inj (he'.symm.trans he)
    rw [hv] at hunverified
    cases hunverified
  exact superseded_never hs
    ⟨(List.getElem?_eq_some_iff.mp he).1, hcurrent, fun h => hnot (hs.established e h), fun h => hnot (hs.prior e h)⟩

def trustingCrypto : Crypto ℕ where
  handshake e := ⟨e, [UInt8.ofNat e], [[UInt8.ofNat e]]⟩
  verify _ _ _ := true
  canonicalCertChainBytes := List.flatten
  parsePemCertificates pems := some pems

def quietInput : Input where
  now := 0
  newId := Id.ofByte 1
  serverTlsConfig := true
  clientKeyManager := true
  shouldRekey := false

def proofControl : EncryptedControl where
  controlType := .identityProof
  payload := List.replicate 64 0
  epochId := []

def alone (c : Call) (sections : ℕ) : List Event := .call c :: List.replicate sections (.advance 0 quietInput)

def rejectedKeyRun : List Event :=
  alone (.setPeerClientPublicKey []) 1 ++ alone (.setPeerClientPublicKey (List.replicate 32 0)) 2 ++
    alone .startEpoch 1 ++ alone (.completeHandshake 0 .completed) 4 ++
    alone (.deliverEncryptedControl proofControl) 5

lemma not_proved_empty (crypto : Crypto κ) (history : List SessionEntry) (e : ℕ) : ¬ Proved crypto history [] e := by
  rintro ⟨payload, -, hverify⟩
  simp [Crypto.verifyClientKeySignature, publicKeySize] at hverify

theorem rejected_key_is_not_the_first :
    let s := run (step trustingCrypto) (newPeerEncryptionSession ℕ .client) rejectedKeyRun
    s.cipher = some 0 ∧ ¬ ∃ key, (keysPassed s.history).head? = some key ∧ Exposes trustingCrypto s key 0 := by
  refine ⟨by decide +kernel, ?_⟩
  rintro ⟨key, hfirst, e, epoch, -, -, -, -, -, hproved⟩
  have hempty : (keysPassed (run (step trustingCrypto) (newPeerEncryptionSession ℕ .client)
      rejectedKeyRun).history).head? = some [] := by decide +kernel
  obtain rfl : key = [] := Option.some.inj (hfirst.symm.trans hempty)
  exact not_proved_empty _ _ _ hproved

end UrConnect.Encrypt.PeerEncryptionSession
