import UrConnect.Encrypt.Generations

/-! The certificate of an epoch and the frames that are sealed under its cipher. -/

namespace UrConnect.Encrypt.PeerEncryptionSession

open Lib.Runs

variable {κ : Type} {crypto : Crypto κ} {s s' : PeerEncryptionSession κ} {task : Task} {e : ℕ}

def Matched (crypto : Crypto κ) (history : List SessionEntry) (e : ℕ) : Prop :=
  ∃ expected, .matched e expected ∈ history ∧ expected ≠ [] ∧
    crypto.verifyPeerCertificateAgainstContract (crypto.handshake e).peerCertificates expected = true

/-- Whenever a sequence without a companion contract sealed under epoch `e` while certificates were
trusted, the certificate of `e` had been matched. -/
def Pinned (crypto : Crypto κ) (history : List SessionEntry) : Prop :=
  ∀ newer older e, history = newer ++ .sealed e false true :: older → Matched crypto older e

/-- While a write that took the cipher of epoch `e` verifies the certificate, no rekey comes between:
a set flag is that of `e`, the established epoch is `e`, and so is the epoch that gets marked. -/
def verifiesSealingEpoch (s : PeerEncryptionSession κ) : Event → Bool
  | .call _ => true
  | .advance n _ =>
    match s.tasks[n]? with
    | some (.certState false e) => !s.certVerified || s.epoch = some e
    | some (.certEstablished e _) => s.establishedEpoch = some e
    | some (.markCertVerified e) => s.epoch = some e
    | _ => true

lemma Matched.mono {history history' : List SessionEntry} (h : Matched crypto history e) (hsub : history ⊆ history') :
    Matched crypto history' e := by
  obtain ⟨expected, hmem, hne, hverify⟩ := h
  exact ⟨expected, hsub hmem, hne, hverify⟩

def TaskPinned (crypto : Crypto κ) (s : PeerEncryptionSession κ) : Task → Prop
  | .certSnapshot _ => s.trustedPeerCertPems ≠ []
  | .certEstablished _ expected => expected ≠ []
  | .markCertVerified e => Matched crypto s.history e
  | .sealFrame false true e => Matched crypto s.history e
  | _ => True

structure Verifies (crypto : Crypto κ) (s : PeerEncryptionSession κ) : Prop where
  marked : ∀ e epoch, s.epochs[e]? = some epoch → epoch.certVerified = true → Matched crypto s.history e
  tasks : ∀ task ∈ s.tasks, TaskPinned crypto s task
  pinned : Pinned crypto s.history

lemma trusted_of_change (hc : Change crypto s task s') (h : s.trustedPeerCertPems ≠ []) : s'.trustedPeerCertPems ≠ [] := by
  cases hc with
  | judge e payload exporter peerPub generation htask =>
    rw [judge]
    split
    · rw [markEstablishedWithLock]
      split <;> exact h
    · exact h
  | key pub =>
    rw [setPeerClientPublicKey]
    split
    · exact h
    split <;> exact h
  | store c e htask =>
    rw [storeProof]
    split
    · exact h
    split
    · exact h
    split <;> exact h
  | trust chain => exact fun hempty => h (List.append_eq_nil_iff.mp hempty).1
  | same => exact h
  | build i t => exact h
  | complete e result hopen => exact h
  | touch e f hf hid hcert => exact h
  | note entry hentry => exact h

lemma TaskPinned.change {other : Task} (h : TaskPinned crypto s other) (hc : Change crypto s task s') :
    TaskPinned crypto s' other := by
  cases other with
  | certSnapshot e => exact trusted_of_change hc h
  | certEstablished e expected => exact h
  | markCertVerified e => exact Matched.mono h (subset_of_change hc)
  | sealFrame companionContract committed e =>
    cases companionContract <;> cases committed
    · trivial
    · exact Matched.mono h (subset_of_change hc)
    · trivial
    · trivial
  | _ => trivial

lemma Verifies.marked_change (h : Verifies crypto s) (hc : Change crypto s task s')
    (hmark : ∀ sealing, task = .markCertVerified sealing → s.epoch = some sealing ∧ Matched crypto s.history sealing)
    {epoch' : TlsHandshakeEpoch κ} (he : s'.epochs[e]? = some epoch') (hmarked : epoch'.certVerified = true) :
    Matched crypto s'.history e := by
  have hkeep : ∀ epoch, s.epochs[e]? = some epoch → epoch.certVerified = true → Matched crypto s'.history e :=
    fun epoch hepoch hv => (h.marked e epoch hepoch hv).mono (subset_of_change hc)
  have hmodify : ∀ (e' : ℕ) (f : TlsHandshakeEpoch κ → TlsHandshakeEpoch κ),
      s'.epochs = (s.modifyEpoch e' f).epochs → (∀ epoch, (f epoch).certVerified = epoch.certVerified) →
      Matched crypto s'.history e := by
    intro e' f hs' hf
    rw [hs'] at he
    obtain ⟨epoch, hepoch, rfl⟩ := modifyEpoch_some he
    split at hmarked
    · rw [hf] at hmarked
      exact hkeep epoch hepoch hmarked
    · exact hkeep epoch hepoch hmarked
  cases hc with
  | build i t =>
    rcases build_some he with he | rfl
    · exact hkeep epoch' he hmarked
    · rw [(newEpoch_unproved _ i).2.2] at hmarked
      cases hmarked
  | complete e' result hopen => exact hmodify e' _ rfl fun epoch => by cases result <;> rfl
  | touch e' f hf hid hcert =>
    rcases hcert with hcert | ⟨hcurrent, sealing, htask⟩
    · exact hmodify e' f rfl hcert
    · obtain ⟨hsealing, hmatched⟩ := hmark sealing htask
      obtain rfl : sealing = e' := Option.some.inj (hsealing.symm.trans hcurrent)
      obtain ⟨epoch, hepoch, rfl⟩ := modifyEpoch_some he
      split at hmarked
      · next heq => exact heq ▸ hmatched
      · exact hkeep epoch hepoch hmarked
  | judge e' payload exporter peerPub generation htask =>
    exact hmodify e' _ (judge_epochs e' payload exporter peerPub generation) fun _ => rfl
  | store c e' htask =>
    rcases storeProof_epochs (s := s) c e' with hsame | ⟨-, -, -, -, -, ⟨-, hs'⟩ | ⟨-, hs'⟩⟩
    · rw [hsame] at he
      exact hkeep epoch' he hmarked
    · exact hmodify e' _ hs' fun _ => rfl
    · exact hmodify e' _ hs' fun _ => rfl
  | key pub =>
    rw [setPeerClientPublicKey_epochs] at he
    exact hkeep epoch' he hmarked
  | same => exact hkeep epoch' he hmarked
  | trust chain => exact hkeep epoch' he hmarked
  | note entry hentry => exact hkeep epoch' he hmarked

lemma Pinned.cons {history : List SessionEntry} {entry : SessionEntry} (h : Pinned crypto history)
    (hentry : ∀ e, entry = .sealed e false true → Matched crypto history e) : Pinned crypto (entry :: history) := by
  intro newer older e hsplit
  cases newer with
  | nil =>
    obtain ⟨rfl, rfl⟩ := List.cons.inj hsplit
    exact hentry e rfl
  | cons newest newer => exact h newer older e (List.cons.inj hsplit).2

lemma Verifies.pinned_change (h : Verifies crypto s) (hc : Change crypto s task s') : Pinned crypto s'.history := by
  cases hc with
  | judge e payload exporter peerPub generation htask =>
    rw [judge_history]
    exact h.pinned.cons (by intros; contradiction)
  | key pub =>
    rw [setPeerClientPublicKey]
    split
    · exact h.pinned.cons (by intros; contradiction)
    split <;> exact h.pinned.cons (by intros; contradiction)
  | store c e htask =>
    rw [storeProof]
    split
    · exact h.pinned
    split
    · exact h.pinned
    split <;> exact h.pinned.cons (by intros; contradiction)
  | note entry hentry =>
    refine h.pinned.cons fun e he => ?_
    subst he
    exact h.tasks _ hentry
  | same => exact h.pinned
  | build i t => exact h.pinned
  | complete e result hopen => exact h.pinned
  | touch e f hf hid hcert => exact h.pinned
  | trust chain => exact h.pinned

lemma verify_own {expected : List (List UInt8)} (hne : expected ≠ [])
    (h : crypto.verifyPeerCertificateAgainstContract (s.peerCertificatesOfEpoch crypto (some e)) expected = true) :
    crypto.verifyPeerCertificateAgainstContract (crypto.handshake e).peerCertificates expected = true := by
  rw [peerCertificatesOfEpoch] at h
  split at h
  · exact h
  · simp [Crypto.verifyPeerCertificateAgainstContract, hne] at h

lemma Verifies.spawned (h : Verifies crypto s) {n : ℕ} {i : Input} (hn : s.tasks[n]? = some task)
    (hverifies : verifiesSealingEpoch s (.advance n i) = true) {t : Task} (ht : t ∈ (s.advance crypto i task).2) :
    TaskPinned crypto (s.advance crypto i task).1 t := by
  have htask := h.tasks task (List.mem_of_getElem? hn)
  rw [verifiesSealingEpoch, hn] at hverifies
  cases task with
  | maybeVerify e =>
    change t ∈ s.readyProof e at ht
    rw [readyProof] at ht
    split at ht
    · cases ht
    split at ht
    · cases ht
    · rw [List.mem_singleton.mp ht]
      trivial
  | certState companionContract e =>
    change t ∈ (if companionContract || s.certVerified || s.trustedPeerCertPems = [] then
        [Task.sealFrame companionContract (s.trustedPeerCertPems ≠ []) e]
      else [.certSnapshot e]) at ht
    change TaskPinned crypto s t
    split at ht
    · next hskip =>
      rw [List.mem_singleton.mp ht]
      cases companionContract with
      | true => cases decide (s.trustedPeerCertPems ≠ []) <;> trivial
      | false =>
        by_cases htrusted : s.trustedPeerCertPems = []
        · rw [decide_eq_false (not_not.mpr htrusted)]
          trivial
        · rw [decide_eq_true htrusted]
          have hflag : s.certVerified = true := by simpa [htrusted] using hskip
          have hcurrent : s.epoch = some e := by simpa [hflag] using hverifies
          rw [certVerified, currentEpoch, hcurrent, Option.bind_some] at hflag
          cases hepoch : s.epochs[e]? with
          | none =>
            rw [hepoch] at hflag
            cases hflag
          | some epoch =>
            rw [hepoch] at hflag
            exact h.marked e epoch hepoch hflag
    · next hcheck =>
      rw [List.mem_singleton.mp ht]
      simp only [Bool.or_eq_true, decide_eq_true_eq, not_or] at hcheck
      exact hcheck.2
  | certSnapshot e =>
    rw [List.mem_singleton.mp ht]
    exact htask
  | certEstablished e expected =>
    have hestablished : s.establishedEpoch = some e := by simpa using hverifies
    change t ∈ (s.matchEstablished crypto e expected).2 at ht
    change TaskPinned crypto (s.matchEstablished crypto e expected).1 t
    rw [matchEstablished, hestablished] at ht ⊢
    split at ht
    · next hmatch =>
      rw [if_pos hmatch, List.mem_singleton.mp ht]
      exact ⟨expected, List.mem_cons_self, htask, verify_own htask hmatch⟩
    · cases ht
  | markCertVerified e =>
    rw [List.mem_singleton.mp ht]
    have hc : Change crypto s _ s.markCertVerified := change_markCertVerified e
    exact Matched.mono htask (subset_of_change hc)
  | _ =>
    simp only [advance, completeHandshake, setPeerClientPublicKey, storeProof] at ht
    grind [TaskPinned, Option.map_eq_some_iff]

lemma taskPinned_of_entry (h : Entry task) : TaskPinned crypto s task := by
  cases task with
  | certSnapshot e => exact h.elim
  | certEstablished e expected => exact h.elim
  | markCertVerified e => exact h.elim
  | sealFrame companionContract committed e => exact h.elim
  | _ => trivial

lemma verifies_step (h : Verifies crypto s) (event : Event) (hverifies : verifiesSealingEpoch s event = true) :
    Verifies crypto (step crypto s event) := by
  cases event with
  | call c =>
    refine ⟨h.marked, fun task hmem => ?_, h.pinned⟩
    rcases List.mem_append.mp hmem with hmem | hmem
    · exact h.tasks task hmem
    · exact taskPinned_of_entry (entry_of_call hmem)
  | advance n i =>
    rw [step]
    split
    · exact h
    · next task hn =>
      have hc := change_advance crypto i (List.mem_of_getElem? hn)
      have hmark : ∀ sealing, task = .markCertVerified sealing →
          s.epoch = some sealing ∧ Matched crypto s.history sealing := by
        rintro sealing rfl
        refine ⟨?_, h.tasks _ (List.mem_of_getElem? hn)⟩
        simpa [verifiesSealingEpoch, hn] using hverifies
      have hmarked : ∀ e epoch, (s.advance crypto i task).1.epochs[e]? = some epoch → epoch.certVerified = true →
          Matched crypto (s.advance crypto i task).1.history e := fun e epoch => h.marked_change hc hmark
      have hpinned := h.pinned_change hc
      refine ⟨hmarked, fun task' hmem => ?_, hpinned⟩
      have hbound : TaskPinned crypto (s.advance crypto i task).1 task' := by
        rcases List.mem_append.mp hmem with hmem | hmem
        · rcases List.mem_append.mp hmem with hmem | hmem
          · exact (h.tasks task' (List.mem_of_mem_take hmem)).change hc
          · exact h.spawned hn hverifies hmem
        · exact (h.tasks task' (List.mem_of_mem_drop hmem)).change hc
      exact hbound

lemma verifies_new (crypto : Crypto κ) (role : SequenceTlsRole) : Verifies crypto (newPeerEncryptionSession κ role) := by
  refine ⟨by simp [newPeerEncryptionSession], by simp [newPeerEncryptionSession], fun newer older e hsplit => ?_⟩
  exact absurd hsplit.symm (List.append_ne_nil_of_right_ne_nil _ (List.cons_ne_nil _ _))

theorem seals_are_pinned (crypto : Crypto κ) (role : SequenceTlsRole) {events : List Event}
    (hverifies : Meets (fun s event => verifiesSealingEpoch s event = true) (step crypto)
      (newPeerEncryptionSession κ role) events) :
    Pinned crypto (run (step crypto) (newPeerEncryptionSession κ role) events).history :=
  (meets_invariant (I := Verifies crypto) (fun _ event h => verifies_step h event) (verifies_new crypto role)
    hverifies).pinned

def trustEpochs (epochs : List UInt8) : List Event :=
  alone (.addTrustedPeerCertChain (epochs.map ([·])) (List.replicate 64 (epochs.headD 0))) 2

def establishFirst : List Event :=
  restartAs 1 ++ alone (.setPeerClientPublicKey (List.replicate 32 0)) 3 ++
    alone (.completeHandshake 0 .completed) 4 ++ alone (.deliverEncryptedControl (epochProof 0)) 6

def establishSecond : List Event :=
  alone (.completeHandshake 1 .completed) 4 ++ alone (.deliverEncryptedControl (epochProof 1)) 6

def quietRekeyRun : List Event :=
  establishFirst ++ trustEpochs [0, 1] ++ alone (.write false) 6 ++ restartAs 2 ++ establishSecond ++
    alone (.write false) 6

theorem quiet_rekey_seals_are_pinned :
    .sealed 1 false true ∈ (run (step echoCrypto) (newPeerEncryptionSession ℕ .client) quietRekeyRun).history ∧
      Pinned echoCrypto (run (step echoCrypto) (newPeerEncryptionSession ℕ .client) quietRekeyRun).history :=
  ⟨by decide +kernel, seals_are_pinned echoCrypto .client (by decide +kernel)⟩

def busyRekeyRun : List Event :=
  establishFirst ++ trustEpochs [0] ++ restartAs 2 ++ alone (.write false) 6 ++ establishSecond ++
    alone (.write false) 3

def matchedEpoch : SessionEntry → Option ℕ
  | .matched e _ => some e
  | _ => none

lemma mem_matchedEpoch {history : List SessionEntry} (h : Matched crypto history e) :
    e ∈ history.filterMap matchedEpoch := by
  obtain ⟨expected, hmem, -⟩ := h
  exact List.mem_filterMap.mpr ⟨_, hmem, rfl⟩

theorem rekey_seals_unmatched_certificate :
    let s := run (step echoCrypto) (newPeerEncryptionSession ℕ .client) busyRekeyRun
    .sealed 1 false true ∈ s.history ∧ ¬ Matched echoCrypto s.history 1 ∧ ¬ Pinned echoCrypto s.history := by
  intro s
  have hsealed : .sealed 1 false true ∈ s.history := by decide +kernel
  have hunmatched : ¬ Matched echoCrypto s.history 1 := fun h => absurd (mem_matchedEpoch h) (by decide +kernel)
  refine ⟨hsealed, hunmatched, fun hpinned => ?_⟩
  obtain ⟨newer, older, hsplit⟩ := List.append_of_mem hsealed
  refine hunmatched ((hpinned newer older 1 hsplit).mono ?_)
  rw [hsplit]
  exact fun entry hmem => List.mem_append_right _ (List.mem_cons_of_mem _ hmem)

end UrConnect.Encrypt.PeerEncryptionSession
