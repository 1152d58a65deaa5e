import UrConnect.Encrypt.CipherExposure

/-! Controls of one handshake generation and the epochs of another. -/

namespace UrConnect.Encrypt.PeerEncryptionSession

open Lib.Runs

variable {κ : Type} {crypto : Crypto κ} {s s' : PeerEncryptionSession κ} {task : Task} {e : ℕ} {g : Id}

def Bound (s : PeerEncryptionSession κ) (e : ℕ) (g : Id) : Prop := g = Id.zero ∨ s.epochIdOf e = g

instance (s : PeerEncryptionSession κ) (e : ℕ) (g : Id) : Decidable (Bound s e g) :=
  inferInstanceAs (Decidable (_ ∨ _))

def Named : SessionEntry → Prop
  | .fed _ generation epochId _ => generation ≠ Id.zero → epochId = generation
  | .buffered _ generation epochId _ => generation ≠ Id.zero → epochId = generation
  | .judged _ generation epochId _ _ => generation ≠ Id.zero → epochId = generation
  | .malformed _ generation epochId => generation ≠ Id.zero → epochId = generation
  | _ => True

/-- Where the receive loop picks the current epoch for a control, that epoch carries the generation
of the control; and no other control bound an epoch since `epochIdOf` found it without an id. -/
def picksOwnGeneration (s : PeerEncryptionSession κ) : Event → Bool
  | .call _ => true
  | .advance n _ =>
    match s.tasks[n]? with
    | some (.optimisticEpoch c) => s.epoch.all fun e => Bound s e c.generation
    | some (.proofEpoch c epochId) => epochId ≠ Id.zero || s.epoch.all fun e => Bound s e c.generation
    | some (.proofAdopt _ epochId e) => s.epochIdOf e = Id.zero || s.epochIdOf e = epochId
    | _ => true

lemma epochIdOf_of_some {epoch : TlsHandshakeEpoch κ} (he : s.epochs[e]? = some epoch) : s.epochIdOf e = epoch.epochId := by
  rw [epochIdOf, he, Option.map_some, Option.getD_some]

lemma complete_epochId (h : Handshake κ) (epoch : TlsHandshakeEpoch κ) (result : HandshakeResult) :
    (epoch.complete h result).epochId = epoch.epochId := by
  cases result <;> rfl

lemma epochIdOf_of_change (hc : Change crypto s task s') (hid : s.epochIdOf e ≠ Id.zero) : s'.epochIdOf e = s.epochIdOf e := by
  cases he : s.epochs[e]? with
  | none =>
    rw [epochIdOf, he] at hid
    exact absurd rfl hid
  | some epoch =>
    have hmodify : ∀ (e' : ℕ) (f : TlsHandshakeEpoch κ → TlsHandshakeEpoch κ),
        s'.epochs = (s.modifyEpoch e' f).epochs → (e' = e → (f epoch).epochId = epoch.epochId) →
        s'.epochIdOf e = s.epochIdOf e := by
      intro e' f hs' hf
      have hepoch := modifyEpoch_of_some (e := e') f he
      rw [← hs'] at hepoch
      rw [epochIdOf_of_some hepoch, epochIdOf_of_some he]
      split
      · next heq => exact hf heq
      · rfl
    have hkeep : s'.epochs[e]? = some epoch → s'.epochIdOf e = s.epochIdOf e := by
      intro he'
      rw [epochIdOf_of_some he', epochIdOf_of_some he]
    cases hc with
    | build i t => exact hkeep (build_of_some i he)
    | complete e' result hopen => exact hmodify e' _ rfl fun _ => complete_epochId _ _ _
    | touch e' f hf hset hcert =>
      refine hmodify e' f rfl fun heq => ?_
      subst heq
      rw [epochIdOf_of_some he] at hid
      exact hset epoch he hid
    | judge e' payload exporter peerPub generation htask =>
      exact hmodify e' _ (judge_epochs e' payload exporter peerPub generation) fun _ => rfl
    | store c e' htask =>
      rcases storeProof_epochs (s := s) c e' with hsame | ⟨-, -, -, -, -, ⟨-, hs'⟩ | ⟨-, hs'⟩⟩
      · exact hkeep (by rw [hsame]; exact he)
      · exact hmodify e' _ hs' fun _ => rfl
      · exact hmodify e' _ hs' fun _ => rfl
    | key pub => exact hkeep (by rw [setPeerClientPublicKey_epochs]; exact he)
    | same => rfl
    | trust chain => rfl
    | note entry hentry => rfl

lemma Bound.change (h : Bound s e g) (hc : Change crypto s task s') : Bound s' e g := by
  rcases h with h | h
  · exact Or.inl h
  · by_cases hzero : g = Id.zero
    · exact Or.inl hzero
    · right
      rw [epochIdOf_of_change hc (h ▸ hzero), h]

def FailedBy (history : List SessionEntry) (e : ℕ) (g : Id) : Prop :=
  (∃ epochId payload, .judged e g epochId payload false ∈ history) ∨ ∃ epochId, .malformed e g epochId ∈ history

lemma FailedBy.mono {history history' : List SessionEntry} (h : FailedBy history e g) (hsub : history ⊆ history') :
    FailedBy history' e g := by
  rcases h with ⟨epochId, payload, hmem⟩ | ⟨epochId, hmem⟩
  · exact Or.inl ⟨epochId, payload, hsub hmem⟩
  · exact Or.inr ⟨epochId, hsub hmem⟩

def TaskBound (s : PeerEncryptionSession κ) : Task → Prop
  | .handshakeDeliver c e => Bound s e c.generation
  | .proofStore c e => Bound s e c.generation
  | .optimisticDeliver c e => Bound s e c.generation
  | .judge e _ _ _ generation => Bound s e generation
  | .proofStart c epochId => epochId = c.generation ∨ epochId = Id.zero
  | .proofEpoch c epochId => epochId = c.generation ∨ epochId = Id.zero
  | .handshakeAdopt _ e => e < s.epochs.length
  | .proofCompare c epochId e => epochId = c.generation ∧ e < s.epochs.length
  | .proofAdopt c epochId e => epochId = c.generation ∧ e < s.epochs.length
  | _ => True

lemma TaskBound.change {other : Task} (h : TaskBound s other) (hc : Change crypto s task s') : TaskBound s' other := by
  cases other with
  | handshakeDeliver c e => exact Bound.change h hc
  | proofStore c e => exact Bound.change h hc
  | optimisticDeliver c e => exact Bound.change h hc
  | judge e payload exporter peerPub generation => exact Bound.change h hc
  | proofStart c epochId => exact h
  | proofEpoch c epochId => exact h
  | handshakeAdopt c e => exact Nat.lt_of_lt_of_le h (length_of_change hc)
  | proofCompare c epochId e => exact ⟨h.1, Nat.lt_of_lt_of_le h.2 (length_of_change hc)⟩
  | proofAdopt c epochId e => exact ⟨h.1, Nat.lt_of_lt_of_le h.2 (length_of_change hc)⟩
  | _ => trivial

structure Bounded (s : PeerEncryptionSession κ) : Prop where
  current : ∀ e, s.epoch = some e → e < s.epochs.length
  tasks : ∀ task ∈ s.tasks, TaskBound s task
  pending : ∀ e epoch, s.epochs[e]? = some epoch → epoch.pendingPeerIdentityProof ≠ [] →
    Bound s e epoch.pendingGeneration
  failed : ∀ e epoch, s.epochs[e]? = some epoch → epoch.identityFailed = true →
    ∃ g, Bound s e g ∧ FailedBy s.history e g
  history : ∀ entry ∈ s.history, Named entry

lemma adoptEpochId_bound (he : e < s.epochs.length) (h : (s.adoptEpochId e g).2 = true) :
    Bound (s.adoptEpochId e g).1 e g := by
  rw [adoptEpochId] at h ⊢
  split at h
  · next hzero => exact Or.inl hzero
  · next hg =>
    rw [if_neg hg]
    split at h
    · next hzero =>
      rw [if_pos hzero]
      right
      have hepoch := modifyEpoch_of_some (e := e) (fun epoch => { epoch with epochId := g }) (List.getElem?_eq_getElem he)
      rw [epochIdOf_of_some hepoch, if_pos rfl]
    · next hset =>
      rw [if_neg hset]
      exact Or.inr (of_decide_eq_true h)

lemma adoptEpochId_adopts (h : s.epochIdOf e = Id.zero ∨ s.epochIdOf e = g) : (s.adoptEpochId e g).2 = true := by
  rw [adoptEpochId]
  split
  · rfl
  split
  · rfl
  · next hset =>
    rcases h with h | h
    · exact absurd h hset
    · exact decide_eq_true h

lemma Bounded.readyProof (h : Bounded s) {t : Task} (ht : t ∈ s.readyProof e) : TaskBound s t := by
  rw [PeerEncryptionSession.readyProof] at ht
  split at ht
  · cases ht
  · next epoch he =>
    split at ht
    · cases ht
    · next hready =>
      simp only [Bool.or_eq_true, decide_eq_true_eq, not_or] at hready
      rw [List.mem_singleton.mp ht]
      exact h.pending e epoch he hready.1.1.2

lemma Bounded.spawned (h : Bounded s) {n : ℕ} {i : Input} {task : Task} (hn : s.tasks[n]? = some task)
    (hpicks : picksOwnGeneration s (.advance n i) = true) {t : Task} (ht : t ∈ (s.advance crypto i task).2) :
    TaskBound (s.advance crypto i task).1 t := by
  have htask := h.tasks task (List.mem_of_getElem? hn)
  rw [picksOwnGeneration, hn] at hpicks
  cases task with
  | maybeVerify e =>
    change t ∈ s.readyProof e at ht
    exact h.readyProof ht
  | handshakeEpoch c =>
    obtain ⟨e, he, rfl⟩ := Option.map_eq_some_iff.mp (Option.mem_toList.mp ht)
    exact h.current e he
  | handshakeAdopt c e =>
    change t ∈ (if (s.adoptEpochId e c.generation).2 then [Task.handshakeDeliver c e] else []) at ht
    split at ht
    · next hadopted =>
      rw [List.mem_singleton.mp ht]
      exact adoptEpochId_bound htask hadopted
    · cases ht
  | proofStart c epochId =>
    rw [List.mem_singleton.mp ht]
    exact htask
  | proofEpoch c epochId =>
    simp only [advance] at ht
    cases he : s.epoch with
    | none =>
      rw [he] at ht
      cases ht
    | some e =>
      rw [he] at ht
      dsimp only at ht
      split at ht
      · next hzero =>
        rw [List.mem_singleton.mp ht]
        have hbound : Bound s e c.generation := by simpa [hzero, he] using hpicks
        exact hbound
      · next hid =>
        rw [List.mem_singleton.mp ht]
        exact ⟨htask.resolve_right hid, h.current e he⟩
  | proofCompare c epochId e =>
    change t ∈ (if s.epochIdOf e = Id.zero then [Task.proofAdopt c epochId e]
      else if s.epochIdOf e = epochId then [.proofStore c e]
      else if (s.epochIdOf e).lessThan epochId then [.convergeToPeerEpoch]
      else []) at ht
    split at ht
    · rw [List.mem_singleton.mp ht]
      exact htask
    split at ht
    · next hid =>
      rw [List.mem_singleton.mp ht]
      exact Or.inr (hid.trans htask.1)
    split at ht
    · rw [List.mem_singleton.mp ht]
      trivial
    · cases ht
  | proofAdopt c epochId e =>
    rw [List.mem_singleton.mp ht]
    have hfree : s.epochIdOf e = Id.zero ∨ s.epochIdOf e = epochId := by simpa using hpicks
    have hbound := adoptEpochId_bound htask.2 (adoptEpochId_adopts hfree)
    rw [htask.1] at hbound ⊢
    exact hbound
  | optimisticEpoch c =>
    obtain ⟨e, he, rfl⟩ := Option.map_eq_some_iff.mp (Option.mem_toList.mp ht)
    have hbound : Bound s e c.generation := by simpa [he] using hpicks
    exact hbound
  | optimisticProof c =>
    change t ∈ (if s.epoch = none then [] else [Task.proofStart c Id.zero]) at ht
    split at ht
    · cases ht
    · rw [List.mem_singleton.mp ht]
      exact Or.inr rfl
  | _ =>
    simp only [advance, completeHandshake, setPeerClientPublicKey, storeProof, matchEstablished] at ht
    grind [TaskBound, Option.map_eq_some_iff]

lemma complete_pending (h : Handshake κ) (epoch : TlsHandshakeEpoch κ) (result : HandshakeResult) :
    (epoch.complete h result).pendingPeerIdentityProof = epoch.pendingPeerIdentityProof ∧
      (epoch.complete h result).pendingGeneration = epoch.pendingGeneration := by
  cases result <;> exact ⟨rfl, rfl⟩

lemma Bounded.pending_change (h : Bounded s) (hc : Change crypto s task s') {epoch' : TlsHandshakeEpoch κ}
    (he : s'.epochs[e]? = some epoch') (hpending : epoch'.pendingPeerIdentityProof ≠ []) :
    Bound s' e epoch'.pendingGeneration := by
  have hmodify : ∀ (e' : ℕ) (f : TlsHandshakeEpoch κ → TlsHandshakeEpoch κ),
      s'.epochs = (s.modifyEpoch e' f).epochs →
      (∀ epoch, (f epoch).pendingPeerIdentityProof ≠ [] →
        epoch.pendingPeerIdentityProof ≠ [] ∧ (f epoch).pendingGeneration = epoch.pendingGeneration ∨
        Bound s e' (f epoch).pendingGeneration) → Bound s' e epoch'.pendingGeneration := by
    intro e' f hs' hf
    rw [hs'] at he
    obtain ⟨epoch, hepoch, rfl⟩ := modifyEpoch_some he
    split at hpending
    · next heq =>
      subst heq
      rw [if_pos rfl]
      rcases hf epoch hpending with ⟨hne, hsame⟩ | hbound
      · rw [hsame]
        exact (h.pending _ _ hepoch hne).change hc
      · exact hbound.change hc
    · next hother =>
      rw [if_neg hother]
      exact (h.pending _ _ hepoch hpending).change hc
  have hkeep : s'.epochs = s.epochs → Bound s' e epoch'.pendingGeneration := by
    intro hs'
    rw [hs'] at he
    exact (h.pending _ _ he hpending).change hc
  cases hc with
  | build i t =>
    rcases build_some he with he | rfl
    · exact (h.pending _ _ he hpending).change (Change.build i t : Change crypto s task _)
    · exact absurd (newEpoch_unproved _ i).1 hpending
  | complete e' result hopen =>
    refine hmodify e' _ rfl fun epoch hne => Or.inl ?_
    obtain ⟨hp, hg⟩ := complete_pending (crypto.handshake e') epoch result
    exact ⟨hp ▸ hne, hg⟩
  | touch e' f hf hid hcert => exact hmodify e' f rfl fun epoch hne => Or.inl ⟨hf.pending epoch ▸ hne, hf.pendingGeneration epoch⟩
  | judge e' payload exporter peerPub generation htask =>
    exact hmodify e' _ (judge_epochs e' payload exporter peerPub generation) fun epoch hne => absurd rfl hne
  | store c e' htask =>
    rcases storeProof_epochs (s := s) c e' with hsame | ⟨-, -, -, -, -, ⟨-, hs'⟩ | ⟨-, hs'⟩⟩
    · exact hkeep hsame
    · exact hmodify e' _ hs' fun epoch hne => Or.inl ⟨hne, rfl⟩
    · exact hmodify e' _ hs' fun epoch hne => Or.inr (h.tasks _ htask)
  | key pub => exact hkeep (setPeerClientPublicKey_epochs pub)
  | same => exact hkeep rfl
  | trust chain => exact hkeep rfl
  | note entry hentry => exact hkeep rfl

lemma Bounded.failed_change (h : Bounded s) (hc : Change crypto s task s') {epoch' : TlsHandshakeEpoch κ}
    (he : s'.epochs[e]? = some epoch') (hfailed : epoch'.identityFailed = true) :
    ∃ g, Bound s' e g ∧ FailedBy s'.history e g := by
  have hkeep : ∀ epoch, s.epochs[e]? = some epoch → epoch.identityFailed = true →
      ∃ g, Bound s' e g ∧ FailedBy s'.history e g := by
    intro epoch hepoch hf
    obtain ⟨g, hbound, hby⟩ := h.failed e epoch hepoch hf
    exact ⟨g, hbound.change hc, hby.mono (subset_of_change hc)⟩
  have hmodify : ∀ (e' : ℕ) (f : TlsHandshakeEpoch κ → TlsHandshakeEpoch κ),
      s'.epochs = (s.modifyEpoch e' f).epochs →
      (∀ epoch, (f epoch).identityFailed = true → epoch.identityFailed = true ∨
        ∃ g, Bound s e' g ∧ FailedBy s'.history e' g) → ∃ g, Bound s' e g ∧ FailedBy s'.history e g := by
    intro e' f hs' hf
    rw [hs'] at he
    obtain ⟨epoch, hepoch, rfl⟩ := modifyEpoch_some he
    split at hfailed
    · next heq =>
      subst heq
      rcases hf epoch hfailed with hold | ⟨g, hbound, hby⟩
      · exact hkeep epoch hepoch hold
      · exact ⟨g, hbound.change hc, hby⟩
    · exact hkeep epoch hepoch hfailed
  cases hc with
  | build i t =>
    rcases build_some he with he | rfl
    · exact hkeep epoch' he hfailed
    · rw [(newEpoch_unproved _ i).2.1] at hfailed
      cases hfailed
  | complete e' result hopen =>
    refine hmodify e' _ rfl fun epoch hf => Or.inl ?_
    rw [(complete_verified (crypto.handshake e') epoch result).2.1] at hf
    exact hf
  | touch e' f hf hid hcert => exact hmodify e' f rfl fun epoch hfail => Or.inl (hf.identityFailed epoch ▸ hfail)
  | judge e' payload exporter peerPub generation htask =>
    refine hmodify e' _ (judge_epochs e' payload exporter peerPub generation) fun epoch hf => ?_
    cases hok : crypto.verifyClientKeySignature peerPub exporter payload with
    | true =>
      rw [hok, TlsHandshakeEpoch.judged] at hf
      exact Or.inl (by simpa using hf)
    | false =>
      refine Or.inr ⟨generation, h.tasks _ htask, Or.inl ⟨s.epochIdOf e', payload, ?_⟩⟩
      rw [judge_history, hok]
      exact List.mem_cons_self
  | store c e' htask =>
    rcases storeProof_epochs (s := s) c e' with hsame | ⟨-, -, -, -, -, ⟨hby, hs'⟩ | ⟨-, hs'⟩⟩
    · rw [hsame] at he
      exact hkeep epoch' he hfailed
    · exact hmodify e' _ hs' fun epoch hf => Or.inr ⟨c.generation, h.tasks _ htask, Or.inr ⟨_, hby⟩⟩
    · exact hmodify e' _ hs' fun epoch hf => Or.inl hf
  | key pub =>
    rw [setPeerClientPublicKey_epochs] at he
    exact hkeep epoch' he hfailed
  | same => exact hkeep epoch' he hfailed
  | trust chain => exact hkeep epoch' he hfailed
  | note entry hentry => exact hkeep epoch' he hfailed

lemma named_of_bound (h : Bound s e g) : g ≠ Id.zero → s.epochIdOf e = g := fun hg => h.resolve_left hg

lemma Bounded.history_change (h : Bounded s) (hc : Change crypto s task s') : ∀ entry ∈ s'.history, Named entry := by
  have hcons : ∀ entry, s'.history = entry :: s.history → Named entry → ∀ entry ∈ s'.history, Named entry := by
    intro entry hs' hentry entry' hmem
    rw [hs'] at hmem
    rcases List.mem_cons.mp hmem with rfl | hmem
    · exact hentry
    · exact h.history entry' hmem
  cases hc with
  | judge e payload exporter peerPub generation htask =>
    exact hcons _ (judge_history e payload exporter peerPub generation) (named_of_bound (h.tasks _ htask))
  | key pub =>
    refine hcons (.keyPassed pub) ?_ trivial
    rw [setPeerClientPublicKey]
    split
    · rfl
    split <;> rfl
  | store c e htask =>
    have hnamed := named_of_bound (h.tasks _ htask)
    revert hcons
    rw [storeProof]
    split
    · exact fun _ => h.history
    split
    · exact fun _ => h.history
    split
    · exact fun hcons => hcons _ rfl hnamed
    · exact fun hcons => hcons _ rfl hnamed
  | note entry hentry =>
    refine hcons entry rfl ?_
    cases entry with
    | fed e generation epochId payload =>
      obtain ⟨rfl, c, rfl, -, htask⟩ := hentry
      rcases htask with htask | htask
      · exact named_of_bound (h.tasks _ htask)
      · exact named_of_bound (h.tasks _ htask)
    | matched e expected => trivial
    | sealed e companionContract committed => trivial
    | keyPassed pub => trivial
    | buffered e generation epochId payload => exact hentry.elim
    | judged e generation epochId payload ok => exact hentry.elim
    | malformed e generation epochId => exact hentry.elim
  | same => exact h.history
  | build i t => exact h.history
  | complete e result hopen => exact h.history
  | touch e f hf hid hcert => exact h.history
  | trust chain => exact h.history

lemma Bounded.current_change (h : Bounded s) (hc : Change crypto s task s') (he : s'.epoch = some e) : e < s'.epochs.length := by
  rcases current_of_change hc with hsame | ⟨hnew, hlength⟩
  · exact Nat.lt_of_lt_of_le (h.current e (hsame ▸ he)) (length_of_change hc)
  · obtain rfl : s.epochs.length = e := Option.some.inj (hnew.symm.trans he)
    exact hlength

lemma taskBound_of_entry (h : Entry task) : TaskBound s task := by
  cases task with
  | proofStart c epochId => exact Or.inl h
  | judge e payload exporter peerPub generation => exact h.elim
  | handshakeAdopt c e => exact h.elim
  | handshakeDeliver c e => exact h.elim
  | proofEpoch c epochId => exact h.elim
  | proofCompare c epochId e => exact h.elim
  | proofAdopt c epochId e => exact h.elim
  | proofStore c e => exact h.elim
  | optimisticDeliver c e => exact h.elim
  | _ => trivial

lemma bounded_step (h : Bounded s) (event : Event) (hpicks : picksOwnGeneration s event = true) :
    Bounded (step crypto s event) := by
  have hchange : ∀ (s' : PeerEncryptionSession κ) (task : Task) (tasks : List Task), Change crypto s task s' →
      (∀ task ∈ tasks, TaskBound s' task) → Bounded { s' with tasks := tasks } := by
    intro s' task tasks hc htasks
    have hpending : ∀ e epoch, s'.epochs[e]? = some epoch → epoch.pendingPeerIdentityProof ≠ [] →
        Bound s' e epoch.pendingGeneration := fun e epoch he => h.pending_change hc he
    have hcurrent : ∀ e, s'.epoch = some e → e < s'.epochs.length := fun e he => h.current_change hc he
    have hfailed : ∀ e epoch, s'.epochs[e]? = some epoch → epoch.identityFailed = true →
        ∃ g, Bound s' e g ∧ FailedBy s'.history e g := fun e epoch he => h.failed_change hc he
    have hhistory := h.history_change hc
    refine ⟨hcurrent, fun task hmem => ?_, hpending, hfailed, hhistory⟩
    have hbound := htasks task hmem
    cases task <;> exact hbound
  cases event with
  | call c =>
    refine hchange s .startEpoch _ .same fun task hmem => ?_
    rcases List.mem_append.mp hmem with hmem | hmem
    · exact h.tasks task hmem
    · exact taskBound_of_entry (entry_of_call hmem)
  | advance n i =>
    rw [step]
    split
    · exact h
    · next task hn =>
      have hc := change_advance crypto i (List.mem_of_getElem? hn)
      refine hchange _ _ _ hc fun task' hmem => ?_
      rcases List.mem_append.mp hmem with hmem | hmem
      · rcases List.mem_append.mp hmem with hmem | hmem
        · exact (h.tasks task' (List.mem_of_mem_take hmem)).change hc
        · exact h.spawned hn hpicks hmem
      · exact (h.tasks task' (List.mem_of_mem_drop hmem)).change hc

lemma bounded_new (role : SequenceTlsRole) : Bounded (newPeerEncryptionSession κ role) :=
  ⟨nofun, by simp [newPeerEncryptionSession], by simp [newPeerEncryptionSession], by simp [newPeerEncryptionSession],
    by simp [newPeerEncryptionSession]⟩

theorem controls_touch_their_own_generation (crypto : Crypto κ) (role : SequenceTlsRole) {events : List Event}
    (hpicks : Meets (fun s event => picksOwnGeneration s event = true) (step crypto)
      (newPeerEncryptionSession κ role) events) :
    let s := run (step crypto) (newPeerEncryptionSession κ role) events
    (∀ entry ∈ s.history, Named entry) ∧
    ∀ e epoch, s.epochs[e]? = some epoch → epoch.identityFailed = true →
      ∃ g, FailedBy s.history e g ∧ (g ≠ Id.zero → epoch.epochId = g) := by
  intro s
  have hs : Bounded s :=
    meets_invariant (I := Bounded) (fun _ event h => bounded_step h event) (bounded_new role) hpicks
  refine ⟨hs.history, fun e epoch he hfailed => ?_⟩
  obtain ⟨g, hbound, hby⟩ := hs.failed e epoch he hfailed
  refine ⟨g, hby, fun hg => ?_⟩
  rw [← epochIdOf_of_some he]
  exact hbound.resolve_left hg

def echoCrypto : Crypto ℕ where
  handshake e := ⟨e, [UInt8.ofNat e], [[UInt8.ofNat e]]⟩
  verify _ data sig := data.head? = sig.head?
  canonicalCertChainBytes := List.flatten
  parsePemCertificates pems := some pems

def epochProof (e : UInt8) : EncryptedControl where
  controlType := .identityProof
  payload := List.replicate 64 e
  epochId := (Id.ofByte (e + 1)).bytes

def restartAs (id : UInt8) : List Event :=
  [.call .restartHandshake, .advance 0 { quietInput with newId := Id.ofByte id }]

def rekeyRun : List Event :=
  restartAs 1 ++ alone (.setPeerClientPublicKey (List.replicate 32 0)) 3 ++
    alone (.completeHandshake 0 .completed) 4 ++ alone (.optimisticControl (epochProof 0)) 6 ++
    alone (.deliverEncryptedControl (epochProof 0)) 4 ++ restartAs 2

def ownProofRun : List Event :=
  rekeyRun ++ alone (.completeHandshake 1 .completed) 4 ++ alone (.optimisticControl (epochProof 1)) 6 ++
    alone (.deliverEncryptedControl (epochProof 1)) 4

theorem own_proofs_touch_their_generation :
    let s := run (step echoCrypto) (newPeerEncryptionSession ℕ .client) ownProofRun
    s.cipher = some 1 ∧ (∀ entry ∈ s.history, Named entry) ∧
    ∀ e epoch, s.epochs[e]? = some epoch → epoch.identityFailed = true →
      ∃ g, FailedBy s.history e g ∧ (g ≠ Id.zero → epoch.epochId = g) :=
  ⟨by decide +kernel, controls_touch_their_own_generation echoCrypto .client (by decide +kernel)⟩

def staleProofRun : List Event :=
  rekeyRun ++ alone (.optimisticControl (epochProof 0)) 5 ++ alone (.deliverEncryptedControl (epochProof 0)) 3 ++
    alone (.completeHandshake 1 .completed) 5 ++ alone (.optimisticControl (epochProof 1)) 4 ++
    alone (.deliverEncryptedControl (epochProof 1)) 4

theorem stale_proof_fails_the_next_epoch :
    let s := run (step echoCrypto) (newPeerEncryptionSession ℕ .client) staleProofRun
    .judged 1 (Id.ofByte 1) (Id.ofByte 2) (epochProof 0).payload false ∈ s.history ∧
      s.epochs[1]?.any TlsHandshakeEpoch.identityFailed = true ∧ s.epoch = some 1 ∧ s.establishedEpoch = some 0 ∧
      s.tasks = [] := by
  decide +kernel

end UrConnect.Encrypt.PeerEncryptionSession
