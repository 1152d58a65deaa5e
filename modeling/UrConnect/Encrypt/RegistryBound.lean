import UrConnect.Encrypt.Registry

/-! The sessions that are kept without a reference, when a session is reaped as soon as the last one goes. -/

namespace UrConnect.Encrypt

open Lib Lib.Runs

namespace PeerEncryptionSession

variable {κ : Type} {s s' : PeerEncryptionSession κ} {crypto : Crypto κ} {task : Task}

def ended (s : PeerEncryptionSession κ) : Bool := s.epoch.isSome && !s.handshakeInFlightLocked

def starts : Task → Bool
  | .handshakeCurrent _ => true
  | .handshakeByRole _ => true
  | .handshakeFresh _ => true
  | .handshakeStart _ => true
  | .proofStart _ _ => true
  | _ => false

def begun (s : PeerEncryptionSession κ) : Bool := s.epoch.isSome || s.tasks.any starts

lemma epoch_of_inFlight (h : s.handshakeInFlightLocked = true) : s.epoch.isSome = true := by
  rw [handshakeInFlightLocked, currentEpoch] at h
  cases hs : s.epoch with
  | none =>
    rw [hs] at h
    cases h
  | some e => rfl

lemma starts_of_control {c : EncryptedControl} (h : deliverEncryptedControl c ≠ []) :
    (deliverEncryptedControl c).any starts = true := by
  rw [deliverEncryptedControl] at h ⊢
  split
  · next heq =>
    rw [if_pos heq] at h
    exact absurd rfl h
  · next heq =>
    cases hc : c.controlType with
    | handshake =>
      dsimp only
      split <;> rfl
    | identityProof => rfl
    | other => simp [hc] at h

lemma Change.epoch_isSome (h : Change crypto s task s') (hepoch : s.epoch.isSome = true) : s'.epoch.isSome = true := by
  cases h with
  | same => exact hepoch
  | build i t => rfl
  | complete e result hopen => exact hepoch
  | touch e f hf hid hcert => exact hepoch
  | judge e payload exporter peerPub generation htask =>
    rw [PeerEncryptionSession.judge]
    split
    · rw [markEstablishedWithLock]
      split <;> exact hepoch
    · exact hepoch
  | key pub =>
    rw [setPeerClientPublicKey]
    split
    · exact hepoch
    split <;> exact hepoch
  | store c e htask =>
    rw [storeProof]
    split
    · exact hepoch
    split
    · exact hepoch
    split <;> exact hepoch
  | trust chain => exact hepoch
  | note entry hentry => exact hepoch

lemma begun_advance (i : Input) (hnone : s.epoch = none) (htask : starts task = true) :
    (s.advance crypto i task).1.epoch.isSome = true ∨ (s.advance crypto i task).2.any starts = true := by
  cases task with
  | handshakeCurrent c =>
    right
    rw [advance, hnone]
    rfl
  | handshakeByRole c =>
    right
    rw [advance, hnone]
    dsimp only
    split <;> rfl
  | handshakeFresh c => exact .inl rfl
  | handshakeStart c =>
    left
    rw [advance, startEpoch, if_pos hnone]
    rfl
  | proofStart c epochId =>
    left
    rw [advance, startEpoch, if_pos hnone]
    rfl
  | _ => cases htask

lemma begun_step (crypto : Crypto κ) (event : Event) (h : s.begun = true) : (s.step crypto event).begun = true := by
  rw [begun, Bool.or_eq_true] at h ⊢
  cases event with
  | call c =>
    refine h.imp_right fun hany => ?_
    change (s.tasks ++ c.tasks).any starts = true
    rw [List.any_append, hany, Bool.true_or]
  | advance n i =>
    rw [step]
    split
    · exact h
    · next task hn =>
      by_cases hepoch : s.epoch.isSome = true
      · exact .inl ((change_advance crypto i (List.mem_of_getElem? hn)).epoch_isSome hepoch)
      · obtain ⟨t, ht, hstarts⟩ := List.any_eq_true.mp (h.resolve_left hepoch)
        obtain ⟨m, hm⟩ := List.mem_iff_getElem?.mp ht
        by_cases hmn : m = n
        · rw [hmn, hn] at hm
          obtain rfl := Option.some.inj hm
          refine (begun_advance i (Option.not_isSome_iff_eq_none.mp hepoch) hstarts).imp_right fun hany => ?_
          dsimp only
          rw [List.any_append, List.any_append, hany, Bool.or_true, Bool.true_or]
        · right
          dsimp only
          rw [List.any_eq_true]
          refine ⟨t, ?_, hstarts⟩
          rw [List.mem_append, List.mem_append]
          rcases Nat.lt_or_gt_of_ne hmn with hlt | hgt
          · left
            left
            exact List.mem_of_getElem? (i := m) (by rw [List.getElem?_take, if_pos hlt]; exact hm)
          · right
            exact List.mem_of_getElem? (i := m - (n + 1)) (by
              rw [List.getElem?_drop, show n + 1 + (m - (n + 1)) = m by omega]
              exact hm)

end PeerEncryptionSession

namespace SessionRegistry

variable {κ : Type} {s : SessionRegistry κ} {crypto : ℕ → Crypto κ} {i j n : ℕ} {key : SessionKey} {now : ℤ}
  {job : Job} {jobs : List Job} {f : ManagedSession κ → ManagedSession κ}

/-- No call is running: goroutines wait in `Run`, and no session is in the middle of a section. -/
def Quiet (s : SessionRegistry κ) : Prop :=
  (∀ job ∈ s.jobs, job.awaits = true) ∧ ∀ i < s.opened, (s.heap i).session.tasks = []

instance (s : SessionRegistry κ) : Decidable s.Quiet :=
  inferInstanceAs (Decidable ((∀ job ∈ s.jobs, job.awaits = true) ∧ ∀ i < s.opened, (s.heap i).session.tasks = []))

/-- A control that opens a session begins a handshake in it, and no handshake ends in a registered session
that nothing references. -/
def Attended (crypto : ℕ → Crypto κ) (s : SessionRegistry κ) : Event → Prop
  | .control key c _ => s.sessions.lookup key = none → PeerEncryptionSession.deliverEncryptedControl c ≠ []
  | .session i event => s.registered i = true → (s.heap i).refs ≤ 0 → (s.heap i).session.ended = false →
      ((s.heap i).session.step (crypto i) event).ended = false
  | _ => True

def Underway (s : SessionRegistry κ) (i : ℕ) : Prop :=
  (s.heap i).session.begun = true ∨
    ∃ c, Job.deliver i c ∈ s.jobs ∧ PeerEncryptionSession.deliverEncryptedControl c ≠ []

def Waits (s : SessionRegistry κ) (i : ℕ) : Prop :=
  s.registered i = true → (s.heap i).refs ≤ 0 → (s.heap i).session.ended = false ∧ s.Underway i

lemma Waits.mono {s' : SessionRegistry κ} (h : s.Waits i) (hregistered : s'.registered i = true → s.registered i = true)
    (hrefs : (s.heap i).refs ≤ (s'.heap i).refs) (hsession : (s'.heap i).session = (s.heap i).session)
    (hjobs : ∀ c, Job.deliver i c ∈ s.jobs → Job.deliver i c ∈ s'.jobs) : s'.Waits i := by
  intro hi hle
  obtain ⟨hended, hunder⟩ := h (hregistered hi) (hrefs.trans hle)
  rw [hsession]
  refine ⟨hended, ?_⟩
  rcases hunder with hbegun | ⟨c, hc, hne⟩
  · rw [← hsession] at hbegun
    exact .inl hbegun
  · exact .inr ⟨c, hjobs c hc, hne⟩

lemma waits_set (h : ∀ j, s.Waits j) (hkey : ∀ p, (f p).key = p.key) (hi : (s.set i f).Waits i) (j : ℕ) :
    (s.set i f).Waits j := by
  by_cases hj : j = i
  · rw [hj]
    exact hi
  · have hsame : (s.set i f).heap j = s.heap j := by rw [heap_set, if_neg hj]
    apply (h j).mono
    · rw [registered_set hkey]
      exact id
    · rw [hsame]
    · rw [hsame]
    · exact fun _ hc => hc

lemma waits_unregister (h : ∀ j, s.Waits j) (i j : ℕ) : (s.unregister i).Waits j := by
  apply (h j).mono
  · intro hj
    exact (registered_unregister.mp hj).1
  · rw [heap_unregister]
  · rw [heap_unregister]
  · intro c hc
    rw [jobs_unregister]
    exact hc

lemma waits_withJobs (h : ∀ j, s.Waits j) (hjobs : ∀ i c, Job.deliver i c ∈ s.jobs → Job.deliver i c ∈ jobs) (j : ℕ) :
    ({ s with jobs := jobs } : SessionRegistry κ).Waits j := by
  apply (h j).mono
  · exact id
  · exact le_rfl
  · rfl
  · exact hjobs j

lemma waits_spawn (h : ∀ j, s.Waits j) (jobs : List Job) (j : ℕ) : (s.spawn jobs).Waits j :=
  waits_withJobs h (fun _ _ hc => List.mem_append_left _ hc) j

lemma waits_replace (h : ∀ j, s.Waits j) (hn : s.jobs[n]? = some job) (hjob : ∀ i c, job ≠ .deliver i c)
    (jobs : List Job) (j : ℕ) : ({ s with jobs := s.jobs.eraseIdx n ++ jobs } : SessionRegistry κ).Waits j := by
  apply waits_withJobs h
  intro i c hc
  obtain ⟨m, hm⟩ := List.mem_iff_getElem?.mp hc
  apply List.mem_append_left
  refine List.mem_eraseIdx_iff_getElem?.mpr ⟨m, ?_, hm⟩
  rintro rfl
  rw [hn] at hm
  exact hjob i c (Option.some.inj hm)

lemma registered_of_getOrCreateWithLock (hi : i < s.opened)
    (h : (s.getOrCreateWithLock key now).1.registered i = true) : s.registered i = true := by
  rw [registered_iff, heap_getOrCreateWithLock hi] at h
  rw [registered_iff]
  rw [getOrCreateWithLock] at h
  split at h
  · exact h
  · change (s.sessions.insert key s.opened).lookup (s.heap i).key = some i at h
    rw [Table.lookup_insert_eq] at h
    split at h
    · exact absurd (Option.some.inj h) (by omega)
    · exact h

lemma waits_getOrCreateWithLock (h : ∀ j, s.Waits j) (key : SessionKey) (now : ℤ) (hj : j < s.opened) :
    (s.getOrCreateWithLock key now).1.Waits j := by
  have hsame := heap_getOrCreateWithLock hj key now
  apply (h j).mono
  · exact registered_of_getOrCreateWithLock hj
  · rw [hsame]
  · rw [hsame]
  · intro c hc
    rw [getOrCreateWithLock]
    split
    · exact hc
    · exact List.mem_append_left _ hc

lemma getOrCreateWithLock_cases (s : SessionRegistry κ) (key : SessionKey) (now : ℤ) :
    (∃ i, s.sessions.lookup key = some i ∧ s.getOrCreateWithLock key now = (s, i)) ∨
      s.sessions.lookup key = none ∧ (s.getOrCreateWithLock key now).2 = s.opened ∧
        (s.getOrCreateWithLock key now).1.opened = s.opened + 1 ∧
        (s.getOrCreateWithLock key now).1.heap s.opened = newSession key now := by
  rw [getOrCreateWithLock]
  cases hlookup : s.sessions.lookup key with
  | some i => exact .inl ⟨i, rfl, rfl⟩
  | none => exact .inr ⟨rfl, rfl, rfl, Function.update_self _ _ _⟩

lemma registered_cases (hs : s.Sound) (h : (s.getOrCreateWithLock key now).1.registered j = true) :
    j < s.opened ∨ s.sessions.lookup key = none ∧ j = s.opened ∧
      (s.getOrCreateWithLock key now).1.heap j = newSession key now := by
  have hlt := registered_opened (hs.getOrCreateWithLock key now).1 h
  rcases s.getOrCreateWithLock_cases key now with ⟨i, -, heq⟩ | ⟨hnone, -, hopened, hnew⟩
  · rw [heq] at hlt
    exact .inl hlt
  · rw [hopened] at hlt
    rcases Nat.lt_succ_iff_lt_or_eq.mp hlt with hold | rfl
    · exact .inl hold
    · exact .inr ⟨hnone, rfl, hnew⟩

lemma getOrCreateWithLock_opened (h : s.sessions.lookup key = none) : (s.getOrCreateWithLock key now).2 = s.opened := by
  rw [getOrCreateWithLock, h]

lemma waits_acquireSession (hs : s.Sound) (h : ∀ j, s.Waits j) (key : SessionKey) (now : ℤ) (j : ℕ) :
    (s.acquireSession key now).1.Waits j := by
  rw [acquireSession]
  split
  · exact h j
  split
  · exact h j
  · intro hregistered
    dsimp only [retain] at hregistered ⊢
    have hold : (s.getOrCreateWithLock key now).1.registered j = true := by
      rw [registered_set] at hregistered
      · exact hregistered
      · intro p
        rfl
    rcases registered_cases hs hold with hj | ⟨hnone, hj, hnew⟩
    · revert hregistered
      apply (waits_getOrCreateWithLock h key now hj).mono
      · intro _
        exact hold
      · rw [heap_set]
        split
        · exact (lt_add_one _).le
        · exact le_rfl
      · rw [heap_set]
        split <;> rfl
      · exact fun _ hc => hc
    · intro hle
      rw [heap_set, if_pos (hj.trans (getOrCreateWithLock_opened hnone).symm), hnew] at hle
      change (0 : ℤ) + 1 ≤ 0 at hle
      omega

lemma waits_control (hs : s.Sound) (h : ∀ j, s.Waits j) {c : EncryptedControl}
    (hc : s.sessions.lookup key = none → PeerEncryptionSession.deliverEncryptedControl c ≠ []) (now : ℤ) (j : ℕ) :
    (s.deliverEncryptedControl key c now).Waits j := by
  rw [deliverEncryptedControl]
  split
  · exact h j
  split
  · exact h j
  · intro hregistered
    rcases registered_cases hs hregistered with hj | ⟨hnone, hj, hnew⟩
    · revert hregistered
      apply (waits_getOrCreateWithLock h key now hj).mono
      · exact id
      · exact le_rfl
      · rfl
      · intro c hc
        exact List.mem_append_left _ hc
    · intro _
      change ((s.getOrCreateWithLock key now).1.heap j).session.ended = false ∧ _
      rw [hnew]
      refine ⟨rfl, .inr ⟨c, List.mem_append_right _ ?_, hc hnone⟩⟩
      rw [getOrCreateWithLock_opened hnone, hj]
      exact List.mem_singleton_self _

lemma waits_release (hidle : s.idleTimeout = 0) (h : ∀ j, s.Waits j) (i : ℕ) (now : ℤ) (j : ℕ) :
    (s.release i now).1.Waits j := by
  by_cases hj : j = i
  · subst hj
    rcases s.release_cases j now with heq | ⟨heq, -⟩
    · intro hregistered hle
      have hkept : (s.release j now).2 = false := by rw [heq]
      rw [heq] at hle ⊢
      rcases release_live hkept with hpos | hflight | hne
      · exact absurd hle (not_le.mpr hpos)
      · change ((s.dropped j now).heap j).session.handshakeInFlightLocked = true at hflight
        have hepoch := PeerEncryptionSession.epoch_of_inFlight hflight
        dsimp only
        rw [PeerEncryptionSession.ended, Underway, PeerEncryptionSession.begun, hflight, hepoch]
        exact ⟨rfl, .inl rfl⟩
      · exact absurd hidle hne
    · intro hregistered
      rw [heq] at hregistered
      rw [registered_self_unregister] at hregistered
      cases hregistered
  · have hdropped : (s.dropped i now).Waits j := by
      have hsame : (s.dropped i now).heap j = s.heap j := by rw [dropped, heap_set, if_neg hj]
      apply (h j).mono
      · rw [dropped, registered_set]
        · exact id
        · intro p
          rfl
      · rw [hsame]
      · rw [hsame]
      · exact fun _ hc => hc
    rcases s.release_cases i now with heq | ⟨heq, -⟩
    · rw [heq]
      exact hdropped
    · rw [heq]
      apply hdropped.mono
      · intro hregistered
        exact (registered_unregister.mp hregistered).1
      · rw [heap_unregister]
      · rw [heap_unregister]
      · intro c hc
        rw [jobs_unregister]
        exact hc

lemma waits_stepSession (h : ∀ j, s.Waits j) {event : PeerEncryptionSession.Event}
    (hended : s.registered i = true → (s.heap i).refs ≤ 0 → (s.heap i).session.ended = false →
      ((s.heap i).session.step (crypto i) event).ended = false) (j : ℕ) : (s.stepSession crypto i event).Waits j := by
  apply waits_set h
  · intro p
    rfl
  · intro hregistered hle
    have hold : s.registered i = true := by
      rw [registered_set] at hregistered
      · exact hregistered
      · intro p
        rfl
    rw [heap_set, if_pos rfl] at hle ⊢
    obtain ⟨hlive, hunder⟩ := h i hold hle
    refine ⟨hended hold hle hlive, ?_⟩
    rcases hunder with hbegun | hcontrol
    · left
      rw [heap_set, if_pos rfl]
      exact PeerEncryptionSession.begun_step (crypto i) event hbegun
    · exact .inr hcontrol

@[simp] lemma idleTimeout_unregister (s : SessionRegistry κ) (i : ℕ) : (s.unregister i).idleTimeout = s.idleTimeout := by
  rw [unregister]
  split <;> rfl

lemma idleTimeout_acquireSession (s : SessionRegistry κ) (key : SessionKey) (now : ℤ) :
    (s.acquireSession key now).1.idleTimeout = s.idleTimeout := by
  rw [acquireSession]
  split
  · rfl
  split
  · rfl
  · dsimp only [retain, set]
    rw [getOrCreateWithLock]
    split <;> rfl

lemma idleTimeout_step (s : SessionRegistry κ) (crypto : ℕ → Crypto κ) (e : Event) :
    (s.step crypto e).idleTimeout = s.idleTimeout := by
  cases e with
  | acquire key now => exact s.idleTimeout_acquireSession key now
  | acquireForSend key now =>
    rw [step, acquireForSend]
    split
    · exact s.idleTimeout_acquireSession key now
    split <;> exact s.idleTimeout_acquireSession key now
  | control key c now =>
    rw [step, deliverEncryptedControl]
    split
    · rfl
    split
    · rfl
    · rw [getOrCreateWithLock]
      split <;> rfl
  | release i now =>
    rw [step]
    split
    · rcases s.release_cases i now with heq | ⟨heq, -⟩
      · rw [heq]
        rfl
      · rw [heq]
        exact (s.dropped i now).idleTimeout_unregister i
    · rfl
  | notEnqueued i =>
    rw [step]
    split <;> rfl
  | session i event =>
    rw [step]
    split <;> rfl
  | advance n now elapsed =>
    rw [step]
    split
    · rfl
    · next job _ =>
      cases job with
      | reap i =>
        dsimp only [advance]
        rcases s.cancelIfIdle_cases i now with heq | ⟨heq, -⟩
        · rw [heq]
        · rw [heq, idleTimeout_unregister]
      | deregister i => exact s.idleTimeout_unregister i
      | _ => rfl

structure Attentive (s : SessionRegistry κ) : Prop where
  sound : s.Sound
  idle : s.idleTimeout = 0
  waits : ∀ i, s.Waits i

lemma waits_advance (h : ∀ j, s.Waits j) (crypto : ℕ → Crypto κ) (hn : s.jobs[n]? = some job) (now : ℤ) (elapsed : Bool)
    (j : ℕ) : ({ (s.advance crypto now elapsed job).1 with
      jobs := s.jobs.eraseIdx n ++ (s.advance crypto now elapsed job).2 } : SessionRegistry κ).Waits j := by
  have hunregister : ∀ i jobs, (∀ k c, job ≠ .deliver k c) →
      ({ s.unregister i with jobs := s.jobs.eraseIdx n ++ jobs } : SessionRegistry κ).Waits j := by
    intro i jobs hjob
    have hnext := waits_replace (waits_unregister h i) (by rw [jobs_unregister]; exact hn) hjob jobs j
    rw [jobs_unregister] at hnext
    exact hnext
  cases job with
  | restartHandshake i =>
    have hstep : ∀ j, (s.stepSession crypto i (.call .restartHandshake)).Waits j :=
      waits_stepSession h fun _ _ hended => hended
    exact waits_replace hstep hn (by rintro _ _ ⟨⟩) [] j
  | deliver i c =>
    have hstep : ∀ j, (s.stepSession crypto i (.call (.deliverEncryptedControl c))).Waits j :=
      waits_stepSession h fun _ _ hended => hended
    -- the control that was on its way is now among the tasks of its session
    intro hregistered hle
    obtain ⟨hended, hunder⟩ := hstep j hregistered hle
    refine ⟨hended, ?_⟩
    rcases hunder with hbegun | ⟨c', hc', hne⟩
    · exact .inl hbegun
    · obtain ⟨m, hm⟩ := List.mem_iff_getElem?.mp hc'
      by_cases hmn : m = n
      · change s.jobs[m]? = some (.deliver j c') at hm
        rw [hmn, hn] at hm
        obtain ⟨rfl, rfl⟩ := Job.deliver.inj (Option.some.inj hm)
        left
        change ((s.stepSession crypto i (.call (.deliverEncryptedControl c))).heap i).session.begun = true
        rw [stepSession, heap_set, if_pos rfl, PeerEncryptionSession.begun]
        change (_ || ((s.heap i).session.tasks ++ PeerEncryptionSession.deliverEncryptedControl c).any _) = true
        rw [List.any_append, PeerEncryptionSession.starts_of_control hne, Bool.or_true, Bool.or_true]
      · exact .inr ⟨c', List.mem_append_left _ (List.mem_eraseIdx_iff_getElem?.mpr ⟨m, hmn, hm⟩), hne⟩
  | cancel i cause =>
    have hset : ∀ j, (s.set i fun p => { p with cancelled := true }).Waits j := by
      intro j
      apply (h j).mono
      · rw [registered_set]
        · exact id
        · intro p
          rfl
      · rw [heap_set]
        split <;> exact le_rfl
      · rw [heap_set]
        split <;> rfl
      · exact fun _ hc => hc
    exact waits_replace hset hn (by rintro _ _ ⟨⟩) _ j
  | closeTls i cause =>
    have hset : ∀ j, (s.set i fun p => { p with closes := cause :: p.closes }).Waits j := by
      intro j
      apply (h j).mono
      · rw [registered_set]
        · exact id
        · intro p
          rfl
      · rw [heap_set]
        split <;> exact le_rfl
      · rw [heap_set]
        split <;> rfl
      · exact fun _ hc => hc
    exact waits_replace hset hn (by rintro _ _ ⟨⟩) _ j
  | reap i =>
    rw [advance]
    rcases s.cancelIfIdle_cases i now with heq | ⟨heq, -⟩
    · rw [heq]
      exact waits_replace h hn (by rintro _ _ ⟨⟩) _ j
    · rw [heq]
      exact hunregister i _ (by rintro _ _ ⟨⟩)
  | deregister i => exact hunregister i _ (by rintro _ _ ⟨⟩)
  | poll i => exact waits_replace h hn (by rintro _ _ ⟨⟩) _ j
  | sleep i => exact waits_replace h hn (by rintro _ _ ⟨⟩) _ j
  | await i => exact waits_replace h hn (by rintro _ _ ⟨⟩) _ j
  | leave i => exact waits_replace h hn (by rintro _ _ ⟨⟩) _ j

lemma Attentive.step (h : s.Attentive) {e : Event} (hattended : s.Attended crypto e) : (s.step crypto e).Attentive := by
  refine ⟨h.sound.step crypto e, (s.idleTimeout_step crypto e).trans h.idle, ?_⟩
  cases e with
  | acquire key now => exact waits_acquireSession h.sound h.waits key now
  | acquireForSend key now =>
    have hacquired := waits_acquireSession h.sound h.waits key now
    rw [SessionRegistry.step, acquireForSend]
    split
    · exact hacquired
    split
    · exact waits_spawn hacquired _
    · exact hacquired
  | control key c now => exact waits_control h.sound h.waits hattended now
  | release i now =>
    have hreleased := waits_release h.idle h.waits i now
    rw [SessionRegistry.step]
    split
    · split
      · exact waits_spawn hreleased _
      · exact hreleased
    · exact h.waits
  | notEnqueued i =>
    rw [SessionRegistry.step]
    split
    · exact waits_spawn h.waits _
    · exact h.waits
  | session i event =>
    rw [SessionRegistry.step]
    split
    · exact waits_stepSession h.waits hattended
    · exact h.waits
  | advance n now elapsed =>
    rw [SessionRegistry.step]
    split
    · exact h.waits
    · next job hn => exact waits_advance h.waits crypto hn now elapsed

lemma Sound.length_keys_le (h : s.Sound) {P : ℕ → Prop} [DecidablePred P]
    (hP : ∀ key i, s.sessions.lookup key = some i → P i) :
    s.sessions.keys.length ≤ ((Finset.range s.opened).filter P).card := by
  rw [← List.toFinset_card_of_nodup s.sessions.keys_nodup]
  apply Finset.card_le_card_of_injOn fun key => (s.sessions.lookup key).getD 0
  · intro key hkey
    obtain ⟨i, hi⟩ := Table.mem_keys_iff.mp (List.mem_toFinset.mp hkey)
    dsimp only
    rw [hi, Option.getD_some, Finset.coe_filter]
    exact ⟨Finset.mem_range.mpr (h.keyed key i hi).1, hP key i hi⟩
  · intro key hkey key' hkey' heq
    obtain ⟨i, hi⟩ := Table.mem_keys_iff.mp (List.mem_toFinset.mp hkey)
    obtain ⟨i', hi'⟩ := Table.mem_keys_iff.mp (List.mem_toFinset.mp hkey')
    dsimp only at heq
    rw [hi, hi', Option.getD_some, Option.getD_some] at heq
    rw [← (h.keyed key i hi).2, heq]
    exact (h.keyed key' i' hi').2

lemma card_referenced_le (s : SessionRegistry κ) :
    ((Finset.range s.opened).filter fun i => 0 < (s.heap i).refs).card ≤
      ∑ i ∈ Finset.range s.opened, (s.heap i).refs.toNat := by
  rw [Finset.card_filter]
  apply Finset.sum_le_sum
  intro i _
  split
  · omega
  · exact Nat.zero_le _

lemma Attentive.live (h : s.Attentive) (hquiet : s.Quiet) (hi : s.sessions.lookup key = some i) :
    0 < (s.heap i).refs ∨ s.handshakeInFlight i = true := by
  by_contra hneither
  obtain ⟨hrefs, hflight⟩ := not_or.mp hneither
  obtain ⟨hended, hunder⟩ := h.waits i (h.sound.registered_of_lookup hi) (not_lt.mp hrefs)
  rcases hunder with hbegun | ⟨c, hc, -⟩
  · rw [PeerEncryptionSession.begun, hquiet.2 i (h.sound.keyed key i hi).1, List.any_nil, Bool.or_false] at hbegun
    rw [PeerEncryptionSession.ended, hbegun, Bool.true_and, Bool.not_eq_false'] at hended
    exact hflight hended
  · cases hquiet.1 _ hc

theorem unreferenced_sessions_await_handshakes (crypto : ℕ → Crypto κ) (mode : EncryptionMode) (es : List Event)
    (hrun : Meets (Attended crypto) (step · crypto) (empty κ mode 0) es)
    (hquiet : (run (step · crypto) (empty κ mode 0) es).Quiet) :
    let s := run (step · crypto) (empty κ mode 0) es
    (∀ key i, s.sessions.lookup key = some i → 0 < (s.heap i).refs ∨ s.handshakeInFlight i = true) ∧
      s.sessions.keys.length ≤ ∑ i ∈ Finset.range s.opened, (s.heap i).refs.toNat +
        ((Finset.range s.opened).filter fun i => s.handshakeInFlight i = true).card := by
  intro s
  have hattentive : s.Attentive := by
    apply meets_invariant (I := Attentive) _ _ hrun
    · intro s e h hattended
      exact h.step hattended
    · refine ⟨sound_empty mode 0, rfl, fun i hi => ?_⟩
      cases hi
  have hlive : ∀ key i, s.sessions.lookup key = some i → 0 < (s.heap i).refs ∨ s.handshakeInFlight i = true :=
    fun key i => hattentive.live hquiet
  refine ⟨hlive, (hattentive.sound.length_keys_le hlive).trans ?_⟩
  rw [Finset.filter_or]
  exact (Finset.card_union_le _ _).trans (Nat.add_le_add_right s.card_referenced_le _)

instance (crypto : ℕ → Crypto κ) (s : SessionRegistry κ) : DecidablePred (Attended crypto s)
  | .control key c _ => inferInstanceAs (Decidable (s.sessions.lookup key = none →
      PeerEncryptionSession.deliverEncryptedControl c ≠ []))
  | .session i event => inferInstanceAs (Decidable (s.registered i = true → (s.heap i).refs ≤ 0 →
      (s.heap i).session.ended = false → ((s.heap i).session.step (crypto i) event).ended = false))
  | .acquire _ _ => inferInstanceAs (Decidable True)
  | .acquireForSend _ _ => inferInstanceAs (Decidable True)
  | .release _ _ => inferInstanceAs (Decidable True)
  | .notEnqueued _ => inferInstanceAs (Decidable True)
  | .advance _ _ _ => inferInstanceAs (Decidable True)

def releasedInFlightRun : List Event :=
  [.acquireForSend (peerKey .client) 0, .advance 1 0 false,
    .session 0 (.advance 0 PeerEncryptionSession.quietInput), .release 0 0]

theorem unreferenced_sessions_await_handshakes_in_a_run :
    let s := run (step · echoCryptos) (empty ℕ .required 0) releasedInFlightRun
    s.sessions.lookup (peerKey .client) = some 0 ∧ (s.heap 0).refs = 0 ∧
      (0 < (s.heap 0).refs ∨ s.handshakeInFlight 0 = true) :=
  ⟨by decide +kernel, by decide +kernel,
    (unreferenced_sessions_await_handshakes echoCryptos .required releasedInFlightRun (by decide +kernel)
      (by decide +kernel)).1 (peerKey .client) 0 (by decide +kernel)⟩

def timedOutRun : List Event :=
  releasedInFlightRun ++
    [.session 0 (.call (.completeHandshake 0 (.failed (.message "tls handshake timeout")))),
      .session 0 (.advance 0 PeerEncryptionSession.quietInput)]

def strayControlRun : List Event :=
  [.control (peerKey .server) { controlType := .other, payload := [], epochId := [] } 0, .advance 1 0 false]

theorem unreferenced_session_is_kept :
    let s := run (step · echoCryptos) (empty ℕ .required 0) timedOutRun
    let t := run (step · echoCryptos) (empty ℕ .required 0) strayControlRun
    (s.Quiet ∧ s.sessions.lookup (peerKey .client) = some 0 ∧ (s.heap 0).cancelled = false ∧ (s.heap 0).refs = 0 ∧
      s.handshakeInFlight 0 = false) ∧
    t.Quiet ∧ t.sessions.lookup (peerKey .server) = some 0 ∧ (t.heap 0).cancelled = false ∧ (t.heap 0).refs = 0 ∧
      t.handshakeInFlight 0 = false := by
  decide +kernel

end SessionRegistry

end UrConnect.Encrypt
