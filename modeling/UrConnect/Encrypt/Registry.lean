import UrConnect.Encrypt.Manager
import UrConnect.Encrypt.Generations

/-! The lifetime of peer sessions: references, reaping, and the goroutine that supervises each session.
A goroutine between two sections under the manager's lock is a job. -/

namespace UrConnect.Encrypt

open Lib Lib.Runs

/-- Who calls `close()`: `Release`, `CancelIfIdle`, or `sendEncryptedControl` on a control that was
not enqueued. -/
inductive Teardown where
  | released
  | idle
  | notEnqueued
deriving DecidableEq

inductive Job where
  | restartHandshake (i : ℕ)
  | deliver (i : ℕ) (c : EncryptedControl)
  | cancel (i : ℕ) (cause : Teardown)
  | closeTls (i : ℕ) (cause : Teardown)
  | poll (i : ℕ)
  | reap (i : ℕ)
  | sleep (i : ℕ)
  | await (i : ℕ)
  | leave (i : ℕ)
  | deregister (i : ℕ)
deriving DecidableEq

namespace Job

def session : Job → ℕ
  | .restartHandshake i => i
  | .deliver i _ => i
  | .cancel i _ => i
  | .closeTls i _ => i
  | .poll i => i
  | .reap i => i
  | .sleep i => i
  | .await i => i
  | .leave i => i
  | .deregister i => i

def supervises (i : ℕ) : Job → Bool
  | .cancel j cause => j = i && cause = .idle
  | .closeTls j cause => j = i && cause = .idle
  | .restartHandshake _ => false
  | .deliver _ _ => false
  | job => job.session = i

def frees (i : ℕ) : Job → Bool
  | .cancel j cause => j = i && cause ≠ .notEnqueued
  | .closeTls j cause => j = i && cause ≠ .notEnqueued
  | _ => false

def reaps : Job → Option ℕ
  | .reap i => some i
  | _ => none

def deregisters : Job → Option ℕ
  | .reap i => some i
  | .deregister i => some i
  | _ => none

def awaits : Job → Bool
  | .await _ => true
  | _ => false

end Job

/-- `closes` are the calls of `close()` that have run. -/
structure ManagedSession (κ : Type) extends PeerSession κ where
  refs : ℤ
  lastActivityTime : ℤ
  cancelled : Bool
  closes : List Teardown

/-- Sessions are cells of a heap, the first `opened` of them in use. -/
structure SessionRegistry (κ : Type) where
  mode : EncryptionMode
  idleTimeout : ℤ
  opened : ℕ
  heap : ℕ → ManagedSession κ
  sessions : Table SessionKey ℕ
  jobs : List Job

namespace SessionRegistry

variable {κ : Type} (s : SessionRegistry κ) (crypto : ℕ → Crypto κ)

def newSession (key : SessionKey) (now : ℤ) : ManagedSession κ where
  key := key
  session := newPeerEncryptionSession κ key.role
  refs := 0
  lastActivityTime := now
  cancelled := false
  closes := []

def empty (κ : Type) (mode : EncryptionMode) (idleTimeout : ℤ) : SessionRegistry κ where
  mode := mode
  idleTimeout := idleTimeout
  opened := 0
  heap := fun _ => newSession ⟨Id.zero, false, .client⟩ 0
  sessions := ∅
  jobs := []

def set (i : ℕ) (f : ManagedSession κ → ManagedSession κ) : SessionRegistry κ :=
  { s with heap := Function.update s.heap i (f (s.heap i)) }

def spawn (jobs : List Job) : SessionRegistry κ := { s with jobs := s.jobs ++ jobs }

def registered (i : ℕ) : Bool := s.sessions.lookup (s.heap i).key = some i

def handshakeInFlight (i : ℕ) : Bool := (s.heap i).session.handshakeInFlightLocked

def supervisor (i : ℕ) : Job := if 0 < s.idleTimeout then .poll i else .await i

def getOrCreateWithLock (key : SessionKey) (now : ℤ) : SessionRegistry κ × ℕ :=
  match s.sessions.lookup key with
  | some i => (s, i)
  | none =>
    ({ s with
      opened := s.opened + 1
      heap := Function.update s.heap s.opened (newSession key now)
      sessions := s.sessions.insert key s.opened
      jobs := s.jobs ++ [s.supervisor s.opened] }, s.opened)

def retain (i : ℕ) (now : ℤ) : SessionRegistry κ :=
  s.set i fun p => { p with refs := p.refs + 1, lastActivityTime := now }

def acquireSession (key : SessionKey) (now : ℤ) : SessionRegistry κ × Option ℕ :=
  if s.mode = .off then (s, none)
  else if key.peerId = Id.zero then (s, none)
  else
    let found := s.getOrCreateWithLock key now
    (found.1.retain found.2 now, some found.2)

def unregister (i : ℕ) : SessionRegistry κ :=
  if s.registered i then { s with sessions := s.sessions.erase (s.heap i).key } else s

def dropped (i : ℕ) (now : ℤ) : SessionRegistry κ :=
  s.set i fun p => { p with refs := p.refs - 1, lastActivityTime := now }

/-- The section of `Release`, and whether the session is to be closed. -/
def release (i : ℕ) (now : ℤ) : SessionRegistry κ × Bool :=
  if 0 < ((s.dropped i now).heap i).refs then (s.dropped i now, false)
  else if (s.dropped i now).handshakeInFlight i then (s.dropped i now, false)
  else if s.idleTimeout ≠ 0 then (s.dropped i now, false)
  else ((s.dropped i now).unregister i, true)

def cancelIfIdle (i : ℕ) (now : ℤ) : SessionRegistry κ × Bool :=
  if 0 < (s.heap i).refs then (s, false)
  else if s.handshakeInFlight i then (s, false)
  else if 0 < s.idleTimeout && now - (s.heap i).lastActivityTime < s.idleTimeout then (s, false)
  else (s.unregister i, true)

def stepSession (i : ℕ) (event : PeerEncryptionSession.Event) : SessionRegistry κ :=
  s.set i fun p => { p with session := p.session.step (crypto i) event }

def advance (now : ℤ) (elapsed : Bool) : Job → SessionRegistry κ × List Job
  | .restartHandshake i => (s.stepSession crypto i (.call .restartHandshake), [])
  | .deliver i c => (s.stepSession crypto i (.call (.deliverEncryptedControl c)), [])
  | .cancel i cause => (s.set i fun p => { p with cancelled := true }, [.closeTls i cause])
  | .closeTls i cause =>
    (s.set i fun p => { p with closes := cause :: p.closes }, if cause = .idle then [.leave i] else [])
  | .poll i => (s, if (s.heap i).cancelled then [.leave i] else [.reap i])
  | .reap i => ((s.cancelIfIdle i now).1, if (s.cancelIfIdle i now).2 then [.cancel i .idle] else [.sleep i])
  | .sleep i =>
    (s, if elapsed then [.poll i] else if (s.heap i).cancelled then [.leave i] else [.sleep i])
  | .await i => (s, if (s.heap i).cancelled then [.leave i] else [.await i])
  | .leave i => (s, [.deregister i])
  | .deregister i => (s.unregister i, [])

inductive Event where
  | acquire (key : SessionKey) (now : ℤ)
  | acquireForSend (key : SessionKey) (now : ℤ)
  | control (key : SessionKey) (c : EncryptedControl) (now : ℤ)
  | release (i : ℕ) (now : ℤ)
  | notEnqueued (i : ℕ)
  | session (i : ℕ) (event : PeerEncryptionSession.Event)
  | advance (n : ℕ) (now : ℤ) (elapsed : Bool)

def acquireForSend (key : SessionKey) (now : ℤ) : SessionRegistry κ :=
  match (s.acquireSession key now).2 with
  | none => (s.acquireSession key now).1
  | some i =>
    if key.role = .client then (s.acquireSession key now).1.spawn [.restartHandshake i]
    else (s.acquireSession key now).1

def deliverEncryptedControl (key : SessionKey) (c : EncryptedControl) (now : ℤ) : SessionRegistry κ :=
  if s.mode = .off then s
  else if key.peerId = Id.zero then s
  else (s.getOrCreateWithLock key now).1.spawn [.deliver (s.getOrCreateWithLock key now).2 c]

def step : Event → SessionRegistry κ
  | .acquire key now => (s.acquireSession key now).1
  | .acquireForSend key now => s.acquireForSend key now
  | .control key c now => s.deliverEncryptedControl key c now
  | .release i now =>
    if i < s.opened then
      if (s.release i now).2 then (s.release i now).1.spawn [.cancel i .released] else (s.release i now).1
    else s
  | .notEnqueued i => if i < s.opened then s.spawn [.cancel i .notEnqueued] else s
  | .session i event => if i < s.opened then s.stepSession crypto i event else s
  | .advance n now elapsed =>
    match s.jobs[n]? with
    | none => s
    | some job =>
      { (s.advance crypto now elapsed job).1 with jobs := s.jobs.eraseIdx n ++ (s.advance crypto now elapsed job).2 }

def Freed (i : ℕ) : Prop :=
  (∃ job ∈ s.jobs, job.frees i = true) ∨ ∃ cause ∈ (s.heap i).closes, cause ≠ .notEnqueued

structure Sound : Prop where
  keyed : ∀ key i, s.sessions.lookup key = some i → i < s.opened ∧ (s.heap i).key = key
  bounded : ∀ job ∈ s.jobs, job.session < s.opened
  supervised : ∀ i, s.registered i = true → ∃ job ∈ s.jobs, job.supervises i = true
  freed : ∀ i, s.Freed i → s.registered i = false ∧ (s.heap i).refs ≤ 0
  fresh : ∀ i, s.opened ≤ i → (s.heap i).refs = 0 ∧ (s.heap i).closes = []

variable {s crypto} {i j n : ℕ} {key : SessionKey} {now : ℤ} {job : Job} {jobs : List Job}
  {f : ManagedSession κ → ManagedSession κ}

lemma registered_iff : s.registered i = true ↔ s.sessions.lookup (s.heap i).key = some i := by
  rw [registered, decide_eq_true_eq]

lemma heap_set (s : SessionRegistry κ) (i j : ℕ) (f : ManagedSession κ → ManagedSession κ) :
    (s.set i f).heap j = if j = i then f (s.heap j) else s.heap j := by
  change Function.update s.heap i (f (s.heap i)) j = _
  rw [Function.update_apply]
  split
  · next h => rw [h]
  · rfl

lemma registered_set (hkey : ∀ p, (f p).key = p.key) (s : SessionRegistry κ) (i j : ℕ) :
    (s.set i f).registered j = s.registered j := by
  have : ((s.set i f).heap j).key = (s.heap j).key := by
    rw [heap_set]
    split
    · exact hkey _
    · rfl
  rw [registered, registered, this]
  rfl

@[simp] lemma jobs_unregister (s : SessionRegistry κ) (i : ℕ) : (s.unregister i).jobs = s.jobs := by
  rw [unregister]
  split <;> rfl

@[simp] lemma heap_unregister (s : SessionRegistry κ) (i : ℕ) : (s.unregister i).heap = s.heap := by
  rw [unregister]
  split <;> rfl

@[simp] lemma opened_unregister (s : SessionRegistry κ) (i : ℕ) : (s.unregister i).opened = s.opened := by
  rw [unregister]
  split <;> rfl

lemma lookup_unregister (s : SessionRegistry κ) (i : ℕ) (key : SessionKey) :
    (s.unregister i).sessions.lookup key =
      if s.registered i = true ∧ key = (s.heap i).key then none else s.sessions.lookup key := by
  rw [unregister]
  by_cases h : s.registered i = true
  · rw [if_pos h, Table.lookup_erase_eq]
    simp only [h, true_and]
  · rw [if_neg h, if_neg (fun hboth => h hboth.1)]

lemma registered_unregister : (s.unregister i).registered j = true ↔ s.registered j = true ∧ j ≠ i := by
  rw [registered_iff, registered_iff, heap_unregister, lookup_unregister]
  constructor
  · intro h
    split at h
    · cases h
    · next hkey =>
      refine ⟨h, ?_⟩
      rintro rfl
      exact hkey ⟨registered_iff.mpr h, rfl⟩
  · rintro ⟨h, hne⟩
    rw [if_neg]
    · exact h
    · rintro ⟨hi, hkey⟩
      rw [hkey, registered_iff.mp hi] at h
      exact hne (Option.some.inj h).symm

lemma Sound.registered_of_lookup (h : s.Sound) (hkey : s.sessions.lookup key = some i) : s.registered i = true := by
  rw [registered_iff, (h.keyed key i hkey).2]
  exact hkey

lemma Sound.not_freed (h : s.Sound) (hi : s.registered i = true) : ¬ s.Freed i := by
  intro hfreed
  rw [(h.freed i hfreed).1] at hi
  cases hi

lemma sound_empty (mode : EncryptionMode) (idleTimeout : ℤ) : (empty κ mode idleTimeout).Sound where
  keyed := by
    intro key i hlookup
    cases hlookup
  bounded := by
    intro job hjob
    cases hjob
  supervised := by
    intro i hi
    cases hi
  freed := by
    rintro i (⟨job, hjob, -⟩ | ⟨cause, hcause, -⟩)
    · cases hjob
    · cases hcause
  fresh := fun _ _ => ⟨rfl, rfl⟩

lemma Sound.set (h : s.Sound) (hi : i < s.opened) (hkey : ∀ p, (f p).key = p.key)
    (hrefs : s.Freed i → (f (s.heap i)).refs ≤ (s.heap i).refs)
    (hcloses : ∀ cause ∈ (f (s.heap i)).closes, cause ∈ (s.heap i).closes ∨ cause = .notEnqueued ∨ s.Freed i) :
    (s.set i f).Sound := by
  have hfreed : ∀ j, (s.set i f).Freed j → s.Freed j := by
    rintro j (hjob | ⟨cause, hcause, hne⟩)
    · exact .inl hjob
    · rw [heap_set] at hcause
      split at hcause
      · next hj =>
        subst hj
        rcases hcloses cause hcause with hold | heq | hold
        · exact .inr ⟨cause, hold, hne⟩
        · exact absurd heq hne
        · exact hold
      · exact .inr ⟨cause, hcause, hne⟩
  refine ⟨fun key j hlookup => ?_, h.bounded, fun j hj => ?_, fun j hj => ?_, fun j hj => ?_⟩
  · obtain ⟨hlt, hold⟩ := h.keyed key j hlookup
    refine ⟨hlt, ?_⟩
    rw [heap_set]
    split
    · rw [hkey, hold]
    · exact hold
  · rw [registered_set hkey] at hj
    exact h.supervised j hj
  · obtain ⟨hregistered, hle⟩ := h.freed j (hfreed j hj)
    rw [registered_set hkey, heap_set]
    refine ⟨hregistered, ?_⟩
    split
    · next heq =>
      subst heq
      exact (hrefs (hfreed j hj)).trans hle
    · exact hle
  · rw [heap_set, if_neg (show j ≠ i by change s.opened ≤ j at hj; omega)]
    exact h.fresh j hj

lemma Sound.set_same (h : s.Sound) (hi : i < s.opened) (hkey : ∀ p, (f p).key = p.key)
    (hrefs : ∀ p, (f p).refs = p.refs) (hcloses : ∀ p, (f p).closes = p.closes) : (s.set i f).Sound := by
  apply h.set hi hkey
  · intro _
    exact (hrefs _).le
  · intro cause hcause
    rw [hcloses] at hcause
    exact .inl hcause

lemma Sound.unregister (h : s.Sound) (i : ℕ) : (s.unregister i).Sound := by
  have hfreed : ∀ j, (s.unregister i).Freed j → s.Freed j := by
    intro j hj
    rw [Freed, jobs_unregister, heap_unregister] at hj
    exact hj
  refine ⟨fun key j hlookup => ?_, fun job hjob => ?_, fun j hj => ?_, fun j hj => ?_, fun j hj => ?_⟩
  · rw [lookup_unregister] at hlookup
    split at hlookup
    · cases hlookup
    · rw [opened_unregister, heap_unregister]
      exact h.keyed key j hlookup
  · rw [jobs_unregister] at hjob
    rw [opened_unregister]
    exact h.bounded job hjob
  · rw [jobs_unregister]
    exact h.supervised j (registered_unregister.mp hj).1
  · obtain ⟨hregistered, hle⟩ := h.freed j (hfreed j hj)
    rw [heap_unregister]
    refine ⟨?_, hle⟩
    by_contra hj'
    have := (registered_unregister.mp (Bool.eq_true_of_not_eq_false hj')).1
    rw [hregistered] at this
    cases this
  · rw [opened_unregister] at hj
    rw [heap_unregister]
    exact h.fresh j hj

lemma registered_self_unregister (s : SessionRegistry κ) (i : ℕ) : (s.unregister i).registered i = false := by
  by_contra h
  exact (registered_unregister.mp (Bool.eq_true_of_not_eq_false h)).2 rfl

lemma Sound.withJobs (h : s.Sound) (hbounded : ∀ job ∈ jobs, job ∈ s.jobs ∨ job.session < s.opened)
    (hsupervised : ∀ i, s.registered i = true → ∃ job ∈ jobs, job.supervises i = true)
    (hfreed : ∀ job ∈ jobs, job ∈ s.jobs ∨
      ∀ i, job.frees i = true → s.registered i = false ∧ (s.heap i).refs ≤ 0) :
    ({ s with jobs := jobs } : SessionRegistry κ).Sound := by
  refine ⟨h.keyed, fun job hjob => ?_, hsupervised, ?_, h.fresh⟩
  · exact (hbounded job hjob).elim (h.bounded job) id
  · rintro i (⟨job, hjob, hfrees⟩ | hcause)
    · rcases hfreed job hjob with hold | hnew
      · exact h.freed i (.inl ⟨job, hold, hfrees⟩)
      · exact hnew i hfrees
    · exact h.freed i (.inr hcause)

lemma Sound.spawn (h : s.Sound) (hsession : job.session < s.opened)
    (hfreed : ∀ i, job.frees i = true → s.registered i = false ∧ (s.heap i).refs ≤ 0) : (s.spawn [job]).Sound := by
  apply h.withJobs
  · intro job' hjob
    rcases List.mem_append.mp hjob with hold | hnew
    · exact .inl hold
    · rw [List.mem_singleton.mp hnew]
      exact .inr hsession
  · intro i hi
    obtain ⟨job', hjob', hsup⟩ := h.supervised i hi
    exact ⟨job', List.mem_append_left _ hjob', hsup⟩
  · intro job' hjob
    rcases List.mem_append.mp hjob with hold | hnew
    · exact .inl hold
    · rw [List.mem_singleton.mp hnew]
      exact .inr hfreed

lemma Sound.replace (h : s.Sound) (hn : s.jobs[n]? = some job) (hsession : ∀ next ∈ jobs, next.session = job.session)
    (hsupervised : ∀ i, job.supervises i = true → s.registered i = true → ∃ next ∈ jobs, next.supervises i = true)
    (hfreed : ∀ next ∈ jobs, ∀ i, next.frees i = true → s.registered i = false ∧ (s.heap i).refs ≤ 0) :
    ({ s with jobs := s.jobs.eraseIdx n ++ jobs } : SessionRegistry κ).Sound := by
  apply h.withJobs
  · intro next hnext
    rcases List.mem_append.mp hnext with hold | hnew
    · exact .inl (List.mem_of_mem_eraseIdx hold)
    · rw [hsession next hnew]
      exact .inr (h.bounded job (List.mem_of_getElem? hn))
  · intro i hi
    obtain ⟨job', hjob', hsup⟩ := h.supervised i hi
    obtain ⟨m, hm⟩ := List.mem_iff_getElem?.mp hjob'
    by_cases hmn : m = n
    · rw [hmn, hn] at hm
      obtain rfl := Option.some.inj hm
      obtain ⟨next, hnext, hsup'⟩ := hsupervised i hsup hi
      exact ⟨next, List.mem_append_right _ hnext, hsup'⟩
    · exact ⟨job', List.mem_append_left _ (List.mem_eraseIdx_iff_getElem?.mpr ⟨m, hmn, hm⟩), hsup⟩
  · intro next hnext
    rcases List.mem_append.mp hnext with hold | hnew
    · exact .inl (List.mem_of_mem_eraseIdx hold)
    · exact .inr (hfreed next hnew)

lemma registered_opened (h : s.Sound) (hi : s.registered i = true) : i < s.opened :=
  (h.keyed _ i (registered_iff.mp hi)).1

lemma Sound.getOrCreateWithLock (h : s.Sound) (key : SessionKey) (now : ℤ) :
    (s.getOrCreateWithLock key now).1.Sound ∧
      (s.getOrCreateWithLock key now).1.registered (s.getOrCreateWithLock key now).2 = true := by
  rw [SessionRegistry.getOrCreateWithLock]
  split
  · next i hi => exact ⟨h, h.registered_of_lookup hi⟩
  · next hnone =>
    have hold : ∀ j, j ≠ s.opened → Function.update s.heap s.opened (newSession key now) j = s.heap j :=
      fun j hj => Function.update_of_ne hj _ _
    have hnew : Function.update s.heap s.opened (newSession key now) s.opened = newSession key now :=
      Function.update_self _ _ _
    have hself : (s.supervisor s.opened).session = s.opened ∧ (s.supervisor s.opened).supervises s.opened = true ∧
        ∀ j, (s.supervisor s.opened).frees j = false := by
      rw [supervisor]
      split
      · exact ⟨rfl, by simp [Job.supervises, Job.session], fun _ => rfl⟩
      · exact ⟨rfl, by simp [Job.supervises, Job.session], fun _ => rfl⟩
    refine ⟨⟨fun key' j hlookup => ?_, fun job hjob => ?_, fun j hj => ?_, fun j hj => ?_, fun j hj => ?_⟩, ?_⟩
    · dsimp only at hlookup ⊢
      rw [Table.lookup_insert_eq] at hlookup
      split at hlookup
      · next heq =>
        obtain rfl := Option.some.inj hlookup
        rw [hnew]
        exact ⟨Nat.lt_succ_self _, heq.symm⟩
      · obtain ⟨hlt, hkey⟩ := h.keyed key' j hlookup
        rw [hold j (by omega)]
        exact ⟨by omega, hkey⟩
    · rcases List.mem_append.mp hjob with hjob | hjob
      · exact (h.bounded job hjob).trans (Nat.lt_succ_self _)
      · rw [List.mem_singleton.mp hjob, hself.1]
        exact Nat.lt_succ_self _
    · by_cases heq : j = s.opened
      · rw [heq]
        exact ⟨_, List.mem_append_right _ (List.mem_singleton_self _), hself.2.1⟩
      · rw [registered_iff] at hj
        dsimp only at hj
        rw [hold j heq, Table.lookup_insert_eq] at hj
        split at hj
        · exact absurd (Option.some.inj hj).symm heq
        · obtain ⟨job, hjob, hsup⟩ := h.supervised j (registered_iff.mpr hj)
          exact ⟨job, List.mem_append_left _ hjob, hsup⟩
    · have hfreed : j ≠ s.opened ∧ s.Freed j := by
        rcases hj with ⟨job, hjob, hfrees⟩ | ⟨cause, hcause, hne⟩
        · rcases List.mem_append.mp hjob with hjob | hjob
          · have hsession : job.session = j := by
              cases job <;> simp_all [Job.frees, Job.session]
            have := h.bounded job hjob
            exact ⟨by omega, .inl ⟨job, hjob, hfrees⟩⟩
          · rw [List.mem_singleton.mp hjob, hself.2.2] at hfrees
            cases hfrees
        · dsimp only at hcause
          by_cases heq : j = s.opened
          · rw [heq, hnew] at hcause
            cases hcause
          · rw [hold j heq] at hcause
            exact ⟨heq, .inr ⟨cause, hcause, hne⟩⟩
      obtain ⟨hregistered, hle⟩ := h.freed j hfreed.2
      rw [← Bool.not_eq_true, registered_iff] at hregistered ⊢
      dsimp only
      rw [hold j hfreed.1, Table.lookup_insert_eq]
      refine ⟨?_, hle⟩
      split
      · intro heq
        exact hfreed.1 (Option.some.inj heq).symm
      · exact hregistered
    · dsimp only at hj ⊢
      rw [hold j (by omega)]
      exact h.fresh j (by omega)
    · rw [registered_iff]
      dsimp only
      rw [hnew]
      exact AList.lookup_insert _

lemma Sound.acquireSession (h : s.Sound) (key : SessionKey) (now : ℤ) : (s.acquireSession key now).1.Sound := by
  rw [SessionRegistry.acquireSession]
  split
  · exact h
  split
  · exact h
  · obtain ⟨hsound, hregistered⟩ := h.getOrCreateWithLock key now
    dsimp only [retain]
    apply hsound.set (registered_opened hsound hregistered)
    · intro p
      rfl
    · intro hfreed
      exact absurd hfreed (hsound.not_freed hregistered)
    · intro cause hcause
      exact .inl hcause

lemma acquireSession_opened (h : s.Sound) (hi : (s.acquireSession key now).2 = some i) :
    (s.acquireSession key now).1.registered i = true := by
  rw [SessionRegistry.acquireSession] at hi ⊢
  split at hi
  · cases hi
  split at hi
  · cases hi
  · next hmode hpeer =>
    rw [if_neg hmode, if_neg hpeer]
    obtain rfl := Option.some.inj hi
    dsimp only [retain]
    rw [registered_set]
    · exact (h.getOrCreateWithLock key now).2
    · intro p
      rfl

lemma Sound.acquireForSend (h : s.Sound) (key : SessionKey) (now : ℤ) : (s.acquireForSend key now).Sound := by
  have hacquired := h.acquireSession key now
  rw [SessionRegistry.acquireForSend]
  split
  · exact hacquired
  · next i hi =>
    split
    · apply hacquired.spawn
      · exact registered_opened hacquired (acquireSession_opened h hi)
      · intro j hj
        cases hj
    · exact hacquired

lemma Sound.deliverEncryptedControl (h : s.Sound) (key : SessionKey) (c : EncryptedControl) (now : ℤ) :
    (s.deliverEncryptedControl key c now).Sound := by
  rw [SessionRegistry.deliverEncryptedControl]
  split
  · exact h
  split
  · exact h
  · obtain ⟨hsound, hregistered⟩ := h.getOrCreateWithLock key now
    apply hsound.spawn
    · exact registered_opened hsound hregistered
    · intro j hj
      cases hj

lemma release_live (h : (s.release i now).2 = false) :
    0 < ((s.dropped i now).heap i).refs ∨ (s.dropped i now).handshakeInFlight i = true ∨ s.idleTimeout ≠ 0 := by
  rw [release] at h
  split at h
  · next hrefs => exact .inl hrefs
  split at h
  · next hflight => exact .inr (.inl hflight)
  split at h
  · next hidle => exact .inr (.inr hidle)
  · cases h

lemma release_cases (s : SessionRegistry κ) (i : ℕ) (now : ℤ) :
    s.release i now = (s.dropped i now, false) ∨
      s.release i now = ((s.dropped i now).unregister i, true) ∧ ((s.dropped i now).heap i).refs ≤ 0 ∧
        (s.dropped i now).handshakeInFlight i = false ∧ s.idleTimeout = 0 := by
  rw [release]
  split
  · exact .inl rfl
  split
  · exact .inl rfl
  split
  · exact .inl rfl
  · next hrefs hflight hidle =>
    exact .inr ⟨rfl, not_lt.mp hrefs, Bool.eq_false_of_not_eq_true hflight, not_not.mp hidle⟩

lemma cancelIfIdle_cases (s : SessionRegistry κ) (i : ℕ) (now : ℤ) :
    s.cancelIfIdle i now = (s, false) ∨
      s.cancelIfIdle i now = (s.unregister i, true) ∧ (s.heap i).refs ≤ 0 ∧ s.handshakeInFlight i = false := by
  rw [cancelIfIdle]
  split
  · exact .inl rfl
  split
  · exact .inl rfl
  split
  · exact .inl rfl
  · next hrefs hflight _ => exact .inr ⟨rfl, not_lt.mp hrefs, Bool.eq_false_of_not_eq_true hflight⟩

lemma Sound.dropped (h : s.Sound) (hi : i < s.opened) (now : ℤ) : (s.dropped i now).Sound := by
  apply h.set hi
  · intro p
    rfl
  · intro _
    dsimp only
    omega
  · intro cause hcause
    exact .inl hcause

lemma Sound.frees (hrefs : (s.heap i).refs ≤ 0) {cause : Teardown} {j : ℕ}
    (hj : (Job.cancel i cause).frees j = true) :
    (s.unregister i).registered j = false ∧ ((s.unregister i).heap j).refs ≤ 0 := by
  rw [Job.frees, Bool.and_eq_true, decide_eq_true_eq] at hj
  obtain ⟨rfl, -⟩ := hj
  rw [heap_unregister]
  exact ⟨registered_self_unregister s i, hrefs⟩

lemma Sound.finish (h : s.Sound) (hn : s.jobs[n]? = some job)
    (hdone : ∀ i, job.supervises i = true → s.registered i = false) :
    ({ s with jobs := s.jobs.eraseIdx n ++ [] } : SessionRegistry κ).Sound := by
  apply h.replace hn
  · intro next hnext
    cases hnext
  · intro i hsup hi
    rw [hdone i hsup] at hi
    cases hi
  · intro next hnext
    cases hnext

lemma Sound.follow (h : s.Sound) (hn : s.jobs[n]? = some job) (next : Job) (hsession : next.session = job.session)
    (hsupervises : ∀ i, job.supervises i = true → next.supervises i = true)
    (hfreed : ∀ i, next.frees i = true → s.registered i = false ∧ (s.heap i).refs ≤ 0) :
    ({ s with jobs := s.jobs.eraseIdx n ++ [next] } : SessionRegistry κ).Sound := by
  apply h.replace hn
  · intro next' hnext
    rw [List.mem_singleton.mp hnext]
    exact hsession
  · intro i hsup _
    exact ⟨next, List.mem_singleton_self next, hsupervises i hsup⟩
  · intro next' hnext
    rw [List.mem_singleton.mp hnext]
    exact hfreed

lemma Sound.goOn (h : s.Sound) (hn : s.jobs[n]? = some job) (next : Job) (hsession : next.session = job.session)
    (hsupervises : ∀ i, job.supervises i = true → next.supervises i = true) (hfrees : ∀ i, next.frees i = false) :
    ({ s with jobs := s.jobs.eraseIdx n ++ [next] } : SessionRegistry κ).Sound := by
  apply h.follow hn next hsession hsupervises
  intro i hi
  rw [hfrees i] at hi
  cases hi

lemma Sound.advance (h : s.Sound) (crypto : ℕ → Crypto κ) (hn : s.jobs[n]? = some job) (now : ℤ) (elapsed : Bool) :
    ({ (s.advance crypto now elapsed job).1 with
      jobs := s.jobs.eraseIdx n ++ (s.advance crypto now elapsed job).2 } : SessionRegistry κ).Sound := by
  have hi := h.bounded job (List.mem_of_getElem? hn)
  have hn' : ∀ i, (s.unregister i).jobs[n]? = some job := by
    intro i
    rw [jobs_unregister]
    exact hn
  cases job with
  | restartHandshake i =>
    have hset := h.set_same hi (f := fun p => { p with session := p.session.step (crypto i) (.call .restartHandshake) })
      (fun _ => rfl) (fun _ => rfl) (fun _ => rfl)
    exact hset.finish hn fun _ hsup => by cases hsup
  | deliver i c =>
    have hset := h.set_same hi
      (f := fun p => { p with session := p.session.step (crypto i) (.call (.deliverEncryptedControl c)) })
      (fun _ => rfl) (fun _ => rfl) (fun _ => rfl)
    exact hset.finish hn fun _ hsup => by cases hsup
  | cancel i cause =>
    have hset := h.set_same hi (f := fun p => { p with cancelled := true })
      (fun _ => rfl) (fun _ => rfl) (fun _ => rfl)
    exact hset.follow hn _ rfl (fun _ hsup => hsup)
      fun j hj => hset.freed j (.inl ⟨_, List.mem_of_getElem? hn, hj⟩)
  | closeTls i cause =>
    have hset : (s.set i fun p => { p with closes := cause :: p.closes }).Sound := by
      apply h.set (i := i) hi
      · intro p
        rfl
      · intro _
        exact le_rfl
      · intro cause' hcause
        rcases List.mem_cons.mp hcause with rfl | hold
        · by_cases heq : cause' = .notEnqueued
          · exact .inr (.inl heq)
          · refine .inr (.inr (.inl ⟨_, List.mem_of_getElem? hn, ?_⟩))
            simp [Job.frees, heq]
        · exact .inl hold
    rw [SessionRegistry.advance]
    dsimp only
    by_cases hcause : cause = .idle
    · rw [if_pos hcause]
      apply hset.goOn hn (.leave i) rfl
      · intro j hj
        simp only [Job.supervises, Bool.and_eq_true, decide_eq_true_eq] at hj
        exact decide_eq_true hj.1
      · intro j
        rfl
    · rw [if_neg hcause]
      apply hset.finish hn
      intro j hj
      simp only [Job.supervises, Bool.and_eq_true, decide_eq_true_eq] at hj
      exact absurd hj.2 hcause
  | poll i =>
    rw [SessionRegistry.advance]
    dsimp only
    split
    · exact h.goOn hn _ rfl (fun _ hsup => hsup) fun _ => rfl
    · exact h.goOn hn _ rfl (fun _ hsup => hsup) fun _ => rfl
  | reap i =>
    rw [SessionRegistry.advance]
    rcases s.cancelIfIdle_cases i now with heq | ⟨heq, hrefs, -⟩
    · rw [heq]
      exact h.goOn hn _ rfl (fun _ hsup => hsup) fun _ => rfl
    · rw [heq]
      have hnext := (h.unregister i).follow (hn' i) (.cancel i .idle) rfl
        (fun j hj => by simp [Job.supervises, of_decide_eq_true (p := i = j) hj]) (fun j hj => Sound.frees hrefs hj)
      rw [jobs_unregister] at hnext
      exact hnext
  | sleep i =>
    rw [SessionRegistry.advance]
    dsimp only
    split
    · exact h.goOn hn _ rfl (fun _ hsup => hsup) fun _ => rfl
    split
    · exact h.goOn hn _ rfl (fun _ hsup => hsup) fun _ => rfl
    · exact h.goOn hn _ rfl (fun _ hsup => hsup) fun _ => rfl
  | await i =>
    rw [SessionRegistry.advance]
    dsimp only
    split
    · exact h.goOn hn _ rfl (fun _ hsup => hsup) fun _ => rfl
    · exact h.goOn hn _ rfl (fun _ hsup => hsup) fun _ => rfl
  | leave i => exact h.goOn hn _ rfl (fun _ hsup => hsup) fun _ => rfl
  | deregister i =>
    have hnext := (h.unregister i).finish (hn' i) (fun j hj => by
      rw [← of_decide_eq_true (p := i = j) hj]
      exact registered_self_unregister s i)
    rw [jobs_unregister] at hnext
    exact hnext

lemma Sound.step (h : s.Sound) (crypto : ℕ → Crypto κ) (e : Event) : (s.step crypto e).Sound := by
  cases e with
  | acquire key now => exact h.acquireSession key now
  | acquireForSend key now => exact h.acquireForSend key now
  | control key c now => exact h.deliverEncryptedControl key c now
  | release i now =>
    rw [SessionRegistry.step]
    by_cases hi : i < s.opened
    · rw [if_pos hi]
      rcases s.release_cases i now with heq | ⟨heq, hrefs, -⟩
      · rw [heq]
        exact h.dropped hi now
      · rw [heq]
        apply ((h.dropped hi now).unregister i).spawn
        · rw [opened_unregister]
          exact hi
        · intro j hj
          exact Sound.frees hrefs hj
    · rw [if_neg hi]
      exact h
  | notEnqueued i =>
    rw [SessionRegistry.step]
    split
    · next hi =>
      apply h.spawn
      · exact hi
      · intro j hj
        simp [Job.frees] at hj
    · exact h
  | session i event =>
    rw [SessionRegistry.step]
    split
    · next hi => exact h.set_same hi (fun _ => rfl) (fun _ => rfl) (fun _ => rfl)
    · exact h
  | advance n now elapsed =>
    rw [SessionRegistry.step]
    split
    · exact h
    · next job hn => exact h.advance crypto hn now elapsed

lemma sound_run (crypto : ℕ → Crypto κ) (mode : EncryptionMode) (idleTimeout : ℤ) (es : List Event) :
    (run (step · crypto) (empty κ mode idleTimeout) es).Sound :=
  run_invariant (I := Sound) (fun _ e h => h.step crypto e) (sound_empty mode idleTimeout) es

def handsOut (s : SessionRegistry κ) : Event → Option ℕ
  | .acquire key now => (s.acquireSession key now).2
  | .acquireForSend key now => (s.acquireSession key now).2
  | _ => none

def drops (s : SessionRegistry κ) : Event → Option ℕ
  | .release i _ => if i < s.opened then some i else none
  | _ => none

lemma refs_getOrCreateWithLock (h : s.Sound) (key : SessionKey) (now : ℤ) (i : ℕ) :
    ((s.getOrCreateWithLock key now).1.heap i).refs = (s.heap i).refs := by
  rw [getOrCreateWithLock]
  split
  · rfl
  · change (Function.update s.heap s.opened (newSession key now) i).refs = (s.heap i).refs
    rw [Function.update_apply]
    split
    · next heq =>
      rw [heq, (h.fresh s.opened le_rfl).1]
      rfl
    · rfl

lemma refs_acquireSession (h : s.Sound) (key : SessionKey) (now : ℤ) (i : ℕ) :
    ((s.acquireSession key now).1.heap i).refs =
      (s.heap i).refs + if (s.acquireSession key now).2 = some i then 1 else 0 := by
  rw [acquireSession]
  split
  · rw [if_neg (by rintro ⟨⟩), add_zero]
  split
  · rw [if_neg (by rintro ⟨⟩), add_zero]
  · dsimp only [retain]
    rw [heap_set]
    by_cases hi : i = (s.getOrCreateWithLock key now).2
    · rw [if_pos hi, if_pos (congrArg some hi.symm)]
      dsimp only
      rw [refs_getOrCreateWithLock h]
    · rw [if_neg hi, if_neg (fun heq => hi (Option.some.inj heq).symm), refs_getOrCreateWithLock h, add_zero]

lemma acquireForSend_heap (s : SessionRegistry κ) (key : SessionKey) (now : ℤ) :
    (s.acquireForSend key now).heap = (s.acquireSession key now).1.heap := by
  rw [acquireForSend]
  split
  · rfl
  split <;> rfl

lemma refs_dropped (s : SessionRegistry κ) (i j : ℕ) (now : ℤ) :
    ((s.dropped i now).heap j).refs = (s.heap j).refs - if j = i then 1 else 0 := by
  rw [dropped, heap_set]
  split
  · rfl
  · rw [sub_zero]

lemma refs_set (s : SessionRegistry κ) (i j : ℕ) (hrefs : ∀ p, (f p).refs = p.refs) :
    ((s.set i f).heap j).refs = (s.heap j).refs := by
  rw [heap_set]
  split
  · exact hrefs _
  · rfl

lemma refs_advance (s : SessionRegistry κ) (crypto : ℕ → Crypto κ) (now : ℤ) (elapsed : Bool) (job : Job) (i : ℕ) :
    ((s.advance crypto now elapsed job).1.heap i).refs = (s.heap i).refs := by
  cases job with
  | restartHandshake j =>
    dsimp only [advance, stepSession]
    apply refs_set
    intro p
    rfl
  | deliver j c =>
    dsimp only [advance, stepSession]
    apply refs_set
    intro p
    rfl
  | cancel j cause =>
    dsimp only [advance, stepSession]
    apply refs_set
    intro p
    rfl
  | closeTls j cause =>
    dsimp only [advance, stepSession]
    apply refs_set
    intro p
    rfl
  | reap j =>
    rw [advance]
    rcases s.cancelIfIdle_cases j now with heq | ⟨heq, -⟩
    · rw [heq]
    · rw [heq, heap_unregister]
  | deregister j =>
    rw [advance, heap_unregister]
  | poll j => rfl
  | sleep j => rfl
  | await j => rfl
  | leave j => rfl

lemma refs_step (h : s.Sound) (crypto : ℕ → Crypto κ) (e : Event) (i : ℕ) :
    ((s.step crypto e).heap i).refs =
      (s.heap i).refs + (if s.handsOut e = some i then 1 else 0) - if s.drops e = some i then 1 else 0 := by
  cases e with
  | acquire key now =>
    change ((s.acquireSession key now).1.heap i).refs = (s.heap i).refs + _ - 0
    rw [refs_acquireSession h, sub_zero]
    rfl
  | acquireForSend key now =>
    change ((s.acquireForSend key now).heap i).refs = (s.heap i).refs + _ - 0
    rw [acquireForSend_heap, refs_acquireSession h, sub_zero]
    rfl
  | control key c now =>
    change ((s.deliverEncryptedControl key c now).heap i).refs = (s.heap i).refs + 0 - 0
    rw [add_zero, sub_zero, deliverEncryptedControl]
    split
    · rfl
    split
    · rfl
    · exact refs_getOrCreateWithLock h key now i
  | release j now =>
    change _ = (s.heap i).refs + 0 - if (if j < s.opened then some j else none) = some i then 1 else 0
    rw [step, add_zero]
    by_cases hj : j < s.opened
    · have hif : (some j = some i) = (i = j) := by
        rw [Option.some.injEq]
        exact propext eq_comm
      rw [if_pos hj, if_pos hj]
      simp only [hif]
      rw [← refs_dropped s j i now]
      rcases s.release_cases j now with heq | ⟨heq, -⟩
      · rw [heq]
        rfl
      · rw [heq]
        change (((s.dropped j now).unregister j).heap i).refs = _
        rw [heap_unregister]
    · rw [if_neg hj, if_neg hj, if_neg (by rintro ⟨⟩), sub_zero]
  | notEnqueued j =>
    change _ = (s.heap i).refs + 0 - 0
    rw [add_zero, sub_zero, step]
    split <;> rfl
  | session j event =>
    change _ = (s.heap i).refs + 0 - 0
    rw [add_zero, sub_zero, step]
    split
    · dsimp only [stepSession]
      apply refs_set
      intro p
      rfl
    · rfl
  | advance n now elapsed =>
    change _ = (s.heap i).refs + 0 - 0
    rw [add_zero, sub_zero, step]
    split
    · rfl
    · next job _ => exact s.refs_advance crypto now elapsed job i

lemma refs_run (h : s.Sound) (crypto : ℕ → Crypto κ) (es : List Event) (i : ℕ) :
    ((run (step · crypto) s es).heap i).refs =
      (s.heap i).refs + hits (fun s e => s.handsOut e = some i) (step · crypto) s es -
        hits (fun s e => s.drops e = some i) (step · crypto) s es := by
  induction es generalizing s with
  | nil => simp [hits]
  | cons e es ih =>
    rw [run_cons, ih (h.step crypto e), refs_step h crypto e i, hits, hits]
    push_cast
    ring

def tears (s : SessionRegistry κ) : Event → Option ℕ
  | .release i _ => some i
  | .advance n _ _ => s.jobs[n]?.bind Job.reaps
  | _ => none

def deregisters (s : SessionRegistry κ) : Event → Option ℕ
  | .release i _ => some i
  | .advance n _ _ => s.jobs[n]?.bind Job.deregisters
  | _ => none

def closing (s : SessionRegistry κ) (i : ℕ) : Event → Bool
  | .advance n _ _ => s.jobs[n]?.any (Job.frees i)
  | _ => false

lemma lookup_getOrCreateWithLock (hlookup : s.sessions.lookup key = some j) (key' : SessionKey) (now : ℤ) :
    (s.getOrCreateWithLock key' now).1.sessions.lookup key = some j := by
  rw [getOrCreateWithLock]
  split
  · exact hlookup
  · next hnone =>
    change (s.sessions.insert key' s.opened).lookup key = some j
    rw [Table.lookup_insert_eq, if_neg]
    · exact hlookup
    · rintro rfl
      rw [hnone] at hlookup
      cases hlookup

lemma lookup_acquireSession (hlookup : s.sessions.lookup key = some j) (key' : SessionKey) (now : ℤ) :
    (s.acquireSession key' now).1.sessions.lookup key = some j := by
  rw [acquireSession]
  split
  · exact hlookup
  split
  · exact hlookup
  · exact lookup_getOrCreateWithLock hlookup key' now

lemma removed_unregister (hlookup : s.sessions.lookup key = some j)
    (hgone : (s.unregister i).sessions.lookup key ≠ some j) : i = j := by
  rw [lookup_unregister] at hgone
  split at hgone
  · next h =>
    rw [h.2, registered_iff.mp h.1] at hlookup
    exact Option.some.inj hlookup
  · exact absurd hlookup hgone

lemma removed_advance {elapsed : Bool} (hlookup : s.sessions.lookup key = some j)
    (hgone : (s.advance crypto now elapsed job).1.sessions.lookup key ≠ some j) : job.deregisters = some j := by
  cases job with
  | reap i =>
    rw [advance] at hgone
    rcases s.cancelIfIdle_cases i now with heq | ⟨heq, -⟩
    · rw [heq] at hgone
      exact absurd hlookup hgone
    · rw [heq] at hgone
      exact congrArg some (removed_unregister hlookup hgone)
  | deregister i => exact congrArg some (removed_unregister hlookup hgone)
  | restartHandshake i => exact absurd hlookup hgone
  | deliver i c => exact absurd hlookup hgone
  | cancel i cause => exact absurd hlookup hgone
  | closeTls i cause => exact absurd hlookup hgone
  | poll i => exact absurd hlookup hgone
  | sleep i => exact absurd hlookup hgone
  | await i => exact absurd hlookup hgone
  | leave i => exact absurd hlookup hgone

lemma removed_step {e : Event} (hlookup : s.sessions.lookup key = some j)
    (hgone : (s.step crypto e).sessions.lookup key ≠ some j) : s.deregisters e = some j := by
  cases e with
  | acquire key' now => exact absurd (lookup_acquireSession hlookup key' now) hgone
  | acquireForSend key' now =>
    have hkept := lookup_acquireSession hlookup key' now
    rw [step, acquireForSend] at hgone
    split at hgone
    · exact absurd hkept hgone
    split at hgone
    · exact absurd hkept hgone
    · exact absurd hkept hgone
  | control key' c now =>
    rw [step, deliverEncryptedControl] at hgone
    split at hgone
    · exact absurd hlookup hgone
    split at hgone
    · exact absurd hlookup hgone
    · exact absurd (lookup_getOrCreateWithLock hlookup key' now) hgone
  | release i now =>
    rw [step] at hgone
    split at hgone
    · rcases s.release_cases i now with heq | ⟨heq, -⟩
      · rw [heq] at hgone
        exact absurd hlookup hgone
      · rw [heq] at hgone
        exact congrArg some (removed_unregister (s := s.dropped i now) hlookup hgone)
    · exact absurd hlookup hgone
  | notEnqueued i =>
    rw [step] at hgone
    split at hgone
    · exact absurd hlookup hgone
    · exact absurd hlookup hgone
  | session i event =>
    rw [step] at hgone
    split at hgone
    · exact absurd hlookup hgone
    · exact absurd hlookup hgone
  | advance n now elapsed =>
    rw [step] at hgone
    change s.jobs[n]?.bind Job.deregisters = some j
    split at hgone
    · exact absurd hlookup hgone
    · next job hn =>
      rw [hn]
      exact removed_advance hlookup hgone

lemma spared_step {e : Event} (hi : s.tears e = some i)
    (hlive : 0 < ((s.step crypto e).heap i).refs ∨ (s.step crypto e).handshakeInFlight i = true) :
    (s.step crypto e).sessions = s.sessions ∧
      ∀ cause, Job.cancel i cause ∈ (s.step crypto e).jobs → Job.cancel i cause ∈ s.jobs := by
  cases e with
  | release i' now =>
    obtain rfl := Option.some.inj hi
    rw [step] at hlive ⊢
    by_cases hopened : i' < s.opened
    · rw [if_pos hopened] at hlive ⊢
      rcases s.release_cases i' now with heq | ⟨heq, hrefs, hflight, -⟩
      · rw [heq]
        exact ⟨rfl, fun _ hcause => hcause⟩
      · rw [heq] at hlive
        change 0 < (((s.dropped i' now).unregister i').heap i').refs ∨
          (((s.dropped i' now).unregister i').heap i').session.handshakeInFlightLocked = true at hlive
        rw [heap_unregister] at hlive
        rcases hlive with hpos | hflight'
        · omega
        · exact absurd hflight' (Bool.not_eq_true _ ▸ hflight)
    · rw [if_neg hopened]
      exact ⟨rfl, fun _ hcause => hcause⟩
  | advance n now elapsed =>
    obtain ⟨job, hn, hreaps⟩ := Option.bind_eq_some_iff.mp hi
    cases job with
    | reap i' =>
      obtain rfl := Option.some.inj hreaps
      rw [step, hn] at hlive ⊢
      dsimp only [advance] at hlive ⊢
      rcases s.cancelIfIdle_cases i' now with heq | ⟨heq, hrefs, hflight⟩
      · rw [heq]
        refine ⟨rfl, fun cause hcause => ?_⟩
        rcases List.mem_append.mp hcause with hold | hnew
        · exact List.mem_of_mem_eraseIdx hold
        · cases List.mem_singleton.mp hnew
      · rw [heq] at hlive
        change 0 < ((s.unregister i').heap i').refs ∨
          ((s.unregister i').heap i').session.handshakeInFlightLocked = true at hlive
        rw [heap_unregister] at hlive
        rcases hlive with hpos | hflight'
        · omega
        · exact absurd hflight' (Bool.not_eq_true _ ▸ hflight)
    | restartHandshake _ => cases hreaps
    | deliver _ _ => cases hreaps
    | cancel _ _ => cases hreaps
    | closeTls _ _ => cases hreaps
    | poll _ => cases hreaps
    | sleep _ => cases hreaps
    | await _ => cases hreaps
    | leave _ => cases hreaps
    | deregister _ => cases hreaps
  | acquire _ _ => cases hi
  | acquireForSend _ _ => cases hi
  | control _ _ _ => cases hi
  | notEnqueued _ => cases hi
  | session _ _ => cases hi

lemma heap_getOrCreateWithLock (hi : i < s.opened) (key : SessionKey) (now : ℤ) :
    (s.getOrCreateWithLock key now).1.heap i = s.heap i := by
  rw [getOrCreateWithLock]
  split
  · rfl
  · exact Function.update_of_ne (by omega) _ _

lemma acquireSession_cases (hi : (s.acquireSession key now).2 = some i) :
    ((s.acquireSession key now).1.heap i).closes = [] ∨
      s.sessions.lookup key = some i ∧ ((s.acquireSession key now).1.heap i).closes = (s.heap i).closes := by
  rw [acquireSession] at hi ⊢
  split at hi
  · cases hi
  split at hi
  · cases hi
  · next hmode hpeer =>
    obtain rfl := Option.some.inj hi
    rw [if_neg hmode, if_neg hpeer]
    dsimp only [retain]
    rw [heap_set, if_pos rfl]
    dsimp only
    cases hlookup : s.sessions.lookup key with
    | some j =>
      have heq : s.getOrCreateWithLock key now = (s, j) := by rw [getOrCreateWithLock, hlookup]
      rw [heq]
      exact .inr ⟨rfl, rfl⟩
    | none =>
      left
      simp only [getOrCreateWithLock, hlookup, Function.update_self]
      rfl

lemma handed_acquireSession (h : s.Sound) (hi : (s.acquireSession key now).2 = some i) :
    ((s.acquireSession key now).1.heap i).closes = [] ∨
      s.sessions.lookup key = some i ∧ .notEnqueued ∈ (s.heap i).closes ∧ ∃ job ∈ s.jobs, job.supervises i = true := by
  rcases acquireSession_cases hi with hnew | ⟨hlookup, hcloses⟩
  · exact .inl hnew
  · rw [hcloses]
    have hregistered := h.registered_of_lookup hlookup
    cases hs : (s.heap i).closes with
    | nil => exact .inl rfl
    | cons cause closes =>
      refine .inr ⟨hlookup, ?_, h.supervised i hregistered⟩
      by_cases hcause : cause = .notEnqueued
      · rw [hcause]
        exact List.mem_cons_self
      · refine absurd (.inr ⟨cause, ?_, hcause⟩) (h.not_freed hregistered)
        rw [hs]
        exact List.mem_cons_self

lemma handed_step (h : s.Sound) {e : Event} (hi : s.handsOut e = some i) :
    ((s.step crypto e).heap i).closes = [] ∨
      .notEnqueued ∈ (s.heap i).closes ∧ ∃ job ∈ s.jobs, job.supervises i = true := by
  cases e with
  | acquire key now => exact (handed_acquireSession h hi).imp_right And.right
  | acquireForSend key now =>
    rw [step, acquireForSend_heap]
    exact (handed_acquireSession h hi).imp_right And.right
  | control _ _ _ => cases hi
  | release _ _ => cases hi
  | notEnqueued _ => cases hi
  | session _ _ => cases hi
  | advance _ _ _ => cases hi

lemma flight_set (s : SessionRegistry κ) (i j : ℕ)
    (hsession : ∀ p, (f p).session.handshakeInFlightLocked = p.session.handshakeInFlightLocked) :
    (s.set i f).handshakeInFlight j = s.handshakeInFlight j := by
  rw [handshakeInFlight, handshakeInFlight, heap_set]
  split
  · exact hsession _
  · rfl

lemma flight_acquireSession (hi : i < s.opened) (key : SessionKey) (now : ℤ) :
    (s.acquireSession key now).1.handshakeInFlight i = s.handshakeInFlight i := by
  rw [acquireSession]
  split
  · rfl
  split
  · rfl
  · dsimp only [retain]
    rw [flight_set]
    · rw [handshakeInFlight, heap_getOrCreateWithLock hi]
      rfl
    · intro p
      rfl

lemma flight_advance (s : SessionRegistry κ) (crypto : ℕ → Crypto κ) (now : ℤ) (elapsed : Bool) (job : Job) (i : ℕ) :
    (s.advance crypto now elapsed job).1.handshakeInFlight i = s.handshakeInFlight i := by
  cases job with
  | restartHandshake j =>
    dsimp only [advance, stepSession]
    apply flight_set
    intro p
    rfl
  | deliver j c =>
    dsimp only [advance, stepSession]
    apply flight_set
    intro p
    rfl
  | cancel j cause =>
    dsimp only [advance]
    apply flight_set
    intro p
    rfl
  | closeTls j cause =>
    dsimp only [advance]
    apply flight_set
    intro p
    rfl
  | reap j =>
    rw [advance]
    rcases s.cancelIfIdle_cases j now with heq | ⟨heq, -⟩
    · rw [heq]
    · rw [heq, handshakeInFlight, heap_unregister]
      rfl
  | deregister j =>
    rw [advance, handshakeInFlight, heap_unregister]
    rfl
  | poll j => rfl
  | sleep j => rfl
  | await j => rfl
  | leave j => rfl

lemma flight_step {e : Event} (hi : i < s.opened) (hother : ∀ event, e ≠ .session i event) :
    (s.step crypto e).handshakeInFlight i = s.handshakeInFlight i := by
  cases e with
  | acquire key now => exact flight_acquireSession hi key now
  | acquireForSend key now =>
    rw [step, handshakeInFlight, acquireForSend_heap]
    exact flight_acquireSession hi key now
  | control key c now =>
    rw [step, deliverEncryptedControl]
    split
    · rfl
    split
    · rfl
    · change ((s.getOrCreateWithLock key now).1.heap i).session.handshakeInFlightLocked = _
      rw [heap_getOrCreateWithLock hi]
      rfl
  | release j now =>
    have hdropped : (s.dropped j now).handshakeInFlight i = s.handshakeInFlight i := by
      rw [dropped]
      apply flight_set
      intro p
      rfl
    rw [step]
    split
    · rcases s.release_cases j now with heq | ⟨heq, -⟩
      · rw [heq]
        exact hdropped
      · rw [heq]
        change (((s.dropped j now).unregister j).heap i).session.handshakeInFlightLocked = _
        rw [heap_unregister]
        exact hdropped
    · rfl
  | notEnqueued j =>
    rw [step]
    split <;> rfl
  | session j event =>
    have hj : i ≠ j := by
      rintro rfl
      exact hother event rfl
    rw [step]
    split
    · rw [handshakeInFlight, stepSession, heap_set, if_neg hj]
      rfl
    · rfl
  | advance n now elapsed =>
    rw [step]
    split
    · rfl
    · next job _ => exact s.flight_advance crypto now elapsed job i

lemma frees_session (h : job.frees i = true) : job.session = i := by
  cases job <;> simp_all [Job.frees, Job.session]

lemma frees_getOrCreateWithLock (hjob : job ∈ (s.getOrCreateWithLock key now).1.jobs) (hfrees : job.frees i = true) :
    job ∈ s.jobs := by
  rw [getOrCreateWithLock] at hjob
  split at hjob
  · exact hjob
  · rcases List.mem_append.mp hjob with hold | hnew
    · exact hold
    · rw [List.mem_singleton.mp hnew, supervisor] at hfrees
      split at hfrees <;> cases hfrees

lemma frees_acquireSession (hjob : job ∈ (s.acquireSession key now).1.jobs) (hfrees : job.frees i = true) :
    job ∈ s.jobs := by
  rw [acquireSession] at hjob
  split at hjob
  · exact hjob
  split at hjob
  · exact hjob
  · exact frees_getOrCreateWithLock hjob hfrees

lemma frees_spawn {next : Job} (hjob : job ∈ (s.spawn [next]).jobs) (hfrees : job.frees i = true)
    (hnext : next.frees i = false) : job ∈ s.jobs := by
  rcases List.mem_append.mp hjob with hold | hnew
  · exact hold
  · rw [List.mem_singleton.mp hnew, hnext] at hfrees
    cases hfrees

lemma frees_advance {elapsed : Bool} {next : Job} (hnext : next ∈ (s.advance crypto now elapsed job).2)
    (hfrees : next.frees i = true) : job.frees i = true ∨ s.handshakeInFlight i = false := by
  cases job with
  | cancel j cause =>
    rw [List.mem_singleton.mp hnext] at hfrees
    exact .inl hfrees
  | closeTls j cause =>
    dsimp only [advance] at hnext
    split at hnext
    · rw [List.mem_singleton.mp hnext] at hfrees
      cases hfrees
    · cases hnext
  | reap j =>
    dsimp only [advance] at hnext
    rcases s.cancelIfIdle_cases j now with heq | ⟨heq, -, hflight⟩
    · rw [heq] at hnext
      rw [List.mem_singleton.mp hnext] at hfrees
      cases hfrees
    · rw [heq] at hnext
      rw [List.mem_singleton.mp hnext] at hfrees
      rw [← frees_session hfrees]
      exact .inr hflight
  | poll j =>
    dsimp only [advance] at hnext
    split at hnext <;> (rw [List.mem_singleton.mp hnext] at hfrees; cases hfrees)
  | sleep j =>
    dsimp only [advance] at hnext
    split at hnext
    · rw [List.mem_singleton.mp hnext] at hfrees
      cases hfrees
    · split at hnext <;> (rw [List.mem_singleton.mp hnext] at hfrees; cases hfrees)
  | await j =>
    dsimp only [advance] at hnext
    split at hnext <;> (rw [List.mem_singleton.mp hnext] at hfrees; cases hfrees)
  | leave j =>
    rw [List.mem_singleton.mp hnext] at hfrees
    cases hfrees
  | restartHandshake j => cases hnext
  | deliver j c => cases hnext
  | deregister j => cases hnext

lemma frees_step {e : Event} (hjob : job ∈ (s.step crypto e).jobs) (hfrees : job.frees i = true) :
    (∃ job ∈ s.jobs, job.frees i = true) ∨ (s.step crypto e).handshakeInFlight i = false := by
  cases e with
  | acquire key now => exact .inl ⟨job, frees_acquireSession hjob hfrees, hfrees⟩
  | acquireForSend key now =>
    rw [step, acquireForSend] at hjob
    split at hjob
    · exact .inl ⟨job, frees_acquireSession hjob hfrees, hfrees⟩
    split at hjob
    · exact .inl ⟨job, frees_acquireSession (frees_spawn hjob hfrees rfl) hfrees, hfrees⟩
    · exact .inl ⟨job, frees_acquireSession hjob hfrees, hfrees⟩
  | control key c now =>
    rw [step, deliverEncryptedControl] at hjob
    split at hjob
    · exact .inl ⟨job, hjob, hfrees⟩
    split at hjob
    · exact .inl ⟨job, hjob, hfrees⟩
    · exact .inl ⟨job, frees_getOrCreateWithLock (frees_spawn hjob hfrees rfl) hfrees, hfrees⟩
  | release j now =>
    rw [step] at hjob ⊢
    split at hjob
    · next hj =>
      rw [if_pos hj]
      rcases s.release_cases j now with heq | ⟨heq, -, hflight, -⟩
      · rw [heq] at hjob
        exact .inl ⟨job, hjob, hfrees⟩
      · rw [heq] at hjob ⊢
        rcases List.mem_append.mp hjob with hold | hnew
        · rw [jobs_unregister] at hold
          exact .inl ⟨job, hold, hfrees⟩
        · rw [List.mem_singleton.mp hnew] at hfrees
          right
          change (((s.dropped j now).unregister j).heap i).session.handshakeInFlightLocked = false
          rw [heap_unregister, ← frees_session hfrees]
          exact hflight
    · exact .inl ⟨job, hjob, hfrees⟩
  | notEnqueued j =>
    rw [step] at hjob
    split at hjob
    · exact .inl ⟨job, frees_spawn hjob hfrees (by simp [Job.frees]), hfrees⟩
    · exact .inl ⟨job, hjob, hfrees⟩
  | session j event =>
    rw [step] at hjob
    split at hjob
    · exact .inl ⟨job, hjob, hfrees⟩
    · exact .inl ⟨job, hjob, hfrees⟩
  | advance n now elapsed =>
    rw [step] at hjob ⊢
    split at hjob
    · exact .inl ⟨job, hjob, hfrees⟩
    · next job' hn =>
      rcases List.mem_append.mp hjob with hold | hnew
      · exact .inl ⟨job, List.mem_of_mem_eraseIdx hold, hfrees⟩
      · rcases frees_advance hnew hfrees with hfrees' | hflight
        · exact .inl ⟨job', List.mem_of_getElem? hn, hfrees'⟩
        · right
          rw [← s.flight_advance crypto now elapsed job' i] at hflight
          exact hflight

/-- No key is acquired while the goroutine of a session of this key, closed because a control was not
enqueued, has still to deregister it; and no handshake starts in a session that `Release` or `CancelIfIdle`
decided to close, before that `close()` has run. -/
def Undisturbed (crypto : ℕ → Crypto κ) (s : SessionRegistry κ) : Event → Prop
  | .acquire key _ => ∀ i < s.opened, (s.heap i).key = key → .notEnqueued ∈ (s.heap i).closes →
      ∀ job ∈ s.jobs, job.supervises i = false
  | .acquireForSend key _ => ∀ i < s.opened, (s.heap i).key = key → .notEnqueued ∈ (s.heap i).closes →
      ∀ job ∈ s.jobs, job.supervises i = false
  | .session i event => (∃ job ∈ s.jobs, job.frees i = true) →
      ((s.heap i).session.step (crypto i) event).handshakeInFlightLocked = true → s.handshakeInFlight i = true
  | _ => True

structure Orderly (crypto : ℕ → Crypto κ) (s : SessionRegistry κ) (e : Event) : Prop where
  spared : ∀ i, s.tears e = some i →
    0 < ((s.step crypto e).heap i).refs ∨ (s.step crypto e).handshakeInFlight i = true →
      (s.step crypto e).sessions = s.sessions ∧
        ∀ cause, Job.cancel i cause ∈ (s.step crypto e).jobs → Job.cancel i cause ∈ s.jobs
  closed : ∀ i, s.closing i e = true → (s.heap i).refs ≤ 0
  removed : ∀ key i, s.sessions.lookup key = some i → (s.step crypto e).sessions.lookup key ≠ some i →
    s.deregisters e = some i
  handed : ∀ i, s.handsOut e = some i → ((s.step crypto e).heap i).closes = [] ∨
    .notEnqueued ∈ (s.heap i).closes ∧ ∃ job ∈ s.jobs, job.supervises i = true

structure TornDown (crypto : ℕ → Crypto κ) (s : SessionRegistry κ) (e : Event) : Prop where
  closed : ∀ i, s.closing i e = true → s.handshakeInFlight i = false
  handed : ∀ i, s.handsOut e = some i → ((s.step crypto e).heap i).closes = []

structure Settled (s : SessionRegistry κ) : Prop where
  sound : s.Sound
  landed : ∀ i, (∃ job ∈ s.jobs, job.frees i = true) → s.handshakeInFlight i = false

lemma Settled.step (h : s.Settled) {e : Event} (hquiet : s.Undisturbed crypto e) : (s.step crypto e).Settled := by
  refine ⟨h.sound.step crypto e, fun i hjob => ?_⟩
  obtain ⟨job, hjob, hfrees⟩ := hjob
  rcases frees_step hjob hfrees with hold | hflight
  · obtain ⟨job', hjob', hfrees'⟩ := hold
    have hlanded := h.landed i ⟨job', hjob', hfrees'⟩
    have hi : i < s.opened := by
      rw [← frees_session hfrees']
      exact h.sound.bounded job' hjob'
    by_cases hevent : ∃ event, e = .session i event
    · obtain ⟨event, rfl⟩ := hevent
      by_contra hflight
      have hstep := hquiet ⟨job', hjob', hfrees'⟩ (by
        rw [handshakeInFlight, SessionRegistry.step, if_pos hi, stepSession, heap_set, if_pos rfl] at hflight
        exact Bool.eq_true_of_not_eq_false hflight)
      rw [hlanded] at hstep
      cases hstep
    · rw [flight_step hi (fun event heq => hevent ⟨event, heq⟩)]
      exact hlanded
  · exact hflight

lemma Sound.orderly (h : s.Sound) (crypto : ℕ → Crypto κ) (e : Event) : s.Orderly crypto e where
  spared _ hi := spared_step hi
  closed i hi := by
    cases e with
    | advance n now elapsed =>
      obtain ⟨job, hn, hfrees⟩ := (Option.any_eq_true _ _).mp hi
      exact (h.freed i (.inl ⟨job, List.mem_of_getElem? hn, hfrees⟩)).2
    | acquire _ _ => cases hi
    | acquireForSend _ _ => cases hi
    | control _ _ _ => cases hi
    | release _ _ => cases hi
    | notEnqueued _ => cases hi
    | session _ _ => cases hi
  removed _ _ := removed_step
  handed _ := handed_step h

lemma Settled.tornDown (h : s.Settled) {e : Event} (hquiet : s.Undisturbed crypto e) : s.TornDown crypto e where
  closed i hi := by
    cases e with
    | advance n now elapsed =>
      obtain ⟨job, hn, hfrees⟩ := (Option.any_eq_true _ _).mp hi
      exact h.landed i ⟨job, List.mem_of_getElem? hn, hfrees⟩
    | acquire _ _ => cases hi
    | acquireForSend _ _ => cases hi
    | control _ _ _ => cases hi
    | release _ _ => cases hi
    | notEnqueued _ => cases hi
    | session _ _ => cases hi
  handed i hi := by
    have hfound : ∀ key now, (s.acquireSession key now).2 = some i → (∀ i < s.opened, (s.heap i).key = key →
        .notEnqueued ∈ (s.heap i).closes → ∀ job ∈ s.jobs, job.supervises i = false) →
        ((s.acquireSession key now).1.heap i).closes = [] := by
      intro key now hi hwaits
      rcases handed_acquireSession h.sound hi with hnew | ⟨hlookup, hclosed, job, hjob, hsup⟩
      · exact hnew
      · obtain ⟨hlt, hkey⟩ := h.sound.keyed key i hlookup
        rw [hwaits i hlt hkey hclosed job hjob] at hsup
        cases hsup
    cases e with
    | acquire key now => exact hfound key now hi hquiet
    | acquireForSend key now =>
      rw [SessionRegistry.step, acquireForSend_heap]
      exact hfound key now hi hquiet
    | control _ _ _ => cases hi
    | release _ _ => cases hi
    | notEnqueued _ => cases hi
    | session _ _ => cases hi
    | advance _ _ _ => cases hi

section Handed

variable (crypto : ℕ → Crypto κ) (mode : EncryptionMode) (idleTimeout : ℤ)

theorem torn_down_sessions_are_not_handed_out (es : List Event) (e : Event) :
    let start := empty κ mode idleTimeout
    let s := run (step · crypto) start es
    (∀ i, (s.heap i).refs = hits (fun s e => s.handsOut e = some i) (step · crypto) start es -
      hits (fun s e => s.drops e = some i) (step · crypto) start es) ∧
    s.Orderly crypto e ∧
    (Meets (Undisturbed crypto) (step · crypto) start (es ++ [e]) → s.TornDown crypto e) := by
  intro start s
  refine ⟨fun i => ?_, (sound_run crypto mode idleTimeout es).orderly crypto e, fun hmeets => ?_⟩
  · have hrefs := refs_run (sound_empty mode idleTimeout) crypto es i
    have hzero : ((empty κ mode idleTimeout).heap i).refs = 0 := rfl
    rw [hzero, zero_add] at hrefs
    exact hrefs
  · obtain ⟨hes, he⟩ := meets_append.mp hmeets
    have hsettled : s.Settled := by
      apply meets_invariant (I := Settled) _ _ hes
      · intro s e h hquiet
        exact h.step hquiet
      · refine ⟨sound_empty mode idleTimeout, fun i hjob => ?_⟩
        obtain ⟨job, hjob, -⟩ := hjob
        cases hjob
    exact hsettled.tornDown he.1

end Handed

instance (crypto : ℕ → Crypto κ) (s : SessionRegistry κ) : DecidablePred (Undisturbed crypto s)
  | .acquire key _ => inferInstanceAs (Decidable (∀ i < s.opened, (s.heap i).key = key →
      .notEnqueued ∈ (s.heap i).closes → ∀ job ∈ s.jobs, job.supervises i = false))
  | .acquireForSend key _ => inferInstanceAs (Decidable (∀ i < s.opened, (s.heap i).key = key →
      .notEnqueued ∈ (s.heap i).closes → ∀ job ∈ s.jobs, job.supervises i = false))
  | .session i event => inferInstanceAs (Decidable ((∃ job ∈ s.jobs, job.frees i = true) →
      ((s.heap i).session.step (crypto i) event).handshakeInFlightLocked = true → s.handshakeInFlight i = true))
  | .control _ _ _ => inferInstanceAs (Decidable True)
  | .release _ _ => inferInstanceAs (Decidable True)
  | .notEnqueued _ => inferInstanceAs (Decidable True)
  | .advance _ _ _ => inferInstanceAs (Decidable True)

open PeerEncryptionSession in
def echoCryptos (_ : ℕ) : Crypto ℕ := echoCrypto

def peerKey (role : SequenceTlsRole) : SessionKey := ⟨Id.ofByte 1, false, role⟩

def notEnqueuedRun : List Event :=
  [.acquire (peerKey .client) 0, .notEnqueued 0, .advance 1 0 false, .advance 1 0 false]

theorem torn_down_sessions_are_not_handed_out_once_deregistered :
    let es := notEnqueuedRun ++ [.advance 0 0 false, .advance 0 0 false, .advance 0 0 false]
    let s := run (step · echoCryptos) (empty ℕ .required 0) es
    s.handsOut (.acquire (peerKey .client) 1) = some 1 ∧ (s.heap 0).refs = 1 ∧
      s.TornDown echoCryptos (.acquire (peerKey .client) 1) := by
  refine ⟨by decide +kernel, by decide +kernel, ?_⟩
  apply (torn_down_sessions_are_not_handed_out echoCryptos .required 0 _ _).2.2
  decide +kernel

def lateControlRun : List Event :=
  [.acquire (peerKey .server) 0,
    .control (peerKey .server) { controlType := .handshake, payload := [22, 3, 1, 0, 1, 1], epochId := [] } 0,
    .release 0 0, .advance 1 0 false, .session 0 (.advance 0 PeerEncryptionSession.quietInput),
    .session 0 (.advance 0 PeerEncryptionSession.quietInput)]

theorem closed_session_is_handed_out :
    let s := run (step · echoCryptos) (empty ℕ .required 0) notEnqueuedRun
    let t := run (step · echoCryptos) (empty ℕ .required 0) lateControlRun
    (s.handsOut (.acquire (peerKey .client) 1) = some 0 ∧ (s.heap 0).closes = [.notEnqueued] ∧
      (s.heap 0).cancelled = true) ∧
    t.jobs[1]? = some (.cancel 0 .released) ∧ t.closing 0 (.advance 1 0 false) = true ∧
      t.handshakeInFlight 0 = true := by
  decide +kernel

end SessionRegistry

end UrConnect.Encrypt
