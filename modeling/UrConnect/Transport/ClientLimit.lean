import Mathlib
import UrConnect.Lib.Runs

/-! The hold that the transports of one client share after the platform has closed one of them for
the client limit. Each event is one section under a lock, so a run is an interleaving of the
transports' goroutines, the owner's calls and the timers. -/

namespace UrConnect.Transport.ClientLimit

open Lib.Runs

def minute : ℤ := 60 * 10 ^ 9

def backoffTimeout : ℤ := 15 * minute

def backoffJitter : ℤ := 5 * minute

structure Timer where
  generation : ℕ
  due : ℤ
deriving DecidableEq

/-- `status` is the retry time while the limit is exceeded. No run reaches `2 ^ 64` generations. -/
structure ClientLimitBackoff where
  status : Option ℤ
  stopExpire : Option Timer
  expireGeneration : ℕ
  resetGeneration : ℕ
deriving DecidableEq

namespace ClientLimitBackoff

def armExpireWithLock (b : ClientLimitBackoff) (now timeout : ℤ) : ClientLimitBackoff :=
  { b with
    stopExpire := some ⟨b.expireGeneration + 1, now + timeout⟩
    expireGeneration := b.expireGeneration + 1 }

/-- The common end of `noteExceeded` and `Restore`: a hold that ends later is kept. -/
def extend (b : ClientLimitBackoff) (retryTime now : ℤ) : ClientLimitBackoff :=
  if b.status.any (retryTime ≤ ·) then b
  else { b with status := some retryTime }.armExpireWithLock now (retryTime - now)

/-- The jitter is a draw below its bound. The second part is the retry time of a hold, `none` when `held` is false. -/
def noteExceeded (b : ClientLimitBackoff) (resetGeneration : ℕ) (now draw : ℤ) : ClientLimitBackoff × Option ℤ :=
  if resetGeneration ≠ b.resetGeneration then (b, none)
  else
    let b := b.extend (now + (backoffTimeout + draw % backoffJitter)) now
    (b, b.status)

def reset (b : ClientLimitBackoff) : ClientLimitBackoff :=
  ⟨none, none, b.expireGeneration + 1, b.resetGeneration + 1⟩

def restore (b : ClientLimitBackoff) (retryTime now : ℤ) : ClientLimitBackoff :=
  if retryTime ≤ now then b else b.extend (min retryTime (now + (backoffTimeout + backoffJitter))) now

def expire (b : ClientLimitBackoff) (expireGeneration : ℕ) (now : ℤ) : ClientLimitBackoff :=
  if expireGeneration ≠ b.expireGeneration then b
  else match b.status with
    | none => { b with stopExpire := none }
    | some retryTime =>
      if 0 < retryTime - now then b.armExpireWithLock now (retryTime - now)
      else { b with status := none, stopExpire := none }

end ClientLimitBackoff

/-- `current`: a call of `noteClientLimitClose` has found the declaration of the dial unchanged. -/
structure Connection where
  transport : ℕ
  provideIntent : Bool
  resetGeneration : Option ℕ
  current : Bool

/-- The hold, the provide intent of each transport's auth, and the connections. -/
structure Client where
  backoff : ClientLimitBackoff
  provideIntent : ℕ → Bool
  connections : List Connection

/-- A dial reads the auth and then the reset generation. A close compares the auth and then notes the
excess, and a connection may be found closed more than once. A timer of any generation may run at any
time, as one that has fired is not stopped. -/
inductive Event
  | setAuth (transport : ℕ) (provideIntent : Bool)
  | authSnapshot (transport : ℕ)
  | dialResetGeneration (connection : ℕ)
  | noteClientLimitClose (connection : ℕ)
  | noteExceeded (connection : ℕ) (now draw : ℤ)
  | reset
  | restore (retryTime now : ℤ)
  | expire (expireGeneration : ℕ) (now : ℤ)

namespace Client

def new (provideIntent : ℕ → Bool) : Client := ⟨⟨none, none, 0, 0⟩, provideIntent, []⟩

def dialed (c : Client) (x : Connection) : Connection :=
  if x.resetGeneration.isNone then { x with resetGeneration := some c.backoff.resetGeneration } else x

def compared (c : Client) (x : Connection) : Connection :=
  if x.resetGeneration.isSome ∧ c.provideIntent x.transport = x.provideIntent then { x with current := true } else x

/-- The section of `noteExceeded` in a close of the connection. -/
def noted (c : Client) (x : Connection) (now draw : ℤ) : ClientLimitBackoff :=
  match x.current, x.resetGeneration with
  | true, some generation => (c.backoff.noteExceeded generation now draw).1
  | _, _ => c.backoff

def step (c : Client) : Event → Client
  | .setAuth i intent => { c with provideIntent := Function.update c.provideIntent i intent }
  | .authSnapshot i => { c with connections := c.connections ++ [⟨i, c.provideIntent i, none, false⟩] }
  | .dialResetGeneration k => { c with connections := c.connections.modify k c.dialed }
  | .noteClientLimitClose k => { c with connections := c.connections.modify k c.compared }
  | .noteExceeded k now draw => { c with backoff := c.connections[k]?.elim c.backoff (c.noted · now draw) }
  | .reset => { c with backoff := c.backoff.reset }
  | .restore retryTime now => { c with backoff := c.backoff.restore retryTime now }
  | .expire generation now => { c with backoff := c.backoff.expire generation now }

/-- A close of this connection starts a hold. -/
def Judged (c : Client) (x : Connection) : Prop :=
  x.current = true ∧ x.resetGeneration = some c.backoff.resetGeneration

end Client

/-- The clock reading of a section that may start a hold. -/
def Event.reading : Event → Option ℤ
  | .noteExceeded _ now _ | .restore _ now => some now
  | _ => none

def Event.Restores : Event → Prop
  | .restore _ _ => True
  | _ => False

/-- What one section makes of the hold. -/
inductive Moves (c : Client) : Event → ClientLimitBackoff → Prop
  | stays (e : Event) : Moves c e c.backoff
  | resets : Moves c .reset c.backoff.reset
  | prolongs {e : Event} {retryTime now : ℤ} (reads : now ∈ e.reading) (after : now < retryTime)
      (bound : retryTime ≤ now + (backoffTimeout + backoffJitter)) (later : ∀ t ∈ c.backoff.status, t < retryTime)
      (judged : ¬ e.Restores → ∃ x ∈ c.connections, c.Judged x) :
      Moves c e ({ c.backoff with status := some retryTime }.armExpireWithLock now (retryTime - now))
  | rearms {g : ℕ} {retryTime now : ℤ} (held : c.backoff.status = some retryTime) :
      Moves c (.expire g now) (c.backoff.armExpireWithLock now (retryTime - now))
  | ends {g : ℕ} {now : ℤ} (due : ∀ t ∈ c.backoff.status, t ≤ now) :
      Moves c (.expire g now) { c.backoff with status := none, stopExpire := none }

section Steps

variable {c : Client} {e : Event}

lemma extend_moves {retryTime now : ℤ} (hreads : now ∈ e.reading) (hafter : now < retryTime)
    (hbound : retryTime ≤ now + (backoffTimeout + backoffJitter))
    (hjudged : ¬ e.Restores → ∃ x ∈ c.connections, c.Judged x) : Moves c e (c.backoff.extend retryTime now) := by
  unfold ClientLimitBackoff.extend
  split_ifs with hkept
  · exact .stays e
  · refine .prolongs hreads hafter hbound (fun t ht => ?_) hjudged
    rw [Option.mem_def.mp ht] at hkept
    simpa using hkept

lemma jitter_range (draw : ℤ) : 0 ≤ draw % backoffJitter ∧ draw % backoffJitter < backoffJitter :=
  ⟨Int.emod_nonneg _ (by decide), Int.emod_lt_of_pos _ (by decide)⟩

lemma noted_of_judged {x : Connection} (hx : c.Judged x) (now draw : ℤ) :
    c.noted x now draw = c.backoff.extend (now + (backoffTimeout + draw % backoffJitter)) now := by
  simp [Client.noted, hx.1, hx.2, ClientLimitBackoff.noteExceeded]

lemma noted_of_not_judged {x : Connection} (hx : ¬ c.Judged x) (now draw : ℤ) : c.noted x now draw = c.backoff := by
  unfold Client.noted
  split
  · next hcurrent hgeneration =>
    have hne : _ ≠ c.backoff.resetGeneration := fun h => hx ⟨hcurrent, h ▸ hgeneration⟩
    simp [ClientLimitBackoff.noteExceeded, hne]
  · rfl

lemma expire_moves (g : ℕ) (now : ℤ) : Moves c (.expire g now) (c.backoff.expire g now) := by
  unfold ClientLimitBackoff.expire
  split_ifs
  · exact .stays _
  · split
    · next hnone =>
      have hmoves : Moves c (.expire g now) { c.backoff with status := none, stopExpire := none } :=
        .ends (by simp [hnone])
      rwa [← hnone] at hmoves
    · next t hsome =>
      split_ifs with hearly
      · exact .rearms hsome
      · exact .ends (by simp only [hsome, Option.mem_some_iff]; omega)

lemma step_moves (c : Client) (e : Event) : Moves c e (c.step e).backoff := by
  cases e with
  | setAuth | authSnapshot | dialResetGeneration | noteClientLimitClose => exact .stays _
  | noteExceeded k now draw =>
    simp only [Client.step]
    cases hk : c.connections[k]? with
    | none => exact .stays _
    | some x =>
      by_cases hx : c.Judged x
      · rw [Option.elim_some, noted_of_judged hx]
        have hrange := jitter_range draw
        have hpos : 0 < backoffTimeout := by decide
        exact extend_moves rfl (by omega) (by omega) fun _ => ⟨x, List.mem_of_getElem? hk, hx⟩
      · rw [Option.elim_some, noted_of_not_judged hx]
        exact .stays _
  | reset => exact .resets
  | restore t now =>
    simp only [Client.step, ClientLimitBackoff.restore]
    split_ifs with hpast
    · exact .stays _
    · have hpos : 0 < backoffTimeout + backoffJitter := by decide
      exact extend_moves rfl (by omega) (by omega) fun h => absurd trivial h
  | expire g now => exact expire_moves g now

end Steps

section Hold

variable {c : Client} {e : Event} {b : ClientLimitBackoff} {past : List Event} {t : ℤ}

/-- The timer of a hold is armed, of the generation that may end it, and due when the hold ends. -/
def ClientLimitBackoff.Timed (b : ClientLimitBackoff) : Prop :=
  b.stopExpire = b.status.map (Timer.mk b.expireGeneration)

lemma Moves.timed (hmoves : Moves c e b) (h : c.backoff.Timed) : b.Timed := by
  cases hmoves with
  | stays => exact h
  | resets | ends => rfl
  | prolongs => simp [ClientLimitBackoff.Timed, ClientLimitBackoff.armExpireWithLock]
  | rearms hheld => simp [ClientLimitBackoff.Timed, ClientLimitBackoff.armExpireWithLock, hheld]

def ClientLimitBackoff.HeldBy (past : List Event) (b : ClientLimitBackoff) : Prop :=
  ∀ t ∈ b.status, ∃ e ∈ past, ∃ now ∈ e.reading, now < t ∧ t ≤ now + (backoffTimeout + backoffJitter)

lemma Moves.heldBy (hmoves : Moves c e b) (h : c.backoff.HeldBy past) : b.HeldBy (past ++ [e]) := by
  have hpast : c.backoff.HeldBy (past ++ [e]) := fun t ht =>
    let ⟨d, hd, hnow⟩ := h t ht
    ⟨d, List.mem_append_left _ hd, hnow⟩
  cases hmoves with
  | stays | rearms => exact hpast
  | resets | ends =>
    intro t ht
    cases ht
  | prolongs hreads hafter hbound =>
    intro t ht
    cases ht
    exact ⟨e, by simp, _, hreads, hafter, hbound⟩

/-- A hold is always ended by the one timer that is armed, at most the timeout and the jitter after
the section that has set it. -/
theorem hold_ends_by_its_timer (provideIntent : ℕ → Bool) (events : List Event) :
    let b := (run Client.step (.new provideIntent) events).backoff
    b.Timed ∧ ∀ t ∈ b.status, ∃ e ∈ events, ∃ now ∈ e.reading,
      now < t ∧ t ≤ now + (backoffTimeout + backoffJitter) := by
  have htimed : (Client.new provideIntent).backoff.Timed := rfl
  have hheld : (Client.new provideIntent).backoff.HeldBy [] := fun t ht => by cases ht
  have hmeets : Meets (fun _ _ => True) Client.step (.new provideIntent) events := meets_of_forall (fun _ _ => trivial) _
  refine ⟨run_invariant (I := fun c : Client => c.backoff.Timed) (fun c e h => (step_moves c e).timed h) htimed events, ?_⟩
  exact history_invariant (I := fun past (c : Client) => c.backoff.HeldBy past)
    (fun past c e h _ => (step_moves c e).heldBy h) hheld hmeets

/-- The owner does not reset, and no timer reads a time from `t` on. -/
def Event.Before (t : ℤ) : Event → Prop
  | .reset => False
  | .expire _ now => now < t
  | _ => True

def ClientLimitBackoff.HeldUntil (t : ℤ) (b : ClientLimitBackoff) : Prop := ∃ t' ∈ b.status, t ≤ t'

lemma Moves.heldUntil (hmoves : Moves c e b) (h : c.backoff.HeldUntil t) (he : e.Before t) : b.HeldUntil t := by
  obtain ⟨t', ht', hle⟩ := h
  cases hmoves with
  | stays | rearms => exact ⟨t', ht', hle⟩
  | resets => cases he
  | prolongs _ _ _ hlater => exact ⟨_, rfl, hle.trans (hlater t' ht').le⟩
  | ends hdue =>
    have hnow : _ < t := he
    exact absurd (hdue t' ht') (by omega)

lemma extend_holds (b : ClientLimitBackoff) (retryTime now : ℤ) : (b.extend retryTime now).HeldUntil retryTime := by
  unfold ClientLimitBackoff.extend
  split_ifs with hkept
  · cases hstatus : b.status with
    | none => simp [hstatus] at hkept
    | some t => exact ⟨t, hstatus, by simpa [hstatus] using hkept⟩
  · exact ⟨retryTime, rfl, le_rfl⟩

/-- The close of a connection that declared the current intent and dialed since the last reset
starts a hold that nothing but a reset ends before the timeout. -/
theorem hold_lasts_after_close (c : Client) (k : ℕ) (x : Connection) (hx : c.connections[k]? = some x) (hjudged : c.Judged x)
    (now draw : ℤ) (later : List Event) (hlater : ∀ e ∈ later, e.Before (now + backoffTimeout)) :
    ∃ t ∈ (run Client.step c (.noteExceeded k now draw :: later)).backoff.status, now + backoffTimeout ≤ t := by
  have hstart : (c.step (.noteExceeded k now draw)).backoff.HeldUntil (now + backoffTimeout) := by
    obtain ⟨t, ht, hle⟩ := extend_holds c.backoff (now + (backoffTimeout + draw % backoffJitter)) now
    have hrange := jitter_range draw
    refine ⟨t, ?_, by omega⟩
    simpa only [Client.step, hx, Option.elim_some, noted_of_judged hjudged] using ht
  exact meets_invariant (I := fun c : Client => c.backoff.HeldUntil (now + backoffTimeout))
    (fun c e h he => (step_moves c e).heldUntil h he) hstart (meets_of_forall hlater _)

/-- The timer of the hold fires early. -/
theorem hold_lasts_after_close_early_timer :
    ∃ t ∈ (run Client.step (.new fun _ => true) [.authSnapshot 0, .dialResetGeneration 0, .noteClientLimitClose 0,
      .noteExceeded 0 0 7, .expire 1 minute]).backoff.status, 0 + backoffTimeout ≤ t :=
  hold_lasts_after_close (run Client.step (.new fun _ => true) [.authSnapshot 0, .dialResetGeneration 0, .noteClientLimitClose 0])
    0 _ rfl ⟨rfl, rfl⟩ 0 7 [.expire 1 minute] (List.forall_mem_singleton.mpr (by decide : minute < 0 + backoffTimeout))

end Hold

section Declaration

variable {c : Client} {e : Event} {b : ClientLimitBackoff} {intent : Bool} {f : Connection → Connection}
  {l : List Connection} {x : Connection}

lemma mem_modify {k : ℕ} (hx : x ∈ l.modify k f) :
    ∃ y ∈ l, x = y ∨ x = f y := by
  obtain ⟨i, hi⟩ := List.mem_iff_getElem?.mp hx
  rw [List.getElem?_modify] at hi
  obtain ⟨y, hy, rfl⟩ := Option.map_eq_some_iff.mp hi
  refine ⟨y, List.mem_of_getElem? hy, ?_⟩
  split_ifs
  · exact .inr rfl
  · exact .inl rfl

lemma modify_mem (k : ℕ) (hx : x ∈ l) :
    x ∈ l.modify k f ∨ f x ∈ l.modify k f := by
  obtain ⟨i, hi⟩ := List.mem_iff_getElem?.mp hx
  have hnext : (l.modify k f)[i]? = some (if k = i then f x else x) := by
    rw [List.getElem?_modify, hi]
    rfl
  split_ifs at hnext
  · exact .inr (List.mem_of_getElem? hnext)
  · exact .inl (List.mem_of_getElem? hnext)

/-- The generation that the connection has dialed under has come, and precedes every close of it. -/
def Dialed (c : Client) (x : Connection) : Prop :=
  (∀ g ∈ x.resetGeneration, g ≤ c.backoff.resetGeneration) ∧ (x.current = true → x.resetGeneration.isSome = true)

/-- A close of the connection that may still start a hold is one of the intent. -/
def Declares (intent : Bool) (c : Client) (x : Connection) : Prop :=
  x.current = true → x.provideIntent = intent ∨ ∃ g ∈ x.resetGeneration, g < c.backoff.resetGeneration

lemma Moves.resetGeneration_le (hmoves : Moves c e b) : c.backoff.resetGeneration ≤ b.resetGeneration := by
  cases hmoves with
  | stays | prolongs | rearms | ends => exact le_rfl
  | resets => exact Nat.le_succ _

/-- What a section makes of the connections. -/
lemma step_connections (c : Client) (e : Event) :
    ∀ x ∈ (c.step e).connections, x ∈ c.connections ∨ (∃ i, x = ⟨i, c.provideIntent i, none, false⟩) ∨
      ∃ y ∈ c.connections, x = c.dialed y ∨ x = c.compared y := by
  intro x hx
  cases e with
  | setAuth | noteExceeded | reset | restore | expire => exact .inl hx
  | authSnapshot i =>
    obtain hx | hx := List.mem_append.mp hx
    · exact .inl hx
    · exact .inr (.inl ⟨i, List.mem_singleton.mp hx⟩)
  | dialResetGeneration k =>
    obtain ⟨y, hy, rfl | rfl⟩ := mem_modify hx
    · exact .inl hy
    · exact .inr (.inr ⟨y, hy, .inl rfl⟩)
  | noteClientLimitClose k =>
    obtain ⟨y, hy, rfl | rfl⟩ := mem_modify hx
    · exact .inl hy
    · exact .inr (.inr ⟨y, hy, .inr rfl⟩)

lemma dialed_step (h : ∀ x ∈ c.connections, Dialed c x) (e : Event) :
    ∀ x ∈ (c.step e).connections, Dialed (c.step e) x := by
  have hmono := (step_moves c e).resetGeneration_le
  intro x hx
  suffices hold : Dialed c x from ⟨fun g hg => (hold.1 g hg).trans hmono, hold.2⟩
  obtain hx | ⟨i, rfl⟩ | ⟨y, hy, rfl | rfl⟩ := step_connections c e x hx
  · exact h x hx
  · simp [Dialed]
  · have hdialed := h y hy
    unfold Client.dialed
    split_ifs
    · simp [Dialed]
    · exact hdialed
  · have hdialed := h y hy
    unfold Client.compared
    split_ifs with hcurrent
    · exact ⟨hdialed.1, fun _ => hcurrent.1⟩
    · exact hdialed

/-- The owner keeps the declaration, and restores no hold of an earlier process. -/
def Event.Keeps (intent : Bool) : Event → Prop
  | .setAuth _ provideIntent => provideIntent = intent
  | .restore _ _ => False
  | _ => True

structure Settled (intent : Bool) (c : Client) : Prop where
  declared : ∀ i, c.provideIntent i = intent
  declares : ∀ x ∈ c.connections, Declares intent c x
  judged : ∀ t ∈ c.backoff.status, ∃ x ∈ c.connections, c.Judged x

lemma declares_step (h : Settled intent c) (e : Event) :
    ∀ x ∈ (c.step e).connections, Declares intent (c.step e) x := by
  have hmono := (step_moves c e).resetGeneration_le
  intro x hx
  suffices hold : Declares intent c x from fun hcurrent =>
    (hold hcurrent).imp_right fun ⟨g, hg, hlt⟩ => ⟨g, hg, hlt.trans_le hmono⟩
  obtain hx | ⟨i, rfl⟩ | ⟨y, hy, rfl | rfl⟩ := step_connections c e x hx
  · exact h.declares x hx
  · simp [Declares]
  · have hdeclares := h.declares y hy
    unfold Client.dialed
    split_ifs with hnone
    · -- without a generation no reset can have superseded the connection
      intro hcurrent
      refine .inl ((hdeclares hcurrent).resolve_right ?_)
      rintro ⟨g, hg, -⟩
      simp [Option.mem_def.mp hg] at hnone
    · exact hdeclares
  · have hdeclares := h.declares y hy
    unfold Client.compared
    split_ifs with hcurrent
    · -- the comparison reads the auth of its own time, which already has the intent
      exact fun _ => .inl (hcurrent.2.symm.trans (h.declared y.transport))
    · exact hdeclares

lemma judged_kept (hx : x ∈ c.connections) (hjudged : c.Judged x)
    (hsame : (c.step e).backoff.resetGeneration = c.backoff.resetGeneration) :
    ∃ y ∈ (c.step e).connections, (c.step e).Judged y := by
  have hdialed : c.dialed x = x := by simp [Client.dialed, hjudged.2]
  have hcompared : c.compared x = x := by
    have hx : { x with current := true } = x := by rw [← hjudged.1]
    simp [Client.compared, hx]
  refine ⟨x, ?_, hjudged.1, hsame ▸ hjudged.2⟩
  cases e with
  | setAuth | noteExceeded | reset | restore | expire => exact hx
  | authSnapshot i => exact List.mem_append_left _ hx
  | dialResetGeneration k =>
    have hmem := modify_mem (f := c.dialed) k hx
    rwa [hdialed, or_self] at hmem
  | noteClientLimitClose k =>
    have hmem := modify_mem (f := c.compared) k hx
    rwa [hcompared, or_self] at hmem

lemma Event.Keeps.not_restores (he : e.Keeps intent) : ¬ e.Restores := by
  cases e with
  | restore => exact fun _ => he
  | _ => exact id

lemma Moves.judged (hmoves : Moves c e b) (h : Settled intent c) (he : e.Keeps intent) {t : ℤ} (ht : t ∈ b.status) :
    (∃ x ∈ c.connections, c.Judged x) ∧ b.resetGeneration = c.backoff.resetGeneration := by
  cases hmoves with
  | stays => exact ⟨h.judged t ht, rfl⟩
  | resets | ends => cases ht
  | prolongs _ _ _ _ hjudged => exact ⟨hjudged he.not_restores, rfl⟩
  | rearms hheld => exact ⟨h.judged _ hheld, rfl⟩

lemma settled_step (h : Settled intent c) (he : e.Keeps intent) : Settled intent (c.step e) := by
  refine ⟨fun i => ?_, declares_step h e, fun t ht => ?_⟩
  · cases e with
    | setAuth j provideIntent =>
      by_cases hij : i = j
      · subst hij
        exact (Function.update_self ..).trans he
      · simpa [Client.step, hij] using h.declared i
    | _ => exact h.declared i
  · obtain ⟨⟨x, hx, hjudged⟩, hsame⟩ := (step_moves c e).judged h he ht
    exact judged_kept hx hjudged hsame

/-- A reset supersedes every connection that has dialed before it. -/
lemma settled_reset (hdeclared : ∀ i, c.provideIntent i = intent)
    (hdialed : ∀ x ∈ c.connections, Dialed c x) : Settled intent (c.step .reset) where
  declared := hdeclared
  judged := fun t ht => by cases ht
  declares x hx hcurrent := by
    obtain ⟨g, hg⟩ := Option.isSome_iff_exists.mp ((hdialed x hx).2 hcurrent)
    exact .inr ⟨g, hg, Nat.lt_succ_of_le ((hdialed x hx).1 g hg)⟩

/-- Once the owner has declared an intent on every transport and reset the hold, a hold rests on the close of
a connection that declared this intent and dialed since the reset, whatever older closes are still under way. -/
theorem hold_follows_declaration (provideIntent : ℕ → Bool) (events later : List Event) (intent : Bool)
    (hdeclared : ∀ i, (run Client.step (.new provideIntent) events).provideIntent i = intent)
    (hlater : ∀ e ∈ later, e.Keeps intent) :
    let c := run Client.step (.new provideIntent) (events ++ .reset :: later)
    ∀ t ∈ c.backoff.status, ∃ x ∈ c.connections, x.provideIntent = intent ∧ c.Judged x := by
  have hnew : ∀ x ∈ (Client.new provideIntent).connections, Dialed (.new provideIntent) x := by simp [Client.new]
  have hdialed := run_invariant (I := fun c : Client => ∀ x ∈ c.connections, Dialed c x) (fun _ e h => dialed_step h e) hnew events
  have hsettled : Settled intent (run Client.step (.new provideIntent) (events ++ .reset :: later)) := by
    rw [run_append, run_cons]
    exact meets_invariant (fun _ _ h he => settled_step h he) (settled_reset hdeclared hdialed) (meets_of_forall hlater _)
  intro c t ht
  obtain ⟨x, hx, hjudged⟩ := hsettled.judged t ht
  refine ⟨x, hx, (hsettled.declares x hx hjudged.1).resolve_right ?_, hjudged⟩
  rintro ⟨g, hg, hlt⟩
  cases hjudged.2.symm.trans hg
  exact hlt.false

/-- A close that has compared the old declaration notes the excess after the reset, and then one of the new declaration does. -/
def racingClose : List Event :=
  [.noteExceeded 0 0 0, .authSnapshot 0, .dialResetGeneration 1, .noteClientLimitClose 1, .noteExceeded 1 minute 0]

theorem hold_follows_declaration_racing :
    let c := run Client.step (.new (· ≠ 0)) ([.authSnapshot 0, .dialResetGeneration 0, .noteClientLimitClose 0, .setAuth 0 true] ++
      .reset :: racingClose)
    c.backoff.status = some (minute + backoffTimeout) ∧ ∃ x ∈ c.connections, x.provideIntent = true ∧ c.Judged x := by
  refine ⟨by decide, hold_follows_declaration (· ≠ 0) _ racingClose true ?_ ?_ (minute + backoffTimeout) (by decide)⟩
  · intro i
    by_cases hi : i = 0
    · subst hi
      rfl
    · simp [run, Client.step, Client.new, hi]
  · simp [racingClose, Event.Keeps]

end Declaration

end UrConnect.Transport.ClientLimit
