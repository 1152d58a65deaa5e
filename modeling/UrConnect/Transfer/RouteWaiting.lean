import Mathlib
import UrConnect.Transfer.RouteAttribution

/-! The reads and writes that wait on the routes of a selector, and what becomes of the frame of a write. -/

namespace UrConnect.Transfer.Route

open UrConnect.Lib

variable {τ ρ : Type}

/-- Where a write is. `notify` is the number of updates that had been announced when the round began: the channel that
the write has captured is open as long as it is the number of updates. -/
inductive WritePhase (ρ : Type)
  | enter
  | listing (notify : ℕ)
  | testing (notify : ℕ) (activeRoutes rest reliableRoutes : List ρ)
  | trying (notify : ℕ) (cases rest : List ρ)
  | selecting (notify : ℕ) (cases : List ρ)
  | parked (notify : ℕ) (cases : List ρ)
  | placed (route : ρ)
  | returned (success : Bool)
  | panicked

structure WriteCall (ρ : Type) where
  reliableOnly : Bool
  phase : WritePhase ρ
  placements : List ρ
  poolReturns : ℕ

/-- Where a read is. A route whose channel it has found closed is set inactive in a section of its own, after which the
read goes on at `next`. -/
inductive ReadPhase (ρ : Type)
  | enter
  | listing (notify : ℕ)
  | trying (notify : ℕ) (cases rest : List ρ) (retry : Bool)
  | deactivating (route : ρ) (next : ReadPhase ρ)
  | selecting (notify : ℕ) (cases : List ρ)
  | parked (notify : ℕ) (cases : List ρ)
  | found (route : ρ)
  | returned

inductive Choice (ρ : Type)
  | capture
  | list (shuffled : List ρ)
  | test
  | ready
  | notReady
  | closed (route : ρ)
  | park
  | route (route : ρ)
  | transportUpdate
  | done
  | finish

structure Waiting (τ ρ : Type) where
  selector : MultiRouteSelector τ ρ
  closed : List ρ
  writes : List (WriteCall ρ)
  reads : List (ReadPhase ρ)

inductive WaitEvent (τ ρ : Type)
  | updateTransportWithProperties (transport : Transport τ) (routes : List ρ) (properties : TransferCarrierProperties)
  | close (route : ρ)
  | startWrite (reliableOnly : Bool)
  | startRead
  | write (i : ℕ) (choice : Choice ρ)
  | read (i : ℕ) (choice : Choice ρ)

namespace WriteCall

def new (reliableOnly : Bool) : WriteCall ρ := ⟨reliableOnly, .enter, [], 0⟩

def goto (c : WriteCall ρ) (phase : WritePhase ρ) : WriteCall ρ := { c with phase := phase }

def place (c : WriteCall ρ) (route : ρ) : WriteCall ρ :=
  { c with phase := .placed route, placements := c.placements ++ [route] }

def giveUp (c : WriteCall ρ) : WriteCall ρ :=
  { c with phase := .returned false, poolReturns := c.poolReturns + 1 }

variable [DecidableEq ρ]

def send (c : WriteCall ρ) (closed : List ρ) (route : ρ) : WriteCall ρ :=
  if route ∈ closed then c.goto .panicked else c.place route

def test (c : WriteCall ρ) (notify : ℕ) (activeRoutes rest reliableRoutes : List ρ) : WriteCall ρ :=
  match rest with
  | [] =>
    let cases := if 0 < reliableRoutes.length then reliableRoutes else activeRoutes
    c.goto (.trying notify cases cases)
  | _ :: _ => c.goto (.testing notify activeRoutes rest reliableRoutes)

def move (s : MultiRouteSelector τ ρ) (closed : List ρ) (c : WriteCall ρ) (choice : Choice ρ) : WriteCall ρ :=
  match c.phase, choice with
  | .enter, .capture => c.goto (.listing s.updates)
  | .listing notify, .list shuffled =>
    if shuffled.Perm s.activeRoutes then
      if c.reliableOnly then c.test notify shuffled shuffled [] else c.goto (.trying notify shuffled shuffled)
    else c
  | .testing notify activeRoutes (route :: rest) reliableRoutes, .test =>
    c.test notify activeRoutes rest (if s.unreliableForRoute route then reliableRoutes else reliableRoutes ++ [route])
  | .trying notify cases [], .notReady => c.goto (.selecting notify cases)
  | .trying _ _ (route :: _), .ready => c.send closed route
  | .trying notify cases (route :: rest), .notReady =>
    if route ∈ closed then c.goto .panicked else c.goto (.trying notify cases rest)
  | .selecting notify cases, .park =>
    -- A select with a case that is ready does not wait.
    if notify = s.updates ∧ ∀ route ∈ cases, route ∉ closed then c.goto (.parked notify cases) else c
  | .selecting _ cases, .route route => if route ∈ cases then c.send closed route else c
  | .parked _ cases, .route route => if route ∈ cases then c.send closed route else c
  | .selecting notify _, .transportUpdate => if notify ≠ s.updates then c.goto .enter else c
  | .parked notify _, .transportUpdate => if notify ≠ s.updates then c.goto .enter else c
  | .selecting _ _, .done => c.giveUp
  | .parked _ _, .done => c.giveUp
  | .placed _, .finish => c.goto (.returned true)
  | _, _ => c

def closeRoute (c : WriteCall ρ) (route : ρ) : WriteCall ρ :=
  match c.phase with
  | .parked _ cases => if route ∈ cases then c.goto .panicked else c
  | _ => c

end WriteCall

namespace ReadPhase

variable [DecidableEq ρ]

def move (s : MultiRouteSelector τ ρ) (closed : List ρ) (phase : ReadPhase ρ) (choice : Choice ρ) :
    ReadPhase ρ × Option ρ :=
  match phase, choice with
  | .enter, .capture => (.listing s.updates, none)
  | .listing notify, .list shuffled =>
    (if shuffled.Perm s.activeRoutes then .trying notify shuffled shuffled false else phase, none)
  | .trying notify cases [] retry, .notReady => (if retry then .enter else .selecting notify cases, none)
  | .trying _ _ (route :: _) _, .ready => (.found route, none)
  | .trying notify cases (route :: rest) _, .closed _ =>
    (if route ∈ closed then .deactivating route (.trying notify cases rest true) else phase, none)
  | .trying notify cases (_ :: rest) retry, .notReady => (.trying notify cases rest retry, none)
  | .deactivating route next, .finish => (next, some route)
  | .selecting notify cases, .park =>
    (if notify = s.updates ∧ ∀ route ∈ cases, route ∉ closed then .parked notify cases else phase, none)
  | .selecting _ cases, .route route => (if route ∈ cases then .found route else phase, none)
  | .parked _ cases, .route route => (if route ∈ cases then .found route else phase, none)
  | .selecting _ cases, .closed route =>
    (if route ∈ cases ∧ route ∈ closed then .deactivating route .enter else phase, none)
  | .parked _ cases, .closed route =>
    (if route ∈ cases ∧ route ∈ closed then .deactivating route .enter else phase, none)
  | .selecting notify _, .transportUpdate => (if notify ≠ s.updates then .enter else phase, none)
  | .parked notify _, .transportUpdate => (if notify ≠ s.updates then .enter else phase, none)
  | .selecting _ _, .done => (.returned, none)
  | .parked _ _, .done => (.returned, none)
  | .found _, .finish => (.returned, none)
  | _, _ => (phase, none)

end ReadPhase

namespace Waiting

def new : Waiting τ ρ := ⟨.new, [], [], []⟩

variable [DecidableEq τ] [DecidableEq ρ]

def step (w : Waiting τ ρ) : WaitEvent τ ρ → Waiting τ ρ
  | .updateTransportWithProperties transport routes properties =>
    { w with selector := w.selector.updateTransportWithProperties transport routes properties }
  | .close route => { w with closed := route :: w.closed, writes := w.writes.map fun c => c.closeRoute route }
  | .startWrite reliableOnly => { w with writes := w.writes ++ [.new reliableOnly] }
  | .startRead => { w with reads := w.reads ++ [.enter] }
  | .write i choice => { w with writes := w.writes.modify i fun c => c.move w.selector w.closed choice }
  | .read i choice =>
    match w.reads[i]? with
    | none => w
    | some phase =>
      let (next, inactive) := phase.move w.selector w.closed choice
      { w with
        reads := w.reads.set i next
        selector := match inactive with
          | none => w.selector
          | some route => w.selector.setActive route false }

end Waiting

namespace MultiRouteSelector

variable [DecidableEq ρ] {s s' : MultiRouteSelector τ ρ} {closed closed' : List ρ} {r : ρ}

structure Advances (s : MultiRouteSelector τ ρ) (closed : List ρ) (s' : MultiRouteSelector τ ρ) (closed' : List ρ) :
    Prop where
  updates : s.updates ≤ s'.updates
  closed : ∀ r ∈ closed, r ∈ closed'
  active : s'.updates = s.updates → ∀ r ∈ s'.activeRoutes, r ∈ s.activeRoutes
  lost : s'.updates = s.updates → ∀ r ∈ s.activeRoutes, r ∈ s'.activeRoutes ∨ r ∈ closed'
  unreliable : s'.updates = s.updates → ∀ r, s'.unreliableForRoute r = s.unreliableForRoute r

lemma Advances.refl (s : MultiRouteSelector τ ρ) (closed : List ρ) : Advances s closed s closed :=
  ⟨le_rfl, fun _ h => h, fun _ _ h => h, fun _ _ h => .inl h, fun _ _ => rfl⟩

lemma advances_close (s : MultiRouteSelector τ ρ) (closed : List ρ) (route : ρ) :
    Advances s closed s (route :: closed) :=
  ⟨le_rfl, fun _ h => List.mem_cons_of_mem _ h, fun _ _ h => h, fun _ _ h => .inl h, fun _ _ => rfl⟩

lemma mem_activeRoutes : r ∈ s.activeRoutes ↔
    r ∈ s.transportRoutes.entries.flatMap Sigma.snd ∧ s.active r = true := by
  rw [activeRoutes, List.mem_filter]

lemma advances_setActive (hr : r ∈ closed) : Advances s closed (s.setActive r false) closed := by
  have hactive : ∀ r', (s.setActive r false).active r' = if r' = r then false else s.active r' := by
    intro r'
    rw [active, setActive]
    by_cases h : r' = r
    · subst h
      rw [Table.lookup_modify_self, if_pos rfl]
      cases s.routeActive.lookup r' <;> rfl
    · rw [Table.lookup_modify_ne _ h, if_neg h, active]
  refine ⟨le_rfl, fun _ h => h, fun _ r' hr' => ?_, fun _ r' hr' => ?_, fun _ _ => rfl⟩
  · rw [mem_activeRoutes, hactive] at hr'
    rw [mem_activeRoutes]
    refine ⟨hr'.1, ?_⟩
    by_cases h : r' = r
    · rw [if_pos h] at hr'
      exact absurd hr'.2 (by simp)
    · rw [if_neg h] at hr'
      exact hr'.2
  · by_cases h : r' = r
    · rw [h]
      exact .inr hr
    · rw [mem_activeRoutes] at hr' ⊢
      rw [hactive, if_neg h]
      exact .inl hr'

lemma advances_update [DecidableEq τ] (s : MultiRouteSelector τ ρ) (closed : List ρ) (transport : Transport τ)
    (routes : List ρ) (properties : TransferCarrierProperties) :
    Advances s closed (s.updateTransportWithProperties transport routes properties) closed := by
  have hnotified : ∀ s' : MultiRouteSelector τ ρ, s'.updates = s.updates + 1 → Advances s closed s' closed := by
    intro s' h
    have hne : s'.updates ≠ s.updates := by omega
    exact ⟨by omega, fun _ h => h, fun h => absurd h hne, fun h => absurd h hne, fun h => absurd h hne⟩
  rw [updateTransportWithProperties]
  split
  · split
    · exact Advances.refl s closed
    · exact hnotified _ rfl
  · exact hnotified _ rfl

end MultiRouteSelector

section Invariant

open MultiRouteSelector

variable [DecidableEq ρ] {s s' : MultiRouteSelector τ ρ} {closed closed' : List ρ} {r : ρ} {notify : ℕ}
  {routes activeRoutes rest reliableRoutes : List ρ} {reliableOnly : Bool}

structure Snapshot (s : MultiRouteSelector τ ρ) (closed routes : List ρ) : Prop where
  covers : ∀ r ∈ s.activeRoutes, r ∈ routes
  live : ∀ r ∈ routes, r ∈ s.activeRoutes ∨ r ∈ closed

lemma snapshot_of_perm (h : routes.Perm s.activeRoutes) : Snapshot s closed routes :=
  ⟨fun _ hr => h.mem_iff.mpr hr, fun _ hr => .inl (h.mem_iff.mp hr)⟩

lemma Snapshot.advances (h : Snapshot s closed routes) (ha : Advances s closed s' closed')
    (hupdates : s'.updates = s.updates) : Snapshot s' closed' routes := by
  refine ⟨fun r hr => h.covers r (ha.active hupdates r hr), fun r hr => ?_⟩
  rcases h.live r hr with hr | hr
  · exact ha.lost hupdates r hr
  · exact .inr (ha.closed r hr)

structure Offers (s : MultiRouteSelector τ ρ) (closed : List ρ) (reliableOnly : Bool) (cases : List ρ) : Prop where
  any : reliableOnly = false → ∀ r ∈ s.activeRoutes, r ∈ cases
  reliable : ∀ r ∈ s.activeRoutes, s.unreliableForRoute r = false → r ∈ cases
  fallback : (∃ r ∈ cases, s.unreliableForRoute r = false ∧ (r ∈ s.activeRoutes ∨ r ∈ closed)) ∨
    ∀ r ∈ s.activeRoutes, r ∈ cases

lemma Snapshot.offers (h : Snapshot s closed routes) : Offers s closed reliableOnly routes :=
  ⟨fun _ => h.covers, fun r hr _ => h.covers r hr, .inr h.covers⟩

lemma Offers.advances {cases : List ρ} (h : Offers s closed reliableOnly cases) (ha : Advances s closed s' closed')
    (hupdates : s'.updates = s.updates) : Offers s' closed' reliableOnly cases := by
  refine ⟨fun hany r hr => h.any hany r (ha.active hupdates r hr), fun r hr hreliable => ?_, ?_⟩
  · rw [ha.unreliable hupdates] at hreliable
    exact h.reliable r (ha.active hupdates r hr) hreliable
  · rcases h.fallback with ⟨r, hr, hreliable, hlive⟩ | hall
    · refine .inl ⟨r, hr, by rwa [ha.unreliable hupdates], ?_⟩
      rcases hlive with hlive | hlive
      · exact ha.lost hupdates r hlive
      · exact .inr (ha.closed r hlive)
    · exact .inr fun r hr => hall r (ha.active hupdates r hr)

structure Tested (s : MultiRouteSelector τ ρ) (closed activeRoutes rest reliableRoutes : List ρ) : Prop where
  snapshot : Snapshot s closed activeRoutes
  untested : ∀ r ∈ activeRoutes, r ∈ rest ∨ (s.unreliableForRoute r = false → r ∈ reliableRoutes)
  rest : ∀ r ∈ rest, r ∈ activeRoutes
  reliable : ∀ r ∈ reliableRoutes, r ∈ activeRoutes ∧ s.unreliableForRoute r = false

lemma Tested.advances (h : Tested s closed activeRoutes rest reliableRoutes) (ha : Advances s closed s' closed')
    (hupdates : s'.updates = s.updates) : Tested s' closed' activeRoutes rest reliableRoutes := by
  refine ⟨h.snapshot.advances ha hupdates, fun r hr => ?_, h.rest, fun r hr => ?_⟩
  · rw [ha.unreliable hupdates]
    exact h.untested r hr
  · rw [ha.unreliable hupdates]
    exact h.reliable r hr

lemma Tested.test {route : ρ} (h : Tested s closed activeRoutes (route :: rest) reliableRoutes) :
    Tested s closed activeRoutes rest
      (if s.unreliableForRoute route then reliableRoutes else reliableRoutes ++ [route]) := by
  refine ⟨h.snapshot, fun r hr => ?_, fun r hr => h.rest r (List.mem_cons_of_mem _ hr), fun r hr => ?_⟩
  · rcases h.untested r hr with hmem | hmem
    · rcases List.mem_cons.mp hmem with rfl | hmem
      · right
        intro hreliable
        simp [hreliable]
      · exact .inl hmem
    · right
      intro hreliable
      split
      · exact hmem hreliable
      · exact List.mem_append_left _ (hmem hreliable)
  · split at hr
    · exact h.reliable r hr
    · next hroute =>
      rcases List.mem_append.mp hr with hr | hr
      · exact h.reliable r hr
      · rw [List.mem_singleton.mp hr]
        exact ⟨h.rest route List.mem_cons_self, Bool.eq_false_iff.mpr hroute⟩

lemma Tested.offers (h : Tested s closed activeRoutes [] reliableRoutes) :
    Offers s closed true (if 0 < reliableRoutes.length then reliableRoutes else activeRoutes) := by
  split
  · next hpos =>
    obtain ⟨r, hr⟩ := List.exists_mem_of_length_pos hpos
    obtain ⟨hmem, hreliable⟩ := h.reliable r hr
    refine ⟨fun hany => absurd hany (by simp), fun r hr hreliable => ?_, .inl ⟨r, hr, hreliable, h.snapshot.live r hmem⟩⟩
    exact (h.untested r (h.snapshot.covers r hr)).resolve_left List.not_mem_nil hreliable
  · exact h.snapshot.offers

def Informed (s : MultiRouteSelector τ ρ) (closed : List ρ) (reliableOnly : Bool) (notify : ℕ) (cases : List ρ) : Prop :=
  notify ≤ s.updates ∧ (notify = s.updates → Offers s closed reliableOnly cases)

lemma unnotified (hn : notify ≤ s.updates) (ha : Advances s closed s' closed') (h : notify = s'.updates) :
    notify = s.updates ∧ s'.updates = s.updates := by
  have := ha.updates
  omega

lemma Informed.advances {cases : List ρ} (h : Informed s closed reliableOnly notify cases)
    (ha : Advances s closed s' closed') : Informed s' closed' reliableOnly notify cases := by
  refine ⟨le_trans h.1 ha.updates, fun hn => ?_⟩
  obtain ⟨hn, hupdates⟩ := unnotified h.1 ha hn
  exact (h.2 hn).advances ha hupdates

def WritePhase.Sound (s : MultiRouteSelector τ ρ) (closed : List ρ) (reliableOnly : Bool) : WritePhase ρ → Prop
  | .listing notify => notify ≤ s.updates
  | .testing notify activeRoutes rest reliableRoutes => reliableOnly = true ∧ notify ≤ s.updates ∧
      (notify = s.updates → Tested s closed activeRoutes rest reliableRoutes)
  | .trying notify cases _ => Informed s closed reliableOnly notify cases
  | .selecting notify cases => Informed s closed reliableOnly notify cases
  | .parked notify cases => Informed s closed reliableOnly notify cases ∧ ∀ r ∈ cases, r ∉ closed
  | _ => True

lemma WritePhase.Sound.advances {phase : WritePhase ρ} (h : phase.Sound s closed reliableOnly)
    (ha : Advances s closed s' closed') (hparked : ∀ notify cases, phase = .parked notify cases → ∀ r ∈ cases, r ∉ closed') :
    phase.Sound s' closed' reliableOnly := by
  cases phase with
  | listing notify => exact le_trans h ha.updates
  | testing notify activeRoutes rest reliableRoutes =>
    refine ⟨h.1, le_trans h.2.1 ha.updates, fun hn => ?_⟩
    obtain ⟨hn, hupdates⟩ := unnotified h.2.1 ha hn
    exact (h.2.2 hn).advances ha hupdates
  | trying notify cases rest => exact Informed.advances h ha
  | selecting notify cases => exact Informed.advances h ha
  | parked notify cases => exact ⟨h.1.advances ha, hparked notify cases rfl⟩
  | enter | placed _ | returned _ | panicked => trivial

def WriteCall.Accounted (c : WriteCall ρ) : Prop :=
  match c.phase with
  | .placed route => c.placements = [route] ∧ c.poolReturns = 0
  | .returned true => (∃ route, c.placements = [route]) ∧ c.poolReturns = 0
  | .returned false => c.placements = [] ∧ c.poolReturns = 1
  | _ => c.placements = [] ∧ c.poolReturns = 0

structure WriteCall.Sound (s : MultiRouteSelector τ ρ) (closed : List ρ) (c : WriteCall ρ) : Prop where
  phase : c.phase.Sound s closed c.reliableOnly
  accounted : c.Accounted

lemma WriteCall.Sound.advances {c : WriteCall ρ} (h : c.Sound s closed) (ha : Advances s closed s' closed) :
    c.Sound s' closed := by
  refine ⟨h.phase.advances ha fun notify cases hphase => ?_, h.accounted⟩
  have hsound := h.phase
  rw [hphase] at hsound
  exact hsound.2

lemma WriteCall.Sound.closeRoute {c : WriteCall ρ} (h : c.Sound s closed) (route : ρ) :
    (c.closeRoute route).Sound s (route :: closed) := by
  have ha := advances_close s closed route
  have haccounted := h.accounted
  have hsound := h.phase
  rw [WriteCall.closeRoute]
  split
  · next notify cases hphase =>
    rw [hphase] at hsound
    rw [WriteCall.Accounted, hphase] at haccounted
    split
    · exact ⟨trivial, haccounted⟩
    · next hroute =>
      refine ⟨h.phase.advances ha fun notify' cases' hphase' r hr => ?_, h.accounted⟩
      rw [hphase] at hphase'
      obtain ⟨-, rfl⟩ := WritePhase.parked.inj hphase'
      rw [List.mem_cons, not_or]
      exact ⟨fun heq => hroute (heq ▸ hr), hsound.2 r hr⟩
  · next hout =>
    exact ⟨h.phase.advances ha fun notify cases hphase => absurd hphase (hout notify cases), h.accounted⟩

lemma WriteCall.Sound.goto {c : WriteCall ρ} {phase : WritePhase ρ} (hplacements : c.placements = [])
    (hreturns : c.poolReturns = 0) (hphase : phase.Sound s closed c.reliableOnly)
    (hopen : (∀ route, phase ≠ .placed route) ∧ ∀ success, phase ≠ .returned success) :
    (c.goto phase).Sound s closed := by
  refine ⟨hphase, ?_⟩
  rw [WriteCall.Accounted]
  split
  · next h => exact absurd h (hopen.1 _)
  · next h => exact absurd h (hopen.2 _)
  · next h => exact absurd h (hopen.2 _)
  · exact ⟨hplacements, hreturns⟩

lemma WriteCall.Sound.send {c : WriteCall ρ} (hplacements : c.placements = []) (hreturns : c.poolReturns = 0)
    (route : ρ) : (c.send closed route).Sound s closed := by
  rw [WriteCall.send]
  split
  · exact WriteCall.Sound.goto hplacements hreturns trivial ⟨by simp, by simp⟩
  · refine ⟨trivial, ?_, hreturns⟩
    rw [WriteCall.place, hplacements]
    rfl

lemma WriteCall.Sound.test {c : WriteCall ρ} (hplacements : c.placements = []) (hreturns : c.poolReturns = 0)
    (hreliable : c.reliableOnly = true) (hn : notify ≤ s.updates)
    (htested : notify = s.updates → Tested s closed activeRoutes rest reliableRoutes) :
    (c.test notify activeRoutes rest reliableRoutes).Sound s closed := by
  cases rest with
  | nil =>
    refine WriteCall.Sound.goto hplacements hreturns ⟨hn, fun h => ?_⟩ ⟨by simp, by simp⟩
    rw [hreliable]
    exact (htested h).offers
  | cons route rest => exact WriteCall.Sound.goto hplacements hreturns ⟨hreliable, hn, htested⟩ ⟨by simp, by simp⟩

lemma WriteCall.Sound.move {c : WriteCall ρ} (h : c.Sound s closed) (choice : Choice ρ) :
    (c.move s closed choice).Sound s closed := by
  obtain ⟨reliableOnly, phase, placements, poolReturns⟩ := c
  obtain ⟨hphase, haccounted⟩ := h
  have hstay : WriteCall.Sound s closed ⟨reliableOnly, phase, placements, poolReturns⟩ := ⟨hphase, haccounted⟩
  cases phase with
  | enter =>
    cases choice with
    | capture => exact WriteCall.Sound.goto haccounted.1 haccounted.2 le_rfl ⟨by simp, by simp⟩
    | _ => exact hstay
  | listing notify =>
    cases choice with
    | list shuffled =>
      dsimp only [WriteCall.move]
      split
      · next hperm =>
        have hsnapshot : Snapshot s closed shuffled := snapshot_of_perm hperm
        split
        · next hreliable =>
          exact WriteCall.Sound.test haccounted.1 haccounted.2 hreliable hphase fun _ =>
            ⟨hsnapshot, fun _ hr => .inl hr, fun _ hr => hr, fun _ hr => absurd hr List.not_mem_nil⟩
        · exact WriteCall.Sound.goto haccounted.1 haccounted.2 ⟨hphase, fun _ => hsnapshot.offers⟩ ⟨by simp, by simp⟩
      · exact hstay
    | _ => exact hstay
  | testing notify activeRoutes rest reliableRoutes =>
    cases choice with
    | test =>
      cases rest with
      | nil => exact hstay
      | cons route rest =>
        exact WriteCall.Sound.test haccounted.1 haccounted.2 hphase.1 hphase.2.1 fun hn => (hphase.2.2 hn).test
    | _ => cases rest <;> exact hstay
  | trying notify cases rest =>
    cases rest with
    | nil =>
      cases choice with
      | notReady => exact WriteCall.Sound.goto haccounted.1 haccounted.2 hphase ⟨by simp, by simp⟩
      | _ => exact hstay
    | cons route rest =>
      cases choice with
      | ready => exact WriteCall.Sound.send haccounted.1 haccounted.2 route
      | notReady =>
        dsimp only [WriteCall.move]
        split
        · exact WriteCall.Sound.goto haccounted.1 haccounted.2 trivial ⟨by simp, by simp⟩
        · exact WriteCall.Sound.goto haccounted.1 haccounted.2 hphase ⟨by simp, by simp⟩
      | _ => exact hstay
  | selecting notify cases =>
    cases choice with
    | park =>
      dsimp only [WriteCall.move]
      split
      · next hpark => exact WriteCall.Sound.goto haccounted.1 haccounted.2 ⟨hphase, hpark.2⟩ ⟨by simp, by simp⟩
      · exact hstay
    | route route =>
      dsimp only [WriteCall.move]
      split
      · exact WriteCall.Sound.send haccounted.1 haccounted.2 route
      · exact hstay
    | transportUpdate =>
      dsimp only [WriteCall.move]
      split
      · exact WriteCall.Sound.goto haccounted.1 haccounted.2 trivial ⟨by simp, by simp⟩
      · exact hstay
    | done => exact ⟨trivial, haccounted.1, congrArg (· + 1) haccounted.2⟩
    | _ => exact hstay
  | parked notify cases =>
    cases choice with
    | route route =>
      dsimp only [WriteCall.move]
      split
      · exact WriteCall.Sound.send haccounted.1 haccounted.2 route
      · exact hstay
    | transportUpdate =>
      dsimp only [WriteCall.move]
      split
      · exact WriteCall.Sound.goto haccounted.1 haccounted.2 trivial ⟨by simp, by simp⟩
      · exact hstay
    | done => exact ⟨trivial, haccounted.1, congrArg (· + 1) haccounted.2⟩
    | _ => exact hstay
  | placed route =>
    cases choice with
    | finish => exact ⟨trivial, ⟨route, haccounted.1⟩, haccounted.2⟩
    | _ => exact hstay
  | returned success => cases choice <;> exact hstay
  | panicked => cases choice <;> exact hstay

def ReadPhase.Sound (s : MultiRouteSelector τ ρ) (closed : List ρ) : ReadPhase ρ → Prop
  | .listing notify => notify ≤ s.updates
  | .trying notify cases _ _ => Informed s closed false notify cases
  | .deactivating route next => route ∈ closed ∧ next.Sound s closed
  | .selecting notify cases => Informed s closed false notify cases
  | .parked notify cases => Informed s closed false notify cases
  | _ => True

lemma ReadPhase.Sound.advances {phase : ReadPhase ρ} (h : phase.Sound s closed) (ha : Advances s closed s' closed') :
    phase.Sound s' closed' := by
  induction phase with
  | listing notify => exact le_trans h ha.updates
  | trying notify cases rest retry => exact Informed.advances h ha
  | deactivating route next ih => exact ⟨ha.closed route h.1, ih h.2⟩
  | selecting notify cases => exact Informed.advances h ha
  | parked notify cases => exact Informed.advances h ha
  | enter | found _ | returned => trivial

lemma ReadPhase.Sound.move {phase : ReadPhase ρ} (h : phase.Sound s closed) (choice : Choice ρ) :
    (phase.move s closed choice).1.Sound s closed ∧
      ∀ route, (phase.move s closed choice).2 = some route → route ∈ closed := by
  have hstay : phase.Sound s closed ∧ ∀ route, none = some route → route ∈ closed := ⟨h, by simp⟩
  cases phase with
  | enter =>
    cases choice with
    | capture => exact ⟨le_rfl, by simp [ReadPhase.move]⟩
    | _ => exact hstay
  | listing notify =>
    cases choice with
    | list shuffled =>
      refine ⟨?_, by simp [ReadPhase.move]⟩
      dsimp only [ReadPhase.move]
      split
      · next hperm => exact ⟨h, fun _ => (snapshot_of_perm hperm).offers⟩
      · exact h
    | _ => exact hstay
  | trying notify cases rest retry =>
    cases rest with
    | nil =>
      cases choice with
      | notReady =>
        refine ⟨?_, by simp [ReadPhase.move]⟩
        cases retry with
        | true => trivial
        | false => exact h
      | _ => exact hstay
    | cons route rest =>
      cases choice with
      | ready => exact ⟨trivial, by simp [ReadPhase.move]⟩
      | notReady => exact ⟨h, by simp [ReadPhase.move]⟩
      | closed _ =>
        refine ⟨?_, by simp [ReadPhase.move]⟩
        dsimp only [ReadPhase.move]
        split
        · next hclosed => exact ⟨hclosed, h⟩
        · exact h
      | _ => exact hstay
  | deactivating route next =>
    cases choice with
    | finish =>
      refine ⟨h.2, fun r hr => ?_⟩
      obtain rfl := Option.some.inj hr
      exact h.1
    | _ => exact hstay
  | selecting notify cases =>
    cases choice with
    | park =>
      refine ⟨?_, by simp [ReadPhase.move]⟩
      dsimp only [ReadPhase.move]
      split <;> exact h
    | route route =>
      refine ⟨?_, by simp [ReadPhase.move]⟩
      dsimp only [ReadPhase.move]
      split
      · trivial
      · exact h
    | closed route =>
      refine ⟨?_, by simp [ReadPhase.move]⟩
      dsimp only [ReadPhase.move]
      split
      · next hclosed => exact ⟨hclosed.2, trivial⟩
      · exact h
    | transportUpdate =>
      refine ⟨?_, by simp [ReadPhase.move]⟩
      dsimp only [ReadPhase.move]
      split
      · trivial
      · exact h
    | done => exact ⟨trivial, by simp [ReadPhase.move]⟩
    | _ => exact hstay
  | parked notify cases =>
    cases choice with
    | route route =>
      refine ⟨?_, by simp [ReadPhase.move]⟩
      dsimp only [ReadPhase.move]
      split
      · trivial
      · exact h
    | closed route =>
      refine ⟨?_, by simp [ReadPhase.move]⟩
      dsimp only [ReadPhase.move]
      split
      · next hclosed => exact ⟨hclosed.2, trivial⟩
      · exact h
    | transportUpdate =>
      refine ⟨?_, by simp [ReadPhase.move]⟩
      dsimp only [ReadPhase.move]
      split
      · trivial
      · exact h
    | done => exact ⟨trivial, by simp [ReadPhase.move]⟩
    | _ => exact hstay
  | found route =>
    cases choice with
    | finish => exact ⟨trivial, by simp [ReadPhase.move]⟩
    | _ => exact hstay
  | returned => cases choice <;> exact hstay

structure Waiting.Sound (w : Waiting τ ρ) : Prop where
  writes : ∀ c ∈ w.writes, c.Sound w.selector w.closed
  reads : ∀ phase ∈ w.reads, phase.Sound w.selector w.closed

variable [DecidableEq τ] {w : Waiting τ ρ}

lemma Waiting.Sound.read (h : w.Sound) (i : ℕ) (choice : Choice ρ) : (w.step (.read i choice)).Sound := by
  rw [Waiting.step]
  cases hi : w.reads[i]? with
  | none => exact h
  | some phase =>
    obtain ⟨hphase, hclosed⟩ := (h.reads phase (List.mem_of_getElem? hi)).move choice
    dsimp only
    cases hmove : phase.move w.selector w.closed choice with
    | mk next inactive =>
      rw [hmove] at hphase hclosed
      cases inactive with
      | none =>
        refine ⟨h.writes, fun p hp => ?_⟩
        rcases List.mem_or_eq_of_mem_set hp with hp | rfl
        · exact h.reads p hp
        · exact hphase
      | some route =>
        have ha : Advances w.selector w.closed (w.selector.setActive route false) w.closed :=
          advances_setActive (hclosed route rfl)
        refine ⟨fun c hc => (h.writes c hc).advances ha, fun p hp => ?_⟩
        rcases List.mem_or_eq_of_mem_set hp with hp | rfl
        · exact (h.reads p hp).advances ha
        · exact hphase.advances ha

lemma Waiting.Sound.step (h : w.Sound) (e : WaitEvent τ ρ) : (w.step e).Sound := by
  cases e with
  | updateTransportWithProperties transport routes properties =>
    have ha := advances_update w.selector w.closed transport routes properties
    exact ⟨fun c hc => (h.writes c hc).advances ha, fun p hp => (h.reads p hp).advances ha⟩
  | close route =>
    refine ⟨fun c hc => ?_, fun p hp => (h.reads p hp).advances (advances_close _ _ route)⟩
    obtain ⟨old, hold, rfl⟩ := List.mem_map.mp hc
    exact (h.writes old hold).closeRoute route
  | startWrite reliableOnly =>
    refine ⟨fun c hc => ?_, h.reads⟩
    rcases List.mem_append.mp hc with hc | hc
    · exact h.writes c hc
    · rw [List.mem_singleton.mp hc]
      exact ⟨trivial, rfl, rfl⟩
  | startRead =>
    refine ⟨h.writes, fun p hp => ?_⟩
    rcases List.mem_append.mp hp with hp | hp
    · exact h.reads p hp
    · rw [List.mem_singleton.mp hp]
      trivial
  | write i choice =>
    refine ⟨fun c hc => ?_, h.reads⟩
    obtain ⟨j, hj⟩ := List.getElem?_of_mem hc
    dsimp only [Waiting.step] at hj
    rw [List.getElem?_modify, Option.map_eq_map, Option.map_eq_some_iff] at hj
    obtain ⟨old, hold, rfl⟩ := hj
    have hsound := h.writes old (List.mem_of_getElem? hold)
    split
    · exact hsound.move choice
    · exact hsound
  | read i choice => exact h.read i choice

lemma waiting_sound (es : List (WaitEvent τ ρ)) : (Runs.run Waiting.step Waiting.new es).Sound :=
  Runs.run_invariant (I := Waiting.Sound) (fun _ e h => h.step e) ⟨by simp [Waiting.new], by simp [Waiting.new]⟩ es

theorem waiting_calls_miss_no_route (es : List (WaitEvent τ ρ)) :
    let w := Runs.run Waiting.step (Waiting.new : Waiting τ ρ) es
    (∀ (i : ℕ) c notify cases, w.writes[i]? = some c → c.phase = .parked notify cases → notify = w.selector.updates →
      (c.reliableOnly = false → ∀ r ∈ w.selector.activeRoutes, r ∈ cases) ∧
      (∀ r ∈ w.selector.activeRoutes, w.selector.unreliableForRoute r = false → r ∈ cases) ∧
      ((∀ r ∈ w.selector.activeRoutes, w.selector.unreliableForRoute r = true) →
        ∀ r ∈ w.selector.activeRoutes, r ∈ cases)) ∧
    (∀ (i : ℕ) notify cases, w.reads[i]? = some (.parked notify cases) → notify = w.selector.updates →
      ∀ r ∈ w.selector.activeRoutes, r ∈ cases) ∧
    ∀ (i : ℕ) c success, w.writes[i]? = some c → c.phase = .returned success →
      (success = true ∧ (∃ route, c.placements = [route]) ∧ c.poolReturns = 0) ∨
        (success = false ∧ c.placements = [] ∧ c.poolReturns = 1) := by
  intro w
  have h : w.Sound := waiting_sound es
  refine ⟨fun i c notify cases hc hphase hn => ?_, fun i notify cases hp hn => ?_, fun i c success hc hphase => ?_⟩
  · have hsound := (h.writes c (List.mem_of_getElem? hc)).phase
    rw [hphase] at hsound
    have hoffers := hsound.1.2 hn
    refine ⟨hoffers.any, hoffers.reliable, fun hnone => ?_⟩
    rcases hoffers.fallback with ⟨r, hr, hreliable, hlive⟩ | hall
    · -- A reliable case of a write that waits is not closed, so that it is active.
      have hactive := hlive.resolve_right (hsound.2 r hr)
      exact absurd (hreliable.symm.trans (hnone r hactive)) (by simp)
    · exact hall
  · exact ((h.reads _ (List.mem_of_getElem? hp)).2 hn).any rfl
  · have haccounted := (h.writes c (List.mem_of_getElem? hc)).accounted
    rw [WriteCall.Accounted, hphase] at haccounted
    cases success with
    | true => exact .inl ⟨rfl, haccounted⟩
    | false => exact .inr ⟨rfl, haccounted⟩

end Invariant

end UrConnect.Transfer.Route
