import UrConnect.Transfer.RouteAttribution
import UrConnect.Transfer.RouteMatch

/-! What a selector keeps of each route, and for how long. -/

namespace UrConnect.Transfer.Route

open UrConnect.Lib

variable {τ ρ ω : Type}

structure RouteStats where
  sendCount : ℤ
  sendByteCount : ℤ
  receiveCount : ℤ
  receiveByteCount : ℤ
deriving DecidableEq

namespace RouteStats

def new : RouteStats := ⟨0, 0, 0, 0⟩

def add (a b : RouteStats) : RouteStats :=
  ⟨a.sendCount + b.sendCount, a.sendByteCount + b.sendByteCount, a.receiveCount + b.receiveCount,
    a.receiveByteCount + b.receiveByteCount⟩

end RouteStats

structure Weighing (τ ω : Type) where
  order : Visit (Transport τ)
  canEvalRouteWeight : Transport τ → RouteStats → List (Transport τ × RouteStats) → Bool
  routeWeight : Transport τ → RouteStats → List (Transport τ × RouteStats) → ω

structure CountingSelector (τ ρ ω : Type) where
  weightedRoutes : Bool
  selector : MultiRouteSelector τ ρ
  routeStats : Table ρ RouteStats
  routeWeight : Table ρ ω

inductive BookEvent (τ ρ ω : Type)
  | updateTransportWithProperties (transport : Transport τ) (routes : List ρ) (properties : TransferCarrierProperties)
      (weighing : Weighing τ ω)
  | setActive (route : ρ) (active : Bool)
  | updateSendStats (route : ρ) (sendCount sendByteCount : ℤ)
  | updateReceiveStats (route : ρ) (receiveCount receiveByteCount : ℤ)

namespace CountingSelector

def new (weightedRoutes : Bool) : CountingSelector τ ρ ω := ⟨weightedRoutes, .new, ∅, ∅⟩

variable [DecidableEq τ] [DecidableEq ρ] [One ω] [Mul ω] [Sub ω]

def listedRoutes (s : CountingSelector τ ρ ω) : List ρ := s.selector.transportRoutes.entries.flatMap Sigma.snd

def transportStats (s : CountingSelector τ ρ ω) (transport : Transport τ) : RouteStats :=
  (s.selector.currentRoutes transport).foldl (fun netStats route => netStats.add ((s.routeStats.lookup route).getD .new))
    .new

def remainingStats (s : CountingSelector τ ρ ω) (rest : List (Transport τ)) : List (Transport τ × RouteStats) :=
  rest.map fun transport => (transport, s.transportStats transport)

def allCanEval (s : CountingSelector τ ρ ω) (weighing : Weighing τ ω) : List (Transport τ) → Bool
  | [] => true
  | transport :: rest =>
    weighing.canEvalRouteWeight transport (s.transportStats transport) (s.remainingStats rest) &&
      s.allCanEval weighing rest

def weigh (s : CountingSelector τ ρ ω) (weighing : Weighing τ ω) (allWeight : ω) (updated : Table ρ ω) :
    List (Transport τ) → Table ρ ω
  | [] => updated
  | transport :: rest =>
    let weight := weighing.routeWeight transport (s.transportStats transport) (s.remainingStats rest)
    s.weigh weighing (allWeight * (1 - weight))
      ((s.selector.currentRoutes transport).foldl (fun m route => m.insert route (allWeight * weight)) updated) rest

def updateRouteWeights (s : CountingSelector τ ρ ω) (weighing : Weighing τ ω) : CountingSelector τ ρ ω :=
  let orderedTransports := weighing.order.visit s.selector.transportRoutes.keys
  if s.allCanEval weighing orderedTransports then
    { s with
      routeWeight := s.weigh weighing 1 ∅ orderedTransports
      routeStats := s.listedRoutes.foldl (fun m route => m.insert route .new) ∅ }
  else s

def withdrawn (s : CountingSelector τ ρ ω) (transport : Transport τ) (routes : List ρ) : List ρ :=
  (s.selector.currentRoutes transport).filter fun route => route ∉ routes

def updateTransportWithProperties (s : CountingSelector τ ρ ω) (transport : Transport τ) (routes : List ρ)
    (properties : TransferCarrierProperties) (weighing : Weighing τ ω) : CountingSelector τ ρ ω :=
  if routes = [] ∧ s.selector.transportRoutes.lookup transport = none then s
  else
    let updated := { s with
      selector := s.selector.updateTransportWithProperties transport routes properties
      routeStats := (s.withdrawn transport routes).foldl (fun m route => m.erase route) s.routeStats
      routeWeight := (s.withdrawn transport routes).foldl (fun m route => m.erase route) s.routeWeight }
    if s.weightedRoutes then updated.updateRouteWeights weighing else updated

def setActive (s : CountingSelector τ ρ ω) (route : ρ) (active : Bool) : CountingSelector τ ρ ω :=
  { s with selector := s.selector.setActive route active }

def updateStats (s : CountingSelector τ ρ ω) (route : ρ) (count : RouteStats) : CountingSelector τ ρ ω :=
  { s with routeStats := s.routeStats.insert route (((s.routeStats.lookup route).getD .new).add count) }

def updateSendStats (s : CountingSelector τ ρ ω) (route : ρ) (sendCount sendByteCount : ℤ) :
    CountingSelector τ ρ ω := s.updateStats route ⟨sendCount, sendByteCount, 0, 0⟩

def updateReceiveStats (s : CountingSelector τ ρ ω) (route : ρ) (receiveCount receiveByteCount : ℤ) :
    CountingSelector τ ρ ω := s.updateStats route ⟨0, 0, receiveCount, receiveByteCount⟩

def step (s : CountingSelector τ ρ ω) : BookEvent τ ρ ω → CountingSelector τ ρ ω
  | .updateTransportWithProperties transport routes properties weighing =>
    s.updateTransportWithProperties transport routes properties weighing
  | .setActive route active => s.setActive route active
  | .updateSendStats route sendCount sendByteCount => s.updateSendStats route sendCount sendByteCount
  | .updateReceiveStats route receiveCount receiveByteCount =>
    s.updateReceiveStats route receiveCount receiveByteCount

def Owned (owner : ρ → Transport τ) : BookEvent τ ρ ω → Prop
  | .updateTransportWithProperties transport routes _ _ => ∀ route ∈ routes, owner route = transport
  | _ => True

def Timely (s : CountingSelector τ ρ ω) : BookEvent τ ρ ω → Prop
  | .updateSendStats route _ _ => route ∈ s.listedRoutes
  | .updateReceiveStats route _ _ => route ∈ s.listedRoutes
  | _ => True

def Covers {α : Type} (m : Table ρ α) (r : ρ) : Prop := (m.lookup r).isSome = true

structure Booked (owner : ρ → Transport τ) (s : CountingSelector τ ρ ω) : Prop where
  owned : ∀ t routes, s.selector.transportRoutes.lookup t = some routes → ∀ r ∈ routes, owner r = t
  active : ∀ r, Covers s.selector.routeActive r ↔ r ∈ s.listedRoutes
  carrier : ∀ r, Covers s.selector.routeCarrierProperties r ↔ r ∈ s.listedRoutes
  types : ∀ r, Covers s.selector.routeTransportTypes r ↔ r ∈ s.listedRoutes
  weight : ∀ r, Covers s.routeWeight r → r ∈ s.listedRoutes

variable {s : CountingSelector τ ρ ω} {owner : ρ → Transport τ} {transport t : Transport τ} {routes : List ρ}
  {properties : TransferCarrierProperties} {weighing : Weighing τ ω} {r : ρ}

omit [DecidableEq ρ] [One ω] [Mul ω] [Sub ω] in
lemma mem_listedRoutes : r ∈ s.listedRoutes ↔
    ∃ t routes, s.selector.transportRoutes.lookup t = some routes ∧ r ∈ routes := by
  rw [listedRoutes, List.mem_flatMap]
  constructor
  · rintro ⟨e, he, hr⟩
    exact ⟨e.1, e.2, AList.mem_lookup_iff.mpr he, hr⟩
  · rintro ⟨t, routes, ht, hr⟩
    exact ⟨⟨t, routes⟩, AList.mem_lookup_iff.mp ht, hr⟩

lemma covers_eraseAll {α : Type} (m : Table ρ α) (gone : List ρ) (r : ρ) :
    Covers (gone.foldl (fun m route => m.erase route) m) r ↔ r ∉ gone ∧ Covers m r := by
  rw [Covers, Table.lookup_eraseAll]
  by_cases hr : r ∈ gone <;> simp [hr, Covers]

lemma covers_insertAll {α : Type} (m : Table ρ α) (g : ρ → α) (routes : List ρ) (r : ρ) :
    Covers (routes.foldl (fun m route => m.insert route (g route)) m) r ↔ r ∈ routes ∨ Covers m r := by
  rw [Covers, Table.lookup_insertAll]
  by_cases hr : r ∈ routes <;> simp [hr, Covers]

omit [One ω] [Mul ω] [Sub ω] in
lemma mem_withdrawn : r ∈ s.withdrawn transport routes ↔ r ∈ s.selector.currentRoutes transport ∧ r ∉ routes := by
  simp [withdrawn]

def Updated (s : MultiRouteSelector τ ρ) (transport : Transport τ) (routes : List ρ) (before after : ρ → Prop) : Prop :=
  ∀ r, after r ↔ r ∈ routes ∨ (r ∉ s.currentRoutes transport ∧ before r)

lemma updated_maps (s : MultiRouteSelector τ ρ) (routes : List ρ) (properties : TransferCarrierProperties)
    (hactive : ∀ r ∈ s.currentRoutes transport, Covers s.routeActive r) :
    let s' := s.updateTransportWithProperties transport routes properties
    Updated s transport routes (Covers s.routeActive) (Covers s'.routeActive) ∧
    Updated s transport routes (Covers s.routeCarrierProperties) (Covers s'.routeCarrierProperties) ∧
    Updated s transport routes (Covers s.routeTransportTypes) (Covers s'.routeTransportTypes) := by
  dsimp only
  rw [MultiRouteSelector.updateTransportWithProperties]
  by_cases hroutes : routes = []
  · rw [if_pos hroutes]
    subst hroutes
    cases hcurrent : s.transportRoutes.lookup transport with
    | none =>
      have hnone : s.currentRoutes transport = [] := by rw [MultiRouteSelector.currentRoutes, hcurrent]; rfl
      refine ⟨fun r => ?_, fun r => ?_, fun r => ?_⟩ <;> simp [hnone]
    | some current =>
      have hsome : s.currentRoutes transport = current := by rw [MultiRouteSelector.currentRoutes, hcurrent]; rfl
      refine ⟨fun r => ?_, fun r => ?_, fun r => ?_⟩ <;>
        simp only [hsome, MultiRouteSelector.delete, covers_eraseAll, List.not_mem_nil, false_or]
  · rw [if_neg hroutes, MultiRouteSelector.register]
    have hgone : ∀ r, r ∉ (s.currentRoutes transport).filter (fun route => decide (route ∉ routes)) ↔
        r ∈ routes ∨ r ∉ s.currentRoutes transport := by
      intro r
      by_cases hr : r ∈ routes <;> simp [hr]
    refine ⟨fun r => ?_, fun r => ?_, fun r => ?_⟩
    · dsimp only
      rw [covers_insertAll _ (fun _ => true), MultiRouteSelector.delete, covers_eraseAll, hgone, List.mem_filter]
      by_cases hr : r ∈ routes
      · by_cases hcurrent : r ∈ s.currentRoutes transport
        · simp [hr, hcurrent, hactive r hcurrent]
        · simp [hr, hcurrent]
      · simp [hr]
    · dsimp only
      rw [covers_insertAll _ (fun _ => properties), MultiRouteSelector.delete, covers_eraseAll, hgone]
      by_cases hr : r ∈ routes <;> simp [hr]
    · dsimp only
      rw [covers_insertAll _ (fun _ => transport.transportType.getD .unknown), MultiRouteSelector.delete,
        covers_eraseAll, hgone]
      by_cases hr : r ∈ routes <;> simp [hr]

omit [One ω] [Mul ω] [Sub ω] in
lemma updated_listed (howned : ∀ t routes, s.selector.transportRoutes.lookup t = some routes → ∀ r ∈ routes, owner r = t)
    {s' : CountingSelector τ ρ ω}
    (hs' : s'.selector = s.selector.updateTransportWithProperties transport routes properties) :
    Updated s.selector transport routes (· ∈ s.listedRoutes) (· ∈ s'.listedRoutes) := by
  intro r
  dsimp only
  rw [mem_listedRoutes, mem_listedRoutes, MultiRouteSelector.mem_currentRoutes]
  simp only [hs', MultiRouteSelector.lookup_update]
  constructor
  · rintro ⟨t, listed, ht, hr⟩
    by_cases htransport : t = transport
    · rw [if_pos htransport] at ht
      split at ht
      · exact absurd ht (by simp)
      · rw [← Option.some.inj ht] at hr
        exact .inl hr
    · rw [if_neg htransport] at ht
      refine .inr ⟨?_, t, listed, ht, hr⟩
      rintro ⟨current, hcurrent, hmem⟩
      exact htransport ((howned t listed ht r hr).symm.trans (howned transport current hcurrent r hmem))
  · rintro (hr | ⟨hcurrent, t, listed, ht, hr⟩)
    · exact ⟨transport, routes, by rw [if_pos rfl, if_neg (List.ne_nil_of_mem hr)], hr⟩
    · refine ⟨t, listed, ?_, hr⟩
      have htransport : t ≠ transport := by
        rintro rfl
        exact hcurrent ⟨listed, ht, hr⟩
      rw [if_neg htransport, ht]

lemma covers_weigh (s : CountingSelector τ ρ ω) (weighing : Weighing τ ω) {ts : List (Transport τ)}
    {allWeight : ω} {updated : Table ρ ω} (hupdated : ∀ r, Covers updated r → r ∈ s.listedRoutes)
    (hr : Covers (s.weigh weighing allWeight updated ts) r) : r ∈ s.listedRoutes := by
  induction ts generalizing allWeight updated with
  | nil => exact hupdated r hr
  | cons t ts ih =>
    refine ih (fun r hr => ?_) hr
    rw [covers_insertAll _ (fun _ => _)] at hr
    rcases hr with hr | hr
    · rw [mem_listedRoutes]
      obtain ⟨routes, ht, hmem⟩ := MultiRouteSelector.mem_currentRoutes.mp hr
      exact ⟨t, routes, ht, hmem⟩
    · exact hupdated r hr

lemma updateRouteWeights_selector (s : CountingSelector τ ρ ω) (weighing : Weighing τ ω) :
    (s.updateRouteWeights weighing).selector = s.selector := by
  rw [updateRouteWeights]
  split <;> rfl

lemma covers_updateRouteWeights (s : CountingSelector τ ρ ω) (weighing : Weighing τ ω) :
    ((∀ r, Covers s.routeWeight r → r ∈ s.listedRoutes) →
      ∀ r, Covers (s.updateRouteWeights weighing).routeWeight r → r ∈ s.listedRoutes) ∧
    ((∀ r, Covers s.routeStats r → r ∈ s.listedRoutes) →
      ∀ r, Covers (s.updateRouteWeights weighing).routeStats r → r ∈ s.listedRoutes) := by
  have hempty : ∀ {α : Type} (r : ρ), ¬ Covers (∅ : Table ρ α) r := by
    intro α r h
    exact absurd h (by simp [Covers])
  rw [updateRouteWeights]
  split
  · refine ⟨fun _ r hr => covers_weigh s weighing (fun r hr => absurd hr (hempty r)) hr, fun _ r hr => ?_⟩
    rw [covers_insertAll _ (fun _ => RouteStats.new)] at hr
    exact hr.resolve_right (hempty r)
  · exact ⟨id, id⟩

omit [One ω] [Mul ω] [Sub ω] in
lemma covers_withdrawn {α : Type} {m : Table ρ α} {s' : CountingSelector τ ρ ω}
    (hupdated : Updated s.selector transport routes (· ∈ s.listedRoutes) (· ∈ s'.listedRoutes))
    (hm : ∀ r, Covers m r → r ∈ s.listedRoutes)
    (hr : Covers ((s.withdrawn transport routes).foldl (fun m route => m.erase route) m) r) : r ∈ s'.listedRoutes := by
  rw [covers_eraseAll, mem_withdrawn, not_and, not_not] at hr
  apply (hupdated r).mpr
  by_cases hcurrent : r ∈ s.selector.currentRoutes transport
  · exact .inl (hr.1 hcurrent)
  · exact .inr ⟨hcurrent, hm r hr.2⟩

lemma Booked.update (h : Booked owner s) (properties : TransferCarrierProperties) (weighing : Weighing τ ω)
    (howned : ∀ route ∈ routes, owner route = transport) :
    let s' := s.updateTransportWithProperties transport routes properties weighing
    Booked owner s' ∧ ((∀ r, Covers s.routeStats r → r ∈ s.listedRoutes) →
      ∀ r, Covers s'.routeStats r → r ∈ s'.listedRoutes) := by
  dsimp only
  rw [updateTransportWithProperties]
  split
  · exact ⟨h, id⟩
  generalize hu : ({ s with
      selector := s.selector.updateTransportWithProperties transport routes properties
      routeStats := (s.withdrawn transport routes).foldl (fun m route => m.erase route) s.routeStats
      routeWeight := (s.withdrawn transport routes).foldl (fun m route => m.erase route) s.routeWeight } :
    CountingSelector τ ρ ω) = u
  have huselector : u.selector = s.selector.updateTransportWithProperties transport routes properties := by rw [← hu]
  have hlisted := updated_listed h.owned huselector
  have hcurrent : ∀ r ∈ s.selector.currentRoutes transport, Covers s.selector.routeActive r := by
    intro r hr
    obtain ⟨current, ht, hmem⟩ := MultiRouteSelector.mem_currentRoutes.mp hr
    exact (h.active r).mpr (mem_listedRoutes.mpr ⟨transport, current, ht, hmem⟩)
  obtain ⟨hactive, hcarrier, htypes⟩ := updated_maps s.selector routes properties hcurrent
  have hiff : ∀ {before after : ρ → Prop}, Updated s.selector transport routes before after →
      (∀ r, before r ↔ r ∈ s.listedRoutes) → ∀ r, after r ↔ r ∈ u.listedRoutes := by
    intro before after hafter hbefore r
    rw [hafter r, hbefore r]
    exact (hlisted r).symm
  have hbooked : Booked owner u := by
    refine ⟨fun t listed ht r hr => ?_, ?_, ?_, ?_, fun r hr => ?_⟩
    · rw [huselector, MultiRouteSelector.lookup_update] at ht
      split at ht
      · next htransport =>
        split at ht
        · exact absurd ht (by simp)
        · rw [← Option.some.inj ht] at hr
          rw [htransport]
          exact howned r hr
      · exact h.owned t listed ht r hr
    · rw [huselector]
      exact hiff hactive h.active
    · rw [huselector]
      exact hiff hcarrier h.carrier
    · rw [huselector]
      exact hiff htypes h.types
    · rw [← hu] at hr
      exact covers_withdrawn hlisted h.weight hr
  have hstats : (∀ r, Covers s.routeStats r → r ∈ s.listedRoutes) → ∀ r, Covers u.routeStats r → r ∈ u.listedRoutes := by
    intro hs r hr
    rw [← hu] at hr
    exact covers_withdrawn hlisted hs hr
  split
  · have hselector := updateRouteWeights_selector u weighing
    have hsame : (u.updateRouteWeights weighing).listedRoutes = u.listedRoutes := by
      rw [listedRoutes, hselector, listedRoutes]
    obtain ⟨hweight, hcounts⟩ := covers_updateRouteWeights u weighing
    refine ⟨⟨?_, ?_, ?_, ?_, ?_⟩, fun hs => ?_⟩
    · rw [hselector]
      exact hbooked.owned
    · rw [hselector, hsame]
      exact hbooked.active
    · rw [hselector, hsame]
      exact hbooked.carrier
    · rw [hselector, hsame]
      exact hbooked.types
    · rw [hsame]
      exact hweight hbooked.weight
    · rw [hsame]
      exact hcounts (hstats hs)
  · exact ⟨hbooked, hstats⟩

omit [One ω] [Mul ω] [Sub ω] in
lemma Booked.setActive (h : Booked owner s) (route : ρ) (active : Bool) : Booked owner (s.setActive route active) := by
  refine ⟨h.owned, fun r => ?_, h.carrier, h.types, h.weight⟩
  refine Iff.trans ?_ (h.active r)
  rw [Covers, Covers, CountingSelector.setActive, MultiRouteSelector.setActive]
  by_cases hr : r = route
  · subst hr
    rw [Table.lookup_modify_self, Option.isSome_map]
  · rw [Table.lookup_modify_ne _ hr]

omit [DecidableEq τ] [One ω] [Mul ω] [Sub ω] in
lemma covers_updateStats {route : ρ} {count : RouteStats} (hroute : route ∈ s.listedRoutes)
    (hs : ∀ r, Covers s.routeStats r → r ∈ s.listedRoutes) :
    ∀ r, Covers (s.updateStats route count).routeStats r → r ∈ s.listedRoutes := by
  intro r hr
  rw [Covers, updateStats, Table.lookup_insert_eq] at hr
  split at hr
  · next h =>
    rw [h]
    exact hroute
  · exact hs r hr

omit [One ω] [Mul ω] [Sub ω] in
lemma booked_new (owner : ρ → Transport τ) (weightedRoutes : Bool) :
    Booked owner (new weightedRoutes : CountingSelector τ ρ ω) where
  owned := by simp [new, MultiRouteSelector.new]
  active := by simp [new, MultiRouteSelector.new, Covers, listedRoutes]
  carrier := by simp [new, MultiRouteSelector.new, Covers, listedRoutes]
  types := by simp [new, MultiRouteSelector.new, Covers, listedRoutes]
  weight := by simp [new, Covers]

lemma Booked.step (h : Booked owner s) {e : BookEvent τ ρ ω} (howned : Owned owner e) :
    Booked owner (s.step e) ∧ (Timely s e → (∀ r, Covers s.routeStats r → r ∈ s.listedRoutes) →
      ∀ r, Covers (s.step e).routeStats r → r ∈ (s.step e).listedRoutes) := by
  cases e with
  | updateTransportWithProperties transport routes properties weighing =>
    obtain ⟨hbooked, hstats⟩ := h.update properties weighing howned
    exact ⟨hbooked, fun _ => hstats⟩
  | setActive route active => exact ⟨h.setActive route active, fun _ hs => hs⟩
  | updateSendStats route sendCount sendByteCount =>
    exact ⟨⟨h.owned, h.active, h.carrier, h.types, h.weight⟩, covers_updateStats⟩
  | updateReceiveStats route receiveCount receiveByteCount =>
    exact ⟨⟨h.owned, h.active, h.carrier, h.types, h.weight⟩, covers_updateStats⟩

lemma Booked.run (h : Booked owner s) {es : List (BookEvent τ ρ ω)} (howned : ∀ e ∈ es, Owned owner e) :
    Booked owner (Runs.run CountingSelector.step s es) ∧ (Runs.Meets Timely CountingSelector.step s es →
      (∀ r, Covers s.routeStats r → r ∈ s.listedRoutes) →
        ∀ r, Covers (Runs.run CountingSelector.step s es).routeStats r →
          r ∈ (Runs.run CountingSelector.step s es).listedRoutes) := by
  induction es generalizing s with
  | nil => exact ⟨h, fun _ hs => hs⟩
  | cons e es ih =>
    obtain ⟨hstep, hstats⟩ := h.step (howned e List.mem_cons_self)
    obtain ⟨hrun, hrest⟩ := ih hstep fun e he => howned e (List.mem_cons_of_mem _ he)
    exact ⟨hrun, fun hmeets hs => hrest hmeets.2 (hstats hmeets.1 hs)⟩

theorem bookkeeping_ends_with_its_route (owner : ρ → Transport τ) (weightedRoutes : Bool)
    (es : List (BookEvent τ ρ ω)) (howned : ∀ e ∈ es, Owned owner e)
    (htimely : Runs.Meets Timely step (new weightedRoutes) es) :
    let s := Runs.run step (new weightedRoutes : CountingSelector τ ρ ω) es
    (∀ r, Covers s.selector.routeActive r ↔ r ∈ s.listedRoutes) ∧
    (∀ r, Covers s.selector.routeCarrierProperties r ↔ r ∈ s.listedRoutes) ∧
    (∀ r, Covers s.selector.routeTransportTypes r ↔ r ∈ s.listedRoutes) ∧
    (∀ r, Covers s.routeWeight r → r ∈ s.listedRoutes) ∧
    (∀ r, Covers s.routeStats r → r ∈ s.listedRoutes) := by
  obtain ⟨h, hstats⟩ := (booked_new owner weightedRoutes).run howned
  refine ⟨h.active, h.carrier, h.types, h.weight, hstats htimely fun r hr => ?_⟩
  exact absurd hr (by simp [new, Covers])

def oneTransport : Transport ℕ := ⟨0, none⟩

def evenWeighing : Weighing ℕ ℤ := ⟨⟨id, fun _ => List.Perm.refl _⟩, fun _ _ _ => true, fun _ _ _ => 1⟩

def carriedRoute : List (BookEvent ℕ ℕ ℤ) :=
  [.updateTransportWithProperties oneTransport [7] ⟨false⟩ evenWeighing, .updateSendStats 7 1 100,
    .updateTransportWithProperties oneTransport [] ⟨false⟩ evenWeighing]

theorem bookkeeping_ends_for_a_carried_route :
    (Runs.run step (new true : CountingSelector ℕ ℕ ℤ) carriedRoute).listedRoutes = [] ∧
      ¬ Covers (Runs.run step (new true : CountingSelector ℕ ℕ ℤ) carriedRoute).routeStats 7 := by
  have howned : ∀ e ∈ carriedRoute, Owned (fun _ => oneTransport) e := by
    simp [carriedRoute, Owned]
  have hlisted : 7 ∈ (Runs.run step (new true : CountingSelector ℕ ℕ ℤ) (carriedRoute.take 1)).listedRoutes := by
    decide +kernel
  have htimely : Runs.Meets Timely step (new true : CountingSelector ℕ ℕ ℤ) carriedRoute :=
    ⟨trivial, hlisted, trivial, trivial⟩
  have hnone : (Runs.run step (new true : CountingSelector ℕ ℕ ℤ) carriedRoute).listedRoutes = [] := by
    decide +kernel
  have hends := (bookkeeping_ends_with_its_route _ true carriedRoute howned htimely).2.2.2.2
  refine ⟨hnone, fun hcovers => ?_⟩
  have h := hends 7 hcovers
  rw [hnone] at h
  exact absurd h List.not_mem_nil

def lateCount : List (BookEvent ℕ ℕ ℤ) :=
  [.updateTransportWithProperties oneTransport [7] ⟨false⟩ evenWeighing,
    .updateTransportWithProperties oneTransport [] ⟨false⟩ evenWeighing, .updateSendStats 7 1 100]

theorem late_count_outlives_its_route :
    let s := Runs.run step (new false : CountingSelector ℕ ℕ ℤ) lateCount
    s.listedRoutes = [] ∧ s.routeStats.lookup 7 = some ⟨1, 100, 0, 0⟩ := by
  decide +kernel

end CountingSelector

end UrConnect.Transfer.Route
