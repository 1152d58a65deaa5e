import Mathlib
import UrConnect.Lib.Runs
import UrConnect.Transfer.RouteSelector

/-! The selectors of a route manager, and the transports that it keeps matched to their destinations. -/

namespace UrConnect.Transfer.Route

open UrConnect.Lib

variable {δ τ ρ : Type}

structure Visit (α : Type) where
  visit : List α → List α
  perm : ∀ l, (visit l).Perm l

structure OpenedSelector (δ τ ρ : Type) where
  destination : δ
  selector : MultiRouteSelector τ ρ
  isOpen : Bool

/-- A selector is known by its place in `selectors`, as by its address; a closed one stays there. -/
structure MatchState (δ τ ρ : Type) where
  selectors : List (OpenedSelector δ τ ρ)
  transportRoutes : Table (Transport τ) (List ρ)
  transportProperties : Table (Transport τ) TransferCarrierProperties
  destinationMultiRouteSelectors : Table δ (List ℕ)
  transportMatchedDestinations : Table (Transport τ) (List δ)

inductive MatchEvent (δ τ ρ : Type)
  | openMultiRouteSelector (destination : δ) (visit : Visit (Transport τ))
  | closeMultiRouteSelector (selector : ℕ)
  | updateTransportWithProperties (transport : Transport τ) (routes : List ρ) (properties : TransferCarrierProperties)

namespace MatchState

def new : MatchState δ τ ρ := ⟨[], ∅, ∅, ∅, ∅⟩

variable [DecidableEq δ] [DecidableEq τ] [DecidableEq ρ]

abbrev Answers (δ τ : Type) := Transport τ → δ → Bool

def matchedDestinations (m : MatchState δ τ ρ) (transport : Transport τ) : List δ :=
  (m.transportMatchedDestinations.lookup transport).getD []

def routesOf (m : MatchState δ τ ρ) (transport : Transport τ) : List ρ :=
  (m.transportRoutes.lookup transport).getD []

def propertiesOf (m : MatchState δ τ ρ) (transport : Transport τ) : TransferCarrierProperties :=
  (m.transportProperties.lookup transport).getD ⟨false⟩

def matchTransport (m : MatchState δ τ ρ) (answers : Answers δ τ) (destination : δ)
    (r : MultiRouteSelector τ ρ × Table (Transport τ) (List δ)) (transport : Transport τ) :
    MultiRouteSelector τ ρ × Table (Transport τ) (List δ) :=
  let matchedDestinations := (r.2.lookup transport).getD []
  if answers transport destination then
    (r.1.updateTransportWithProperties transport (m.routesOf transport) (m.propertiesOf transport),
      r.2.insert transport (matchedDestinations.insert destination))
  else (r.1, r.2.insert transport matchedDestinations)

def openMultiRouteSelector (m : MatchState δ τ ρ) (answers : Answers δ τ) (destination : δ)
    (visit : Visit (Transport τ)) : MatchState δ τ ρ :=
  let r := (visit.visit m.transportRoutes.keys).foldl (m.matchTransport answers destination)
    (.new, m.transportMatchedDestinations)
  { m with
    selectors := m.selectors ++ [⟨destination, r.1, true⟩]
    destinationMultiRouteSelectors := m.destinationMultiRouteSelectors.insert destination
      (((m.destinationMultiRouteSelectors.lookup destination).getD []) ++ [m.selectors.length])
    transportMatchedDestinations := r.2 }

def withoutDestination (destination : δ) (destinations : List δ) : Option (List δ) :=
  let rest := destinations.filter (· ≠ destination)
  if rest.length = 0 then none else some rest

def closeMultiRouteSelector (m : MatchState δ τ ρ) (selector : ℕ) : MatchState δ τ ρ :=
  match m.selectors[selector]? with
  | none => m
  | some s =>
    let closed := { m with selectors := m.selectors.set selector { s with isOpen := false } }
    match m.destinationMultiRouteSelectors.lookup s.destination with
    | none => closed
    | some multiRouteSelectors =>
      let rest := multiRouteSelectors.filter (· ≠ selector)
      if rest.length = 0 then
        { closed with
          destinationMultiRouteSelectors := m.destinationMultiRouteSelectors.erase s.destination
          transportMatchedDestinations :=
            m.transportMatchedDestinations.sweep fun _ => withoutDestination s.destination }
      else
        { closed with
          destinationMultiRouteSelectors := m.destinationMultiRouteSelectors.insert s.destination rest }

def changeSelector (change : MultiRouteSelector τ ρ → MultiRouteSelector τ ρ) (s : OpenedSelector δ τ ρ) :
    OpenedSelector δ τ ρ := { s with selector := change s.selector }

def changeSelectors (change : δ → MultiRouteSelector τ ρ → MultiRouteSelector τ ρ)
    (selectors : List (OpenedSelector δ τ ρ)) (groups : List (δ × List ℕ)) : List (OpenedSelector δ τ ρ) :=
  groups.foldl
    (fun selectors group => group.2.foldl (fun l i => l.modify i (changeSelector (change group.1))) selectors) selectors

def changeFor (m : MatchState δ τ ρ) (answers : Answers δ τ) (transport : Transport τ) (routes : List ρ)
    (properties : TransferCarrierProperties) (destination : δ) (s : MultiRouteSelector τ ρ) :
    MultiRouteSelector τ ρ :=
  if answers transport destination then s.updateTransportWithProperties transport routes properties
  else if destination ∈ m.matchedDestinations transport then s.updateTransportWithProperties transport [] ⟨false⟩
  else s

def groups (m : MatchState δ τ ρ) : List (δ × List ℕ) :=
  m.destinationMultiRouteSelectors.entries.map fun e => (e.1, e.2)

def matchedGroups (m : MatchState δ τ ρ) (transport : Transport τ) : List (δ × List ℕ) :=
  (m.matchedDestinations transport).filterMap fun destination =>
    (m.destinationMultiRouteSelectors.lookup destination).map fun group => (destination, group)

def updateTransportWithProperties (m : MatchState δ τ ρ) (answers : Answers δ τ) (transport : Transport τ)
    (routes : List ρ) (properties : TransferCarrierProperties) : MatchState δ τ ρ :=
  if routes.length = 0 then
    { m with
      selectors := changeSelectors (fun _ s => s.updateTransportWithProperties transport [] ⟨false⟩) m.selectors
        (m.matchedGroups transport)
      transportMatchedDestinations := m.transportMatchedDestinations.erase transport
      transportRoutes := m.transportRoutes.erase transport
      transportProperties := m.transportProperties.erase transport }
  else
    { m with
      transportProperties := m.transportProperties.insert transport properties
      selectors := changeSelectors (m.changeFor answers transport routes properties) m.selectors m.groups
      transportMatchedDestinations := m.transportMatchedDestinations.insert transport
        (m.destinationMultiRouteSelectors.keys.filter fun destination => answers transport destination)
      transportRoutes := m.transportRoutes.insert transport routes }

def step (m : MatchState δ τ ρ) (answers : Answers δ τ) : MatchEvent δ τ ρ → MatchState δ τ ρ
  | .openMultiRouteSelector destination visit => m.openMultiRouteSelector answers destination visit
  | .closeMultiRouteSelector selector => m.closeMultiRouteSelector selector
  | .updateTransportWithProperties transport routes properties =>
    m.updateTransportWithProperties answers transport routes properties

end MatchState

def registered [DecidableEq τ] (transport : Transport τ) : List (MatchEvent δ τ ρ) → Option (List ρ) :=
  List.foldl (fun before e =>
    match e with
    | .updateTransportWithProperties t routes _ =>
      if t = transport then (if routes = [] then none else some routes) else before
    | _ => before) none

lemma MultiRouteSelector.lookup_update [DecidableEq τ] [DecidableEq ρ] (s : MultiRouteSelector τ ρ)
    (transport t : Transport τ) (routes : List ρ) (properties : TransferCarrierProperties) :
    (s.updateTransportWithProperties transport routes properties).transportRoutes.lookup t =
      if t = transport then (if routes = [] then none else some routes) else s.transportRoutes.lookup t := by
  rw [updateTransportWithProperties]
  by_cases hroutes : routes = []
  · rw [if_pos hroutes, if_pos hroutes]
    cases hcurrent : s.transportRoutes.lookup transport with
    | none =>
      by_cases ht : t = transport
      · rw [if_pos ht, ht]
        exact hcurrent
      · rw [if_neg ht]
    | some current => exact Table.lookup_erase_eq _ _ _
  · rw [if_neg hroutes, if_neg hroutes]
    exact Table.lookup_insert_eq _ _ _ _

namespace MatchState

variable [DecidableEq δ] [DecidableEq τ] [DecidableEq ρ] {m : MatchState δ τ ρ} {transport t : Transport τ}
  {destination d : δ} {routes : List ρ} {properties : TransferCarrierProperties} {answers : Answers δ τ} {i j : ℕ}
  {selectors : List (OpenedSelector δ τ ρ)}

def held (selectors : List (OpenedSelector δ τ ρ)) (i : ℕ) (t : Transport τ) : Option (List ρ) :=
  selectors[i]?.bind fun s => s.selector.transportRoutes.lookup t

def OpenTo (selectors : List (OpenedSelector δ τ ρ)) (i : ℕ) (d : δ) : Prop :=
  ∃ s, selectors[i]? = some s ∧ s.isOpen = true ∧ s.destination = d

omit [DecidableEq δ] [DecidableEq τ] [DecidableEq ρ] in
lemma OpenTo.unique {e : δ} (h : OpenTo selectors i d) (h' : OpenTo selectors i e) : d = e := by
  obtain ⟨s, hs, -, rfl⟩ := h
  obtain ⟨s', hs', -, rfl⟩ := h'
  rw [hs, Option.some.injEq] at hs'
  rw [hs']

section Change

variable {change : δ → MultiRouteSelector τ ρ → MultiRouteSelector τ ρ}

omit [DecidableEq δ] [DecidableEq τ] [DecidableEq ρ] in
lemma openTo_modify (f : MultiRouteSelector τ ρ → MultiRouteSelector τ ρ) :
    OpenTo (selectors.modify j (changeSelector f)) i d ↔ OpenTo selectors i d := by
  rw [OpenTo, OpenTo, List.getElem?_modify]
  cases selectors[i]? with
  | none => simp
  | some s => by_cases hij : j = i <;> simp [hij, changeSelector]

omit [DecidableEq δ] [DecidableEq ρ] in
lemma held_modify (f : MultiRouteSelector τ ρ → MultiRouteSelector τ ρ) : held (selectors.modify j (changeSelector f)) i t =
    if j = i then selectors[i]?.bind fun s => (f s.selector).transportRoutes.lookup t else held selectors i t := by
  rw [held, held, List.getElem?_modify]
  cases selectors[i]? with
  | none => simp
  | some s => by_cases hij : j = i <;> simp [hij, changeSelector]

def pairs (groups : List (δ × List ℕ)) : List (δ × ℕ) := groups.flatMap fun g => g.2.map fun i => (g.1, i)

omit [DecidableEq δ] [DecidableEq τ] [DecidableEq ρ] in
lemma changeSelectors_eq (groups : List (δ × List ℕ)) : changeSelectors change selectors groups =
    (pairs groups).foldl (fun l p => l.modify p.2 (changeSelector (change p.1))) selectors := by
  rw [changeSelectors, pairs, List.foldl_flatMap]
  simp only [List.foldl_map]

omit [DecidableEq δ] [DecidableEq τ] [DecidableEq ρ] in
lemma openTo_changeSelectors (groups : List (δ × List ℕ)) :
    OpenTo (changeSelectors change selectors groups) i d ↔ OpenTo selectors i d := by
  rw [changeSelectors_eq]
  induction pairs groups generalizing selectors with
  | nil => rfl
  | cons p ps ih => rw [List.foldl_cons, ih, openTo_modify]

omit [DecidableEq ρ] in
lemma held_changeSelectors (transport : Transport τ) (d : δ) (out : Option (Option (List ρ)))
    {groups : List (δ × List ℕ)}
    (hown : ∀ p ∈ pairs groups, p.2 = i → p.1 = d)
    (hchange : ∀ s t, (change d s).transportRoutes.lookup t =
      if t = transport then out.getD (s.transportRoutes.lookup t) else s.transportRoutes.lookup t)
    (hlt : i < selectors.length) :
    held (changeSelectors change selectors groups) i t =
      if t = transport ∧ (d, i) ∈ pairs groups then out.getD (held selectors i t) else held selectors i t := by
  rw [changeSelectors_eq]
  generalize pairs groups = ps at hown
  induction ps generalizing selectors with
  | nil => simp
  | cons p ps ih =>
    have hmod : held (selectors.modify p.2 (changeSelector (change p.1))) i t =
        if t = transport ∧ p = (d, i) then out.getD (held selectors i t) else held selectors i t := by
      rw [held_modify]
      by_cases hp : p.2 = i
      · have hpd := hown p List.mem_cons_self hp
        have hpair : p = (d, i) := Prod.ext hpd hp
        rw [if_pos hp, hpd, held, List.getElem?_eq_getElem hlt, Option.bind_some, Option.bind_some, hchange]
        simp only [hpair, and_true]
      · have hpair : p ≠ (d, i) := fun h => hp (by rw [h])
        simp only [if_neg hp, hpair, and_false, if_false]
    rw [List.foldl_cons, ih (by rwa [List.length_modify]) (fun q hq => hown q (List.mem_cons_of_mem _ hq)), hmod]
    by_cases ht : t = transport
    · cases out <;> by_cases hp : p = (d, i) <;> simp [ht, hp, eq_comm]
    · simp [ht]

end Change

structure Indexed (m : MatchState δ τ ρ) : Prop where
  grouped : ∀ d i, (∃ group, m.destinationMultiRouteSelectors.lookup d = some group ∧ i ∈ group) ↔
    OpenTo m.selectors i d
  held : ∀ i d t R, OpenTo m.selectors i d → held m.selectors i t = some R →
    m.transportRoutes.lookup t = some R ∧ d ∈ m.matchedDestinations t
  nonempty : ∀ t R, m.transportRoutes.lookup t = some R → R ≠ []

omit [DecidableEq δ] [DecidableEq τ] [DecidableEq ρ] in
lemma OpenTo.lt (h : OpenTo selectors i d) : i < selectors.length := by
  obtain ⟨s, hs, -⟩ := h
  exact (List.getElem?_eq_some_iff.mp hs).1

omit [DecidableEq τ] [DecidableEq ρ] in
lemma mem_pairs_groups : (d, i) ∈ pairs m.groups ↔
    ∃ group, m.destinationMultiRouteSelectors.lookup d = some group ∧ i ∈ group := by
  simp only [pairs, groups, List.mem_flatMap, List.mem_map, Prod.mk.injEq]
  constructor
  · rintro ⟨g, ⟨e, he, rfl⟩, j, hj, rfl, rfl⟩
    exact ⟨e.2, AList.mem_lookup_iff.mpr he, hj⟩
  · rintro ⟨group, hgroup, hi⟩
    exact ⟨(d, group), ⟨⟨d, group⟩, AList.mem_lookup_iff.mp hgroup, rfl⟩, i, hi, rfl, rfl⟩

omit [DecidableEq ρ] in
lemma mem_pairs_matchedGroups : (d, i) ∈ pairs (m.matchedGroups transport) ↔
    d ∈ m.matchedDestinations transport ∧
      ∃ group, m.destinationMultiRouteSelectors.lookup d = some group ∧ i ∈ group := by
  simp only [pairs, matchedGroups, List.mem_flatMap, List.mem_map, List.mem_filterMap, Prod.mk.injEq,
    Option.map_eq_some_iff]
  constructor
  · rintro ⟨g, ⟨e, he, group, hgroup, rfl⟩, j, hj, rfl, rfl⟩
    exact ⟨he, group, hgroup, hj⟩
  · rintro ⟨hd, group, hgroup, hi⟩
    exact ⟨(d, group), ⟨d, hd, group, hgroup, rfl⟩, i, hi, rfl, rfl⟩

lemma Indexed.held_update (h : Indexed m) (hopen : OpenTo m.selectors i d) :
    MatchState.held (m.updateTransportWithProperties answers transport routes properties).selectors i t =
      if t = transport then (if routes ≠ [] ∧ answers transport d = true then some routes else none)
      else MatchState.held m.selectors i t := by
  -- A selector that is not found from the transport holds none of its routes.
  have hunmatched : d ∉ m.matchedDestinations transport → MatchState.held m.selectors i transport = none := by
    intro hd
    cases hheld : MatchState.held m.selectors i transport with
    | none => rfl
    | some R => exact absurd (h.held i d transport R hopen hheld).2 hd
  have hgroup := (h.grouped d i).mpr hopen
  rw [updateTransportWithProperties]
  by_cases hroutes : routes.length = 0
  · have hnil := List.eq_nil_of_length_eq_zero hroutes
    rw [if_pos hroutes]
    dsimp only
    rw [held_changeSelectors transport d (some none) ?_ ?_ hopen.lt]
    · by_cases ht : t = transport
      · subst ht
        by_cases hd : d ∈ m.matchedDestinations t
        · simp [mem_pairs_matchedGroups, hd, hgroup, hnil]
        · simp [mem_pairs_matchedGroups, hd, hnil, hunmatched hd]
      · simp [ht]
    · rintro ⟨e, j⟩ hp rfl
      exact ((h.grouped e j).mp (mem_pairs_matchedGroups.mp hp).2).unique hopen
    · intro s t
      rw [MultiRouteSelector.lookup_update, if_pos rfl, Option.getD_some]
  · have hnil : routes ≠ [] := fun hnil => hroutes (by rw [hnil]; rfl)
    rw [if_neg hroutes]
    dsimp only
    rw [held_changeSelectors transport d (if answers transport d = true then some (some routes)
      else if d ∈ m.matchedDestinations transport then some none else none) ?_ ?_ hopen.lt]
    · have hpair : (d, i) ∈ pairs m.groups := mem_pairs_groups.mpr hgroup
      by_cases ht : t = transport
      · subst ht
        by_cases hanswer : answers t d = true
        · simp [hpair, hanswer, hnil]
        · by_cases hd : d ∈ m.matchedDestinations t
          · simp [hpair, hanswer, hd]
          · simp [hpair, hanswer, hd, hunmatched hd]
      · simp [ht]
    · rintro ⟨e, j⟩ hp rfl
      exact ((h.grouped e j).mp (mem_pairs_groups.mp hp)).unique hopen
    · intro s t
      rw [changeFor]
      by_cases hanswer : answers transport d = true
      · rw [if_pos hanswer, if_pos hanswer, MultiRouteSelector.lookup_update, if_neg hnil, Option.getD_some]
      · rw [if_neg hanswer, if_neg hanswer]
        by_cases hd : d ∈ m.matchedDestinations transport
        · rw [if_pos hd, if_pos hd, MultiRouteSelector.lookup_update, if_pos rfl, Option.getD_some]
        · rw [if_neg hd, if_neg hd, Option.getD_none, ite_self]

lemma openTo_update : OpenTo (m.updateTransportWithProperties answers transport routes properties).selectors i d ↔
    OpenTo m.selectors i d := by
  rw [updateTransportWithProperties]
  split
  · dsimp only
    rw [openTo_changeSelectors]
  · exact openTo_changeSelectors m.groups

lemma transportRoutes_update :
    (m.updateTransportWithProperties answers transport routes properties).transportRoutes.lookup t =
      if t = transport then (if routes = [] then none else some routes) else m.transportRoutes.lookup t := by
  rw [updateTransportWithProperties]
  by_cases hroutes : routes = []
  · rw [if_pos (by rw [hroutes]; rfl), if_pos hroutes]
    exact Table.lookup_erase_eq _ _ _
  · rw [if_neg (by rwa [List.length_eq_zero_iff]), if_neg hroutes]
    exact Table.lookup_insert_eq _ _ _ _

lemma Indexed.update (h : Indexed m) : Indexed (m.updateTransportWithProperties answers transport routes properties) := by
  refine ⟨fun d i => ?_, fun i d t R hopen hheld => ?_, fun t R hR => ?_⟩
  · rw [openTo_update, ← h.grouped, updateTransportWithProperties]
    split <;> rfl
  · rw [openTo_update] at hopen
    rw [h.held_update hopen] at hheld
    rw [transportRoutes_update]
    by_cases ht : t = transport
    · rw [if_pos ht] at hheld
      split at hheld
      · next hmatches =>
        obtain rfl := Option.some.inj hheld
        rw [if_pos ht, if_neg hmatches.1]
        refine ⟨rfl, ?_⟩
        obtain ⟨group, hgroup, -⟩ := (h.grouped d i).mpr hopen
        rw [matchedDestinations, updateTransportWithProperties, if_neg (by rw [List.length_eq_zero_iff]; exact hmatches.1), ht,
          AList.lookup_insert, Option.getD_some, List.mem_filter]
        exact ⟨Table.mem_keys_iff.mpr ⟨group, hgroup⟩, hmatches.2⟩
      · exact absurd hheld (by simp)
    · rw [if_neg ht] at hheld ⊢
      obtain ⟨hrouted, hd⟩ := h.held i d t R hopen hheld
      refine ⟨hrouted, ?_⟩
      rw [matchedDestinations] at hd ⊢
      rw [updateTransportWithProperties]
      split
      · rw [AList.lookup_erase_ne ht]
        exact hd
      · rw [AList.lookup_insert_ne ht]
        exact hd
  · rw [transportRoutes_update] at hR
    split at hR
    · split at hR
      · exact absurd hR (by simp)
      · next hne =>
        rw [← Option.some.inj hR]
        exact hne
    · exact h.nonempty t R hR

section Open

variable {visit : Visit (Transport τ)}

lemma matchTransport_foldl (m : MatchState δ τ ρ) (answers : Answers δ τ) (destination : δ) {ts : List (Transport τ)}
    (hts : ts.Nodup) (r : MultiRouteSelector τ ρ × Table (Transport τ) (List δ)) (t : Transport τ) :
    let r' := ts.foldl (m.matchTransport answers destination) r
    (r'.1.transportRoutes.lookup t = if t ∈ ts ∧ answers t destination = true then
        (if m.routesOf t = [] then none else some (m.routesOf t)) else r.1.transportRoutes.lookup t) ∧
      ∀ d, d ∈ (r'.2.lookup t).getD [] ↔
        d ∈ (r.2.lookup t).getD [] ∨ (t ∈ ts ∧ answers t destination = true ∧ d = destination) := by
  induction ts generalizing r with
  | nil => simp
  | cons u ts ih =>
    obtain ⟨hu, hts⟩ := List.nodup_cons.mp hts
    obtain ⟨hroutes, hmatched⟩ := ih hts (m.matchTransport answers destination r u)
    dsimp only at hroutes hmatched ⊢
    rw [List.foldl_cons]
    by_cases htu : t = u
    · subst htu
      have hnot : ¬ (t ∈ ts ∧ answers t destination = true) := fun hmem => hu hmem.1
      refine ⟨?_, fun d => ?_⟩
      · rw [hroutes, if_neg hnot, matchTransport]
        by_cases hanswer : answers t destination = true
        · rw [if_pos hanswer, if_pos ⟨List.mem_cons_self, hanswer⟩, MultiRouteSelector.lookup_update, if_pos rfl]
        · rw [if_neg hanswer, if_neg (fun hmem => hanswer hmem.2)]
      · rw [hmatched, matchTransport]
        by_cases hanswer : answers t destination = true
        · rw [if_pos hanswer, AList.lookup_insert, Option.getD_some, List.mem_insert_iff]
          simp only [hu, hanswer, List.mem_cons_self, true_and, false_and, or_false]
          exact or_comm
        · rw [if_neg hanswer, AList.lookup_insert, Option.getD_some]
          simp [hanswer]
    · have hroutes' : (m.matchTransport answers destination r u).1.transportRoutes.lookup t =
          r.1.transportRoutes.lookup t := by
        rw [matchTransport]
        split
        · rw [MultiRouteSelector.lookup_update, if_neg htu]
        · rfl
      have hmatched' : (m.matchTransport answers destination r u).2.lookup t = r.2.lookup t := by
        rw [matchTransport]
        split <;> exact AList.lookup_insert_ne htu
      rw [hroutes, hroutes']
      rw [hmatched'] at hmatched
      simp only [hmatched, List.mem_cons, htu, false_or, implies_true, and_self]

lemma held_new_selector (h : Indexed m) (t : Transport τ) :
    MatchState.held (m.openMultiRouteSelector answers destination visit).selectors m.selectors.length t =
      if answers t destination = true then m.transportRoutes.lookup t else none := by
  have hperm := visit.perm m.transportRoutes.keys
  have hts : (visit.visit m.transportRoutes.keys).Nodup := hperm.nodup_iff.mpr m.transportRoutes.keys_nodup
  have hroutes := (matchTransport_foldl m answers destination hts (.new, m.transportMatchedDestinations) t).1
  rw [MatchState.held, openMultiRouteSelector]
  dsimp only at hroutes ⊢
  rw [List.getElem?_concat_length, Option.bind_some]
  dsimp only
  rw [hroutes]
  have hmem : t ∈ visit.visit m.transportRoutes.keys ↔ ∃ R, m.transportRoutes.lookup t = some R :=
    hperm.mem_iff.trans Table.mem_keys_iff
  by_cases hanswer : answers t destination = true
  · rw [if_pos hanswer, routesOf]
    cases hrouted : m.transportRoutes.lookup t with
    | none =>
      rw [if_neg (fun hvisit => by simp [hmem, hrouted] at hvisit)]
      rfl
    | some R =>
      rw [if_pos ⟨hmem.mpr ⟨R, hrouted⟩, hanswer⟩, Option.getD_some, if_neg (h.nonempty t R hrouted)]
  · rw [if_neg hanswer, if_neg (fun hvisit => hanswer hvisit.2)]
    rfl

lemma mem_matchedDestinations_open (d : δ) (t : Transport τ) :
    d ∈ (m.openMultiRouteSelector answers destination visit).matchedDestinations t ↔
      d ∈ m.matchedDestinations t ∨
        ((∃ R, m.transportRoutes.lookup t = some R) ∧ answers t destination = true ∧ d = destination) := by
  have hperm := visit.perm m.transportRoutes.keys
  have hts : (visit.visit m.transportRoutes.keys).Nodup := hperm.nodup_iff.mpr m.transportRoutes.keys_nodup
  have hmatched := (matchTransport_foldl m answers destination hts (.new, m.transportMatchedDestinations) t).2 d
  rw [hperm.mem_iff, Table.mem_keys_iff] at hmatched
  exact hmatched

omit [DecidableEq δ] [DecidableEq τ] [DecidableEq ρ] in
lemma openTo_append {s : OpenedSelector δ τ ρ} (hs : s.isOpen = true) :
    OpenTo (selectors ++ [s]) i d ↔ OpenTo selectors i d ∨ (i = selectors.length ∧ s.destination = d) := by
  rw [OpenTo, OpenTo, List.getElem?_append]
  by_cases hlt : i < selectors.length
  · rw [if_pos hlt]
    constructor
    · exact .inl
    · rintro (h | ⟨rfl, -⟩)
      · exact h
      · exact absurd hlt (lt_irrefl _)
  · rw [if_neg hlt, List.getElem?_eq_none (not_lt.mp hlt)]
    by_cases hi : i = selectors.length
    · simp [hi, hs]
    · have : i - selectors.length ≠ 0 := by omega
      simp [hi, this]

omit [DecidableEq δ] [DecidableEq ρ] in
lemma held_append {s : OpenedSelector δ τ ρ} (hlt : i < selectors.length) :
    MatchState.held (selectors ++ [s]) i t = MatchState.held selectors i t := by
  rw [MatchState.held, MatchState.held, List.getElem?_append_left hlt]

lemma Indexed.held_open (h : Indexed m)
    (hopen : OpenTo (m.openMultiRouteSelector answers destination visit).selectors i d) (t : Transport τ) :
    (OpenTo m.selectors i d ∧ MatchState.held (m.openMultiRouteSelector answers destination visit).selectors i t =
        MatchState.held m.selectors i t) ∨
    (d = destination ∧ MatchState.held (m.openMultiRouteSelector answers destination visit).selectors i t =
        if answers t destination = true then m.transportRoutes.lookup t else none) := by
  rcases (openTo_append rfl).mp hopen with hopen | ⟨rfl, rfl⟩
  · exact .inl ⟨hopen, held_append hopen.lt⟩
  · exact .inr ⟨rfl, held_new_selector h t⟩

lemma Indexed.openSelector (h : Indexed m) : Indexed (m.openMultiRouteSelector answers destination visit) := by
  refine ⟨fun d i => ?_, fun i d t R hopen hheld => ?_, h.nonempty⟩
  · rw [openMultiRouteSelector]
    dsimp only
    rw [openTo_append rfl, ← h.grouped, Table.lookup_insert_eq]
    by_cases hd : d = destination
    · subst hd
      rw [if_pos rfl]
      cases hgroup : m.destinationMultiRouteSelectors.lookup d with
      | none => simp
      | some group => simp
    · simp [hd, Ne.symm hd]
  · rw [mem_matchedDestinations_open]
    rcases h.held_open hopen t with ⟨hopen, heq⟩ | ⟨rfl, heq⟩
    · obtain ⟨hrouted, hd⟩ := h.held i d t R hopen (heq.symm.trans hheld)
      exact ⟨hrouted, .inl hd⟩
    · rw [heq] at hheld
      split at hheld
      · next hanswer => exact ⟨hheld, .inr ⟨⟨R, hheld⟩, hanswer, rfl⟩⟩
      · exact absurd hheld (by simp)

end Open

section Close

omit [DecidableEq δ] [DecidableEq τ] [DecidableEq ρ] in
lemma openTo_set {s : OpenedSelector δ τ ρ} (hs : selectors[j]? = some s) :
    OpenTo (selectors.set j { s with isOpen := false }) i d ↔ OpenTo selectors i d ∧ i ≠ j := by
  have hlt := (List.getElem?_eq_some_iff.mp hs).1
  rw [OpenTo, List.getElem?_set]
  by_cases hij : j = i
  · subst hij
    simp [hlt]
  · simp [hij, OpenTo, Ne.symm hij]

omit [DecidableEq δ] [DecidableEq ρ] in
lemma held_set {s : OpenedSelector δ τ ρ} (hs : selectors[j]? = some s) :
    MatchState.held (selectors.set j { s with isOpen := false }) i t = MatchState.held selectors i t := by
  have hlt := (List.getElem?_eq_some_iff.mp hs).1
  rw [MatchState.held, MatchState.held, List.getElem?_set]
  by_cases hij : j = i
  · subst hij
    rw [if_pos rfl, if_pos hlt, hs]
    rfl
  · simp [hij]

omit [DecidableEq τ] [DecidableEq ρ] in
lemma mem_withoutDestination {l : List δ} (hd : d ≠ destination) :
    d ∈ (withoutDestination destination l).getD [] ↔ d ∈ l := by
  rw [withoutDestination]
  have hmem : d ∈ l.filter (· ≠ destination) ↔ d ∈ l := by simp [hd]
  by_cases hempty : (l.filter (· ≠ destination)).length = 0
  · rw [if_pos hempty, ← hmem, List.eq_nil_of_length_eq_zero hempty]
    rfl
  · rw [if_neg hempty, Option.getD_some, hmem]

omit [DecidableEq ρ] in
lemma Indexed.close_cases (h : Indexed m) (j : ℕ) :
    (∀ i d, OpenTo (m.closeMultiRouteSelector j).selectors i d ↔ OpenTo m.selectors i d ∧ i ≠ j) ∧
    (∀ i t, MatchState.held (m.closeMultiRouteSelector j).selectors i t = MatchState.held m.selectors i t) ∧
    (m.closeMultiRouteSelector j).transportRoutes = m.transportRoutes ∧
    (∀ d i, (∃ group, (m.closeMultiRouteSelector j).destinationMultiRouteSelectors.lookup d = some group ∧ i ∈ group) ↔
      (∃ group, m.destinationMultiRouteSelectors.lookup d = some group ∧ i ∈ group) ∧ i ≠ j) ∧
    ∀ d t, (∃ i, OpenTo m.selectors i d ∧ i ≠ j) → d ∈ m.matchedDestinations t →
      d ∈ (m.closeMultiRouteSelector j).matchedDestinations t := by
  rw [closeMultiRouteSelector]
  cases hj : m.selectors[j]? with
  | none =>
    have hout : ∀ i d, OpenTo m.selectors i d → i ≠ j := by
      rintro i d ⟨s, hs, -⟩ rfl
      rw [hj] at hs
      exact absurd hs (by simp)
    refine ⟨fun i d => ⟨fun hopen => ⟨hopen, hout i d hopen⟩, And.left⟩, fun _ _ => rfl, rfl, fun d i => ?_,
      fun _ _ _ hd => hd⟩
    exact ⟨fun hgroup => ⟨hgroup, hout i d ((h.grouped d i).mp hgroup)⟩, And.left⟩
  | some s =>
    dsimp only
    -- The selector is in no group but that of its destination.
    have hother : ∀ d, d ≠ s.destination → ∀ i group, m.destinationMultiRouteSelectors.lookup d = some group →
        i ∈ group → i ≠ j := by
      rintro d hd i group hgroup hi rfl
      obtain ⟨s', hs', -, hdest⟩ := (h.grouped d i).mp ⟨group, hgroup, hi⟩
      rw [hj, Option.some.injEq] at hs'
      exact hd (by rw [← hdest, hs'])
    cases hgroup : m.destinationMultiRouteSelectors.lookup s.destination with
    | none =>
      refine ⟨fun i d => openTo_set hj, fun i t => held_set hj, rfl, fun d i => ?_, fun _ _ _ hd => hd⟩
      constructor
      · rintro ⟨group, hd, hi⟩
        refine ⟨⟨group, hd, hi⟩, hother d ?_ i group hd hi⟩
        rintro rfl
        rw [hgroup] at hd
        exact absurd hd (by simp)
      · exact And.left
    | some group =>
      have hrest : ∀ d i, (∃ g, (if d = s.destination then some (group.filter (· ≠ j))
          else m.destinationMultiRouteSelectors.lookup d) = some g ∧ i ∈ g) ↔
            (∃ g, m.destinationMultiRouteSelectors.lookup d = some g ∧ i ∈ g) ∧ i ≠ j := by
        intro d i
        by_cases hd : d = s.destination
        · subst hd
          simp [hgroup]
        · rw [if_neg hd]
          exact ⟨fun ⟨g, hg, hi⟩ => ⟨⟨g, hg, hi⟩, hother d hd i g hg hi⟩, And.left⟩
      dsimp only
      by_cases hempty : (group.filter (· ≠ j)).length = 0
      · rw [if_pos hempty]
        refine ⟨fun i d => openTo_set hj, fun i t => held_set hj, rfl, fun d i => ?_, ?_⟩
        · rw [← hrest, Table.lookup_erase_eq, List.eq_nil_of_length_eq_zero hempty]
          by_cases hd : d = s.destination <;> simp [hd]
        · rintro d t ⟨i, hopen, hij⟩ hd
          have hne : d ≠ s.destination := by
            rintro rfl
            have hleft := (hrest s.destination i).mpr ⟨(h.grouped _ i).mpr hopen, hij⟩
            rw [if_pos rfl, List.eq_nil_of_length_eq_zero hempty] at hleft
            obtain ⟨g, hg, hi⟩ := hleft
            rw [← Option.some.inj hg] at hi
            exact absurd hi List.not_mem_nil
          rw [matchedDestinations] at hd ⊢
          dsimp only
          rw [Table.lookup_sweep]
          cases hmatched : m.transportMatchedDestinations.lookup t with
          | none =>
            rw [hmatched] at hd
            exact absurd hd List.not_mem_nil
          | some l =>
            rw [hmatched] at hd
            exact (mem_withoutDestination hne).mpr hd
      · rw [if_neg hempty]
        refine ⟨fun i d => openTo_set hj, fun i t => held_set hj, rfl, fun d i => ?_, fun _ _ _ hd => hd⟩
        rw [← hrest, Table.lookup_insert_eq]

omit [DecidableEq ρ] in
lemma Indexed.close (h : Indexed m) (j : ℕ) : Indexed (m.closeMultiRouteSelector j) := by
  obtain ⟨hopen, hheld, hroutes, hgroups, hmatched⟩ := h.close_cases j
  refine ⟨fun d i => ?_, fun i d t R hi ht => ?_, ?_⟩
  · rw [hgroups, h.grouped, hopen]
  · rw [hopen] at hi
    rw [hheld] at ht
    rw [hroutes]
    obtain ⟨hrouted, hd⟩ := h.held i d t R hi.1 ht
    exact ⟨hrouted, hmatched d t ⟨i, hi⟩ hd⟩
  · rw [hroutes]
    exact h.nonempty

end Close

omit [DecidableEq ρ] in
lemma indexed_new : Indexed (new : MatchState δ τ ρ) where
  grouped := by simp [new, OpenTo]
  held := by simp [new, OpenTo]
  nonempty := by simp [new]

lemma Indexed.step (h : Indexed m) (answers : Answers δ τ) (e : MatchEvent δ τ ρ) : Indexed (m.step answers e) := by
  cases e with
  | openMultiRouteSelector destination visit => exact h.openSelector
  | closeMultiRouteSelector selector => exact h.close selector
  | updateTransportWithProperties transport routes properties => exact h.update

def Exact (answers : Answers δ τ) (m : MatchState δ τ ρ) : Prop :=
  ∀ i d t, OpenTo m.selectors i d →
    MatchState.held m.selectors i t = if answers t d = true then m.transportRoutes.lookup t else none

lemma Exact.step (h : Indexed m) (hm : Exact answers m) (e : MatchEvent δ τ ρ) : Exact answers (m.step answers e) := by
  intro i d t hopen
  cases e with
  | openMultiRouteSelector destination visit =>
    rcases h.held_open hopen t with ⟨hopen, heq⟩ | ⟨rfl, heq⟩
    · exact heq.trans (hm i d t hopen)
    · exact heq
  | closeMultiRouteSelector j =>
    obtain ⟨hopens, hheld, hroutes, -⟩ := h.close_cases j
    rw [MatchState.step, hopens] at hopen
    rw [MatchState.step, hheld, hroutes]
    exact hm i d t hopen.1
  | updateTransportWithProperties transport routes properties =>
    rw [MatchState.step, openTo_update] at hopen
    rw [MatchState.step, h.held_update hopen, transportRoutes_update]
    by_cases ht : t = transport
    · subst ht
      by_cases hroutes : routes = [] <;> simp [hroutes]
    · rw [if_neg ht, if_neg ht]
      exact hm i d t hopen

lemma transportRoutes_step (m : MatchState δ τ ρ) (answers : Answers δ τ) (e : MatchEvent δ τ ρ) (h : Indexed m) :
    (m.step answers e).transportRoutes.lookup t =
      match e with
      | .updateTransportWithProperties transport routes _ =>
        if transport = t then (if routes = [] then none else some routes) else m.transportRoutes.lookup t
      | _ => m.transportRoutes.lookup t := by
  cases e with
  | openMultiRouteSelector destination visit => rfl
  | closeMultiRouteSelector j =>
    rw [step, (h.close_cases j).2.2.1]
  | updateTransportWithProperties transport routes properties =>
    rw [step, transportRoutes_update]
    simp only [eq_comm]

def stepWith (m : MatchState δ τ ρ) (e : MatchEvent δ τ ρ × Answers δ τ) : MatchState δ τ ρ := m.step e.2 e.1

lemma indexed_run (es : List (MatchEvent δ τ ρ × Answers δ τ)) : Indexed (Runs.run stepWith new es) :=
  Runs.run_invariant (I := Indexed) (fun _ e h => h.step e.2 e.1) indexed_new es

lemma transportRoutes_run (es : List (MatchEvent δ τ ρ × Answers δ τ)) (t : Transport τ) :
    (Runs.run stepWith new es).transportRoutes.lookup t = registered t (es.map Prod.fst) := by
  induction es using List.reverseRecOn with
  | nil => rfl
  | append_singleton es e ih =>
    rw [Runs.run_concat, stepWith, transportRoutes_step _ _ _ (indexed_run es), ih, List.map_append, registered,
      List.map_singleton, List.foldl_append, ← registered, List.foldl_cons, List.foldl_nil]

lemma run_eq_stepWith (answers : Answers δ τ) (es : List (MatchEvent δ τ ρ)) (m : MatchState δ τ ρ) :
    Runs.run (fun m e => m.step answers e) m es = Runs.run stepWith m (es.map fun e => (e, answers)) := by
  rw [Runs.run, Runs.run, List.foldl_map]
  rfl

lemma exact_run (answers : Answers δ τ) (es : List (MatchEvent δ τ ρ)) :
    Exact answers (Runs.run (fun m e => m.step answers e) new es) := by
  refine (Runs.run_invariant (I := fun m => Indexed m ∧ Exact answers m)
    (fun m e h => ⟨h.1.step answers e, Exact.step h.1 h.2 e⟩) ⟨indexed_new, ?_⟩ es).2
  rintro i d t ⟨s, hs, -⟩
  exact absurd hs (by simp [new])

theorem route_index_exact (answers : Answers δ τ) (es : List (MatchEvent δ τ ρ))
    (varying : List (MatchEvent δ τ ρ × Answers δ τ)) :
    (∀ (i : ℕ) s, (Runs.run (fun m e => m.step answers e) new es).selectors[i]? = some s → s.isOpen = true →
      ∀ t R, s.selector.transportRoutes.lookup t = some R ↔
        registered t es = some R ∧ R ≠ [] ∧ answers t s.destination = true) ∧
    ∀ (i : ℕ) s, (Runs.run stepWith new varying).selectors[i]? = some s → s.isOpen = true →
      ∀ t, registered t (varying.map Prod.fst) = none → s.selector.transportRoutes.lookup t = none := by
  constructor
  · intro i s hs hopen t R
    have hheld := exact_run answers es i s.destination t ⟨s, hs, hopen, rfl⟩
    have hindexed := indexed_run (es.map fun e => (e, answers))
    have hroutes := transportRoutes_run (es.map fun e => (e, answers)) t
    rw [← run_eq_stepWith] at hindexed hroutes
    rw [MatchState.held, hs, Option.bind_some, hroutes, List.map_map, Function.comp_def, List.map_id'] at hheld
    rw [hheld]
    split
    · next hanswer =>
      refine ⟨fun hR => ⟨hR, hindexed.nonempty t R ?_, hanswer⟩, And.left⟩
      rw [hroutes, List.map_map, Function.comp_def, List.map_id']
      exact hR
    · next hanswer => simp [hanswer]
  · intro i s hs hopen t hnone
    cases hheld : s.selector.transportRoutes.lookup t with
    | none => rfl
    | some R =>
      have hrouted := ((indexed_run varying).held i s.destination t R ⟨s, hs, hopen, rfl⟩
        (by rw [MatchState.held, hs, Option.bind_some, hheld])).1
      rw [transportRoutes_run, hnone] at hrouted
      exact absurd hrouted (by simp)

end MatchState

end UrConnect.Transfer.Route
