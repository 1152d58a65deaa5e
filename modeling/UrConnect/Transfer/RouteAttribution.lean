import Mathlib.Data.Fintype.Basic
import UrConnect.Lib.Runs
import UrConnect.Transfer.RouteSelector

/-! Which routes a reliable-only write puts its frame on, and what a write says of the route it has used. -/

namespace UrConnect.Transfer.Route

open UrConnect.Lib UrConnect.Lib.Runs

variable {κ τ ρ : Type}

namespace MultiRouteSelector

variable {s : MultiRouteSelector τ ρ} {transport : Transport τ} {routes : List ρ}
  {properties : TransferCarrierProperties} {r : ρ}

lemma unreliable_delete [DecidableEq ρ] (gone : List ρ) (r : ρ) :
    (s.delete gone).unreliableForRoute r = (decide (r ∉ gone) && s.unreliableForRoute r) := by
  rw [unreliableForRoute, delete, Table.lookup_eraseAll]
  by_cases hr : r ∈ gone
  · simp [hr]
  · simp [hr, unreliableForRoute]

variable [DecidableEq τ]

lemma mem_currentRoutes : r ∈ s.currentRoutes transport ↔
    ∃ routes, s.transportRoutes.lookup transport = some routes ∧ r ∈ routes := by
  rw [currentRoutes]
  cases s.transportRoutes.lookup transport with
  | none => simp
  | some routes => simp

variable [DecidableEq ρ]

lemma exists_transport_of_mem_activeRoutes (h : r ∈ s.activeRoutes) : ∃ transport, r ∈ s.currentRoutes transport := by
  obtain ⟨⟨transport, routes⟩, hentry, hr⟩ := List.mem_flatMap.mp (List.mem_filter.mp h).1
  exact ⟨transport, mem_currentRoutes.mpr ⟨routes, AList.mem_lookup_iff.mpr hentry, hr⟩⟩

lemma unreliable_update_of_mem (hr : r ∈ routes) :
    (s.updateTransportWithProperties transport routes properties).unreliableForRoute r = properties.unreliable := by
  rw [updateTransportWithProperties, if_neg (List.ne_nil_of_mem hr), register, unreliableForRoute]
  dsimp only
  rw [Table.lookup_insertAll, if_pos hr]
  rfl

lemma unreliable_update_of_not_mem (hr : r ∉ routes) :
    (s.updateTransportWithProperties transport routes properties).unreliableForRoute r =
      (decide (r ∉ s.currentRoutes transport) && s.unreliableForRoute r) := by
  rw [updateTransportWithProperties]
  split
  · next hnil =>
    cases hcurrent : s.transportRoutes.lookup transport with
    | none => simp [currentRoutes, hcurrent]
    | some current =>
      have hdelete := unreliable_delete (s := s) current r
      simpa [currentRoutes, hcurrent, unreliableForRoute] using hdelete
  · have hdelete := unreliable_delete (s := s) ((s.currentRoutes transport).filter fun route => route ∉ routes) r
    have hgone : r ∈ (s.currentRoutes transport).filter (fun route => decide (route ∉ routes)) ↔
        r ∈ s.currentRoutes transport := by
      simp [hr]
    rw [decide_eq_decide.mpr (not_congr hgone)] at hdelete
    rw [← hdelete, register, unreliableForRoute]
    dsimp only
    rw [Table.lookup_insertAll, if_neg hr]
    rfl

lemma currentRoutes_update (t : Transport τ) :
    (s.updateTransportWithProperties transport routes properties).currentRoutes t =
      if t = transport then routes else s.currentRoutes t := by
  rw [updateTransportWithProperties]
  split
  · next hnil =>
    cases hcurrent : s.transportRoutes.lookup transport with
    | none =>
      by_cases ht : t = transport
      · subst ht
        simp [currentRoutes, hcurrent, hnil]
      · simp [ht]
    | some current =>
      simp only [currentRoutes, Table.lookup_erase_eq]
      split
      · simp [hnil]
      · rfl
  · simp only [register, currentRoutes, Table.lookup_insert_eq]
    split <;> rfl

end MultiRouteSelector

def Write.held : Write ρ → List ρ
  | .testing _ activeRoutes _ _ => activeRoutes
  | .offering _ _ activeRoutes => activeRoutes
  | .accepted route => [route]
  | _ => []

lemma held_test {notify : ℕ} {activeRoutes rest reliableRoutes : List ρ} {r : ρ}
    (h : ∀ r ∈ reliableRoutes, r ∈ activeRoutes)     (hr : r ∈ (Write.test notify activeRoutes rest reliableRoutes).held) : r ∈ activeRoutes := by
  cases rest with
  | nil =>
    rw [Write.test, Write.held] at hr
    split at hr
    · exact h r hr
    · exact hr
  | cons route rest => exact hr

section History

variable [DecidableEq ρ] {past : List (Event κ τ ρ)} {e : Event κ τ ρ} {r : ρ}

def Event.registers (r : ρ) : Event κ τ ρ → Option Bool
  | .updateTransportWithProperties _ routes properties => if r ∈ routes then some properties.unreliable else none
  | _ => none

def registeredAs (past : List (Event κ τ ρ)) (r : ρ) : Option Bool := past.reverse.findSome? (Event.registers r)

lemma registeredAs_concat (past : List (Event κ τ ρ)) (e : Event κ τ ρ) (r : ρ) :
    registeredAs (past ++ [e]) r = (e.registers r).or (registeredAs past r) := by
  rw [registeredAs, List.reverse_concat, List.findSome?_cons]
  cases e.registers r with
  | none => rfl
  | some unreliable => rfl

end History

variable [DecidableEq ρ]

lemma tested_reliable {s : MultiRouteSelector τ ρ} {route : ρ} {activeRoutes rest reliableRoutes : List ρ}
    (hreliable : ∀ r ∈ reliableRoutes, r ∈ activeRoutes ∧ s.unreliableForRoute r = false)
    (hrest : ∀ r ∈ route :: rest, r ∈ activeRoutes) :
    ∀ r ∈ (if s.unreliableForRoute route then reliableRoutes else reliableRoutes ++ [route]),
      r ∈ activeRoutes ∧ s.unreliableForRoute r = false := by
  intro r hr
  split at hr
  · exact hreliable r hr
  · next hroute =>
    rcases List.mem_append.mp hr with hr | hr
    · exact hreliable r hr
    · rw [List.mem_singleton.mp hr]
      exact ⟨hrest route List.mem_cons_self, Bool.eq_false_iff.mpr hroute⟩

variable [DecidableEq τ]

/-- Every route given belongs to the transport alone, and keeps its reliability while it is registered. -/
def Topology (s : MultiRouteSelector τ ρ) : Event κ τ ρ → Prop
  | .updateTransportWithProperties transport routes properties =>
    (∀ r ∈ routes, ∀ entry ∈ s.transportRoutes.entries, r ∈ entry.2 → entry.1 = transport) ∧
      ∀ r ∈ routes, r ∈ s.currentRoutes transport → properties.unreliable = s.unreliableForRoute r
  | _ => True

/-- The event registers the route anew with another reliability, or withdraws it though it is unreliable. -/
def Disturbs (s : MultiRouteSelector τ ρ) (r : ρ) : Event κ τ ρ → Prop
  | .updateTransportWithProperties transport routes properties =>
    if r ∈ routes then properties.unreliable ≠ s.unreliableForRoute r
    else r ∈ s.currentRoutes transport ∧ s.unreliableForRoute r = true
  | _ => False

instance (s : MultiRouteSelector τ ρ) : (e : Event κ τ ρ) → Decidable (Topology s e)
  | .updateTransportWithProperties _ _ _ => inferInstanceAs (Decidable (_ ∧ _))
  | .setActive _ _ => inferInstanceAs (Decidable True)
  | .write _ _ => inferInstanceAs (Decidable True)

instance (s : MultiRouteSelector τ ρ) (r : ρ) : (e : Event κ τ ρ) → Decidable (Disturbs s r e)
  | .updateTransportWithProperties transport routes properties =>
    inferInstanceAs (Decidable (if r ∈ routes then properties.unreliable ≠ s.unreliableForRoute r
      else r ∈ s.currentRoutes transport ∧ s.unreliableForRoute r = true))
  | .setActive _ _ => inferInstanceAs (Decidable False)
  | .write _ _ => inferInstanceAs (Decidable False)

def Undisturbed (w : World κ τ ρ) (e : Event κ τ ρ) : Prop :=
  ∀ c, ∀ r ∈ (w.writes c).held, ¬ Disturbs w.selector r e

instance [Fintype κ] (w : World κ τ ρ) (e : Event κ τ ρ) : Decidable (Undisturbed w e) :=
  inferInstanceAs (Decidable (∀ _, _))

variable {past : List (Event κ τ ρ)} {w : World κ τ ρ} {e : Event κ τ ρ} {c : κ} {r : ρ}

lemma registeredAs_step (h : ¬ Disturbs w.selector r e)
    (hr : registeredAs past r = some (w.selector.unreliableForRoute r)) :
    registeredAs (past ++ [e]) r = some (w.selector.unreliableForRoute r) := by
  rw [registeredAs_concat, hr]
  cases e with
  | updateTransportWithProperties transport routes properties =>
    rw [Event.registers]
    split
    · next hmem =>
      rw [Disturbs, if_pos hmem, not_ne_iff] at h
      rw [h, Option.some_or]
    · rfl
  | setActive route active => rfl
  | write c m => rfl

structure Recorded (past : List (Event κ τ ρ)) (s : MultiRouteSelector τ ρ) : Prop where
  separate : ∀ t t' r, r ∈ s.currentRoutes t → r ∈ s.currentRoutes t' → t = t'
  registered : ∀ t r, r ∈ s.currentRoutes t → registeredAs past r = some (s.unreliableForRoute r)

lemma Topology.own {s : MultiRouteSelector τ ρ} {transport t : Transport τ} {routes : List ρ}
    {properties : TransferCarrierProperties}
    (h : Topology s (.updateTransportWithProperties transport routes properties : Event κ τ ρ)) (hr : r ∈ routes)
    (ht : r ∈ s.currentRoutes t) : t = transport := by
  obtain ⟨current, hlookup, hcurrent⟩ := MultiRouteSelector.mem_currentRoutes.mp ht
  exact h.1 r hr ⟨t, current⟩ (AList.mem_lookup_iff.mp hlookup) hcurrent

lemma Recorded.update {s : MultiRouteSelector τ ρ} (h : Recorded past s) {transport : Transport τ} {routes : List ρ}
    {properties : TransferCarrierProperties}
    (ht : Topology s (.updateTransportWithProperties transport routes properties : Event κ τ ρ)) :
    Recorded (past ++ [.updateTransportWithProperties transport routes properties])
      (s.updateTransportWithProperties transport routes properties) where
  separate := by
    intro t t' r
    rw [MultiRouteSelector.currentRoutes_update, MultiRouteSelector.currentRoutes_update]
    split
    · next heq =>
      split
      · next heq' => exact fun _ _ => heq.trans heq'.symm
      · exact fun hr hr' => absurd (ht.own hr hr') ‹_›
    · split
      · exact fun hr hr' => absurd (ht.own hr' hr) ‹_›
      · exact h.separate t t' r
  registered := by
    intro t r
    rw [MultiRouteSelector.currentRoutes_update, registeredAs_concat, Event.registers]
    split
    · intro hr
      rw [if_pos hr, MultiRouteSelector.unreliable_update_of_mem hr, Option.some_or]
    · next hne =>
      intro hr
      have hnot : r ∉ routes := fun hmem => hne (ht.own hmem hr)
      have hother : r ∉ s.currentRoutes transport := fun hmem => hne (h.separate t transport r hr hmem)
      rw [if_neg hnot, MultiRouteSelector.unreliable_update_of_not_mem hnot, decide_eq_true hother, Bool.true_and,
        Option.none_or]
      exact h.registered t r hr

variable [DecidableEq κ]

lemma unreliable_step (h : ¬ Disturbs w.selector r e) :
    (w.step e).selector.unreliableForRoute r = w.selector.unreliableForRoute r := by
  cases e with
  | updateTransportWithProperties transport routes properties =>
    rw [World.step]
    rw [Disturbs] at h
    split at h
    · next hr =>
      rw [MultiRouteSelector.unreliable_update_of_mem hr]
      exact not_ne_iff.mp h
    · next hr =>
      rw [MultiRouteSelector.unreliable_update_of_not_mem hr]
      by_cases hcurrent : r ∈ w.selector.currentRoutes transport
      · have hfalse : w.selector.unreliableForRoute r = false := by simpa [hcurrent] using h
        simp [hfalse]
      · simp [hcurrent]
  | setActive route active => rfl
  | write c m => rfl

lemma Recorded.step (h : Recorded past w.selector) (ht : Topology w.selector e) :
    Recorded (past ++ [e]) (w.step e).selector := by
  cases e with
  | updateTransportWithProperties transport routes properties => exact h.update ht
  | setActive route active =>
    refine ⟨h.separate, ?_⟩
    intro t r hr
    rw [registeredAs_concat]
    exact h.registered t r hr
  | write c m =>
    refine ⟨h.separate, ?_⟩
    intro t r hr
    rw [registeredAs_concat]
    exact h.registered t r hr

def MultiRouteSelector.Steady (s : MultiRouteSelector τ ρ) (r : ρ) : Prop :=
  r ∈ s.activeRoutes ∧ s.unreliableForRoute r = false

def Throughout (past : List (Event κ τ ρ)) (c : κ) (r : ρ) : Prop :=
  ∀ before after, past = before ++ after → (run World.step .new before).writes c ≠ .idle →
    (run World.step .new before).selector.Steady r

def Write.Offers (write : Write ρ) (reliableOnly : Bool) (r : ρ) : Prop :=
  ∃ notify routes, write = .offering reliableOnly notify routes ∧ r ∈ routes

def AcceptedAs (past : List (Event κ τ ρ)) (c : κ) (r : ρ) (unreliable : Bool) : Prop :=
  ∃ before after reliableOnly, past = before ++ .write c (.send r) :: after ∧
    ((run World.step .new before).writes c).Offers reliableOnly r ∧ registeredAs before r = some unreliable

def Vouched (past : List (Event κ τ ρ)) (c : κ) (s : MultiRouteSelector τ ρ) : Write ρ → Prop
  | .testing _ activeRoutes rest reliableRoutes =>
    (∀ r ∈ reliableRoutes, r ∈ activeRoutes ∧ s.unreliableForRoute r = false) ∧ (∀ r ∈ rest, r ∈ activeRoutes) ∧
      ∀ r, Throughout past c r → r ∈ rest ∨ r ∈ reliableRoutes
  | .offering true _ routes => ∀ r, Throughout past c r → ∀ r' ∈ routes, s.unreliableForRoute r' = false
  | .accepted route => AcceptedAs past c route (s.unreliableForRoute route)
  | .returned disposition => AcceptedAs past c disposition.route disposition.unreliable
  | _ => True

lemma Throughout.of_concat (h : Throughout (past ++ [e]) c r) : Throughout past c r := by
  intro before after heq
  exact h before (after ++ [e]) (by rw [heq, List.append_assoc])

lemma AcceptedAs.concat {unreliable : Bool} (h : AcceptedAs past c r unreliable) :
    AcceptedAs (past ++ [e]) c r unreliable := by
  obtain ⟨before, after, reliableOnly, heq, hoffers, hr⟩ := h
  refine ⟨before, after ++ [e], reliableOnly, ?_, hoffers, hr⟩
  rw [heq, List.append_assoc, List.cons_append]

lemma Vouched.frame {s t : MultiRouteSelector τ ρ} {write : Write ρ}
    (hkeeps : ∀ r ∈ write.held, t.unreliableForRoute r = s.unreliableForRoute r) (h : Vouched past c s write) :
    Vouched (past ++ [e]) c t write := by
  match write with
  | .idle => trivial
  | .listing _ _ => trivial
  | .failed => trivial
  | .testing _ activeRoutes rest reliableRoutes =>
    refine ⟨?_, h.2.1, fun r hr => h.2.2 r hr.of_concat⟩
    intro r hr
    obtain ⟨hactive, hreliable⟩ := h.1 r hr
    exact ⟨hactive, (hkeeps r hactive).trans hreliable⟩
  | .offering false _ _ => trivial
  | .offering true _ routes =>
    intro r hr r' hr'
    exact (hkeeps r' hr').trans (h r hr.of_concat r' hr')
  | .accepted route =>
    have hroute := hkeeps route List.mem_cons_self
    rw [Vouched, hroute]
    exact AcceptedAs.concat h
  | .returned disposition => exact AcceptedAs.concat h

lemma vouched_test {s : MultiRouteSelector τ ρ} {notify : ℕ} {activeRoutes rest reliableRoutes : List ρ}
    (hreliable : ∀ r ∈ reliableRoutes, r ∈ activeRoutes ∧ s.unreliableForRoute r = false)
    (hrest : ∀ r ∈ rest, r ∈ activeRoutes) (hsteady : ∀ r, Throughout past c r → r ∈ rest ∨ r ∈ reliableRoutes) :
    Vouched past c s (.test notify activeRoutes rest reliableRoutes) := by
  cases rest with
  | nil =>
    intro r hr r' hr'
    have hmem : r ∈ reliableRoutes := (hsteady r hr).resolve_left List.not_mem_nil
    rw [if_pos (List.length_pos_of_mem hmem)] at hr'
    exact (hreliable r' hr').2
  | cons route rest => exact ⟨hreliable, hrest, hsteady⟩

structure Attested (past : List (Event κ τ ρ)) (w : World κ τ ρ) : Prop where
  reached : w = run World.step .new past
  recorded : Recorded past w.selector
  held : ∀ c, ∀ r ∈ (w.writes c).held, registeredAs past r = some (w.selector.unreliableForRoute r)
  vouched : ∀ c, Vouched past c w.selector (w.writes c)

lemma Attested.new : Attested [] (World.new : World κ τ ρ) where
  reached := rfl
  recorded := ⟨fun _ _ _ h => absurd h List.not_mem_nil, fun _ _ h => absurd h List.not_mem_nil⟩
  held := fun _ _ h => absurd h List.not_mem_nil
  vouched := fun _ => trivial

lemma Attested.steady (h : Attested past w) (hc : w.writes c ≠ .idle) (hr : Throughout (past ++ [e]) c r) :
    w.selector.Steady r := by
  have hreached := h.reached
  subst hreached
  exact hr past [e] rfl hc

lemma Attested.held_move (h : Attested past w) {m : Move ρ}
    (hr : r ∈ ((w.writes c).move w.selector m).held) : r ∈ (w.writes c).held ∨ r ∈ w.selector.activeRoutes := by
  have hvouched := h.vouched c
  generalize w.writes c = write at hr hvouched ⊢
  revert hr
  fun_cases Write.move w.selector write m with
  | case1 reliableOnly => exact fun hr => absurd hr List.not_mem_nil
  | case2 notify shuffled hperm =>
    intro hr
    exact .inr (hperm.mem_iff.mp (held_test (fun _ h => absurd h List.not_mem_nil) hr))
  | case3 reliableOnly notify shuffled hperm hfalse => exact fun hr => .inr (hperm.mem_iff.mp hr)
  | case4 => exact .inl
  | case5 notify activeRoutes route rest reliableRoutes =>
    intro hr
    exact .inl (held_test (fun r' hr' => (tested_reliable hvouched.1 hvouched.2.1 r' hr').1) hr)
  | case6 reliableOnly notify activeRoutes route hroute =>
    intro hr
    rw [List.mem_singleton.mp hr]
    exact .inl hroute
  | case7 => exact .inl
  | case8 => exact fun hr => absurd hr List.not_mem_nil
  | case9 => exact .inl
  | case10 => exact fun hr => absurd hr List.not_mem_nil
  | case11 route => exact fun hr => absurd hr List.not_mem_nil
  | case12 => exact .inl

lemma Attested.vouched_move (h : Attested past w) (c : κ) (m : Move ρ) :
    Vouched (past ++ [.write c m]) c w.selector ((w.writes c).move w.selector m) := by
  have hvouched := h.vouched c
  have hheld := h.held c
  have hsteady : w.writes c ≠ .idle → ∀ r, Throughout (past ++ [.write c m]) c r → w.selector.Steady r :=
    fun hc _ hr => h.steady hc hr
  have hoffers : ∀ reliableOnly r, (w.writes c).Offers reliableOnly r →
      ((run World.step .new past).writes c).Offers reliableOnly r := by
    rw [← h.reached]
    exact fun _ _ hr => hr
  generalize w.writes c = write at hvouched hheld hsteady hoffers ⊢
  fun_cases Write.move w.selector write m with
  | case1 => trivial
  | case2 notify shuffled hperm =>
    apply vouched_test (fun _ h => absurd h List.not_mem_nil) (fun _ h => h)
    intro r hr
    exact .inl (hperm.mem_iff.mpr (hsteady nofun r hr).1)
  | case3 => trivial
  | case4 => trivial
  | case5 notify activeRoutes route rest reliableRoutes =>
    obtain ⟨hreliable, hrest, hknown⟩ := hvouched
    apply vouched_test (tested_reliable hreliable hrest) (fun r hr => hrest r (List.mem_cons_of_mem route hr))
    intro r hr
    rcases hknown r hr.of_concat with hmem | hmem
    · rcases List.mem_cons.mp hmem with rfl | hmem
      · right
        rw [if_neg (Bool.eq_false_iff.mp (hsteady nofun r hr).2)]
        exact List.mem_append_right _ List.mem_cons_self
      · exact .inl hmem
    · right
      split
      · exact hmem
      · exact List.mem_append_left _ hmem
  | case6 reliableOnly notify activeRoutes route hroute =>
    exact ⟨past, [], reliableOnly, rfl, hoffers reliableOnly route ⟨notify, activeRoutes, rfl, hroute⟩,
      hheld route hroute⟩
  | case7 => exact hvouched.frame fun _ _ => rfl
  | case8 => trivial
  | case9 => exact hvouched.frame fun _ _ => rfl
  | case10 => trivial
  | case11 route => exact AcceptedAs.concat hvouched
  | case12 => exact hvouched.frame fun _ _ => rfl

lemma Attested.step_update (h : Attested past w) {e : Event κ τ ρ} (ht : Topology w.selector e)
    (hu : Undisturbed w e) (hwrites : (w.step e).writes = w.writes) : Attested (past ++ [e]) (w.step e) where
  reached := by rw [run_concat, ← h.reached]
  recorded := h.recorded.step ht
  held := by
    rw [hwrites]
    intro c r hr
    rw [unreliable_step (hu c r hr)]
    exact registeredAs_step (hu c r hr) (h.held c r hr)
  vouched := by
    rw [hwrites]
    intro c
    exact (h.vouched c).frame fun r hr => unreliable_step (hu c r hr)

lemma Attested.step_write (h : Attested past w) (c : κ) (m : Move ρ) :
    Attested (past ++ [.write c m]) (w.step (.write c m)) where
  reached := by rw [run_concat, ← h.reached]
  recorded := h.recorded.step trivial
  held := by
    intro c' r hr
    rw [registeredAs_concat]
    rw [World.step] at hr ⊢
    dsimp only at hr ⊢
    by_cases hc : c' = c
    · subst hc
      rw [Function.update_self] at hr
      rcases h.held_move hr with hr | hr
      · exact h.held c' r hr
      · obtain ⟨t, ht⟩ := MultiRouteSelector.exists_transport_of_mem_activeRoutes hr
        exact h.recorded.registered t r ht
    · rw [Function.update_of_ne hc] at hr
      exact h.held c' r hr
  vouched := by
    intro c'
    rw [World.step]
    dsimp only
    by_cases hc : c' = c
    · subst hc
      rw [Function.update_self]
      exact h.vouched_move c' m
    · rw [Function.update_of_ne hc]
      exact (h.vouched c').frame fun _ _ => rfl

lemma Attested.step (h : Attested past w) (ht : Topology w.selector e) (hu : Undisturbed w e) :
    Attested (past ++ [e]) (w.step e) := by
  cases e with
  | updateTransportWithProperties transport routes properties => exact h.step_update ht hu rfl
  | setActive route active => exact h.step_update ht hu rfl
  | write c m => exact h.step_write c m

lemma attested_of_meets {es : List (Event κ τ ρ)}
    (ht : Meets (fun w e => Topology w.selector e) World.step .new es) (hu : Meets Undisturbed World.step .new es) :
    Attested es (run World.step .new es) := by
  have hstep : ∀ past w (e : Event κ τ ρ), Attested past w → Topology w.selector e ∧ Undisturbed w e →
      Attested (past ++ [e]) (w.step e) := by
    intro past w e h hok
    exact h.step hok.1 hok.2
  exact history_invariant hstep Attested.new (meets_and ht hu)

/-- If no change of the topology disturbs a route that a write holds, a reliable-only write with a steady route
offers its frame to reliable routes alone, and every write returns the reliability that its route had when the
frame was accepted. -/
theorem writes_keep_reliability {es : List (Event κ τ ρ)}
    (ht : Meets (fun w e => Topology w.selector e) World.step .new es) (hu : Meets Undisturbed World.step .new es) :
    (∀ c steady r, Throughout es c steady → ((run World.step .new es).writes c).Offers true r →
      registeredAs es r = some false) ∧
    ∀ c disposition, (run World.step .new es).writes c = .returned disposition →
      AcceptedAs es c disposition.route disposition.unreliable := by
  have h := attested_of_meets ht hu
  constructor
  · rintro c steady r hsteady ⟨notify, routes, hwrite, hr⟩
    have hvouched := h.vouched c
    have hheld := h.held c r
    rw [hwrite] at hvouched hheld
    rw [hheld hr, hvouched steady hsteady r hr]
  · intro c disposition hwrite
    have hvouched := h.vouched c
    rw [hwrite] at hvouched
    exact hvouched

instance (s : MultiRouteSelector τ ρ) (r : ρ) : Decidable (s.Steady r) := inferInstanceAs (Decidable (_ ∧ _))

lemma throughout_of_take
    (h : ∀ k ∈ List.range (past.length + 1), (run World.step .new (past.take k)).writes c ≠ .idle →
      (run World.step .new (past.take k)).selector.Steady r) : Throughout past c r := by
  intro before after heq
  have hk := h before.length (List.mem_range.mpr (by rw [heq, List.length_append]; omega))
  rw [heq, List.take_left] at hk
  exact hk

def reliableTransport : Transport Bool := ⟨true, some .h1⟩

def unreliableTransport : Transport Bool := ⟨false, some .p2p⟩

def reliableOnlyRun : List (Event Unit Bool Bool) :=
  [.updateTransportWithProperties reliableTransport [true] ⟨false⟩,
    .updateTransportWithProperties unreliableTransport [false] ⟨true⟩,
    .write () (.enter true), .write () (.getActiveRoutes [false, true]), .write () .unreliableForRoute,
    .write () .unreliableForRoute, .write () (.send true), .write () .dispositionForRoute,
    .updateTransportWithProperties unreliableTransport [] ⟨false⟩]

theorem writes_keep_reliability_run :
    Meets (fun w e => Topology w.selector e) World.step .new reliableOnlyRun ∧
    Meets Undisturbed World.step .new reliableOnlyRun ∧
    (run World.step .new reliableOnlyRun).writes () = .returned ⟨.h1, false, true, true⟩ ∧
    AcceptedAs reliableOnlyRun () true false :=
  ⟨by decide +kernel, by decide +kernel, by decide +kernel,
    (writes_keep_reliability (by decide +kernel) (by decide +kernel)).2 () ⟨.h1, false, true, true⟩
      (by decide +kernel)⟩

def withdrawnBeforeTest : List (Event Unit Bool Bool) :=
  [.updateTransportWithProperties reliableTransport [true] ⟨false⟩,
    .updateTransportWithProperties unreliableTransport [false] ⟨true⟩,
    .write () (.enter true), .write () (.getActiveRoutes [true, false]), .write () .unreliableForRoute,
    .updateTransportWithProperties unreliableTransport [] ⟨false⟩, .write () .unreliableForRoute]

def withdrawnBeforeLookup : List (Event Unit Bool Bool) :=
  [.updateTransportWithProperties unreliableTransport [false] ⟨true⟩,
    .write () (.enter false), .write () (.getActiveRoutes [false]), .write () (.send false),
    .updateTransportWithProperties unreliableTransport [] ⟨false⟩, .write () .dispositionForRoute]

theorem withdrawn_route_reads_reliable :
    (Meets (fun w e => Topology w.selector e) World.step .new withdrawnBeforeTest ∧
      Throughout withdrawnBeforeTest () true ∧
      ((run World.step .new withdrawnBeforeTest).writes ()).Offers true false ∧
      (run World.step .new (withdrawnBeforeTest ++ [.write () (.send false)])).writes () = .accepted false ∧
      registeredAs withdrawnBeforeTest false = some true) ∧
    Meets (fun w e => Topology w.selector e) World.step .new withdrawnBeforeLookup ∧
    (run World.step .new withdrawnBeforeLookup).writes () = .returned ⟨.unknown, false, true, false⟩ ∧
    AcceptedAs withdrawnBeforeLookup () false true := by
  refine ⟨⟨by decide +kernel, throughout_of_take (by decide +kernel), ⟨2, [true, false], ?_⟩, ?_⟩,
    by decide +kernel, by decide +kernel, ?_⟩
  · decide +kernel
  · decide +kernel
  · refine ⟨withdrawnBeforeLookup.take 3, withdrawnBeforeLookup.drop 4, false, rfl, ⟨1, [false], ?_⟩, ?_⟩
    · decide +kernel
    · decide +kernel

end UrConnect.Transfer.Route
