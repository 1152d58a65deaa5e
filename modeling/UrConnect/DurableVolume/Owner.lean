import Mathlib
import UrConnect.Lib.Runs

/-! Checks of a volume owner borrow its descriptors, and closing joins them first. -/

namespace UrConnect.DurableVolume.Owner

open Lib.Runs Function

section Model

inductive Leaf
  | closed
  | identity
  | notPermitted
  | other (code : ℕ)
  deriving DecidableEq

abbrev Error := List Leaf

inductive Access
  | readOnly
  | readWrite
  | snapshot
  deriving DecidableEq

inductive Method
  | check
  | checkWrite
  | checkRead
  | openDirectory
  | checkDirectory
  | checkReadDirectory
  deriving DecidableEq

inductive Descriptor
  | rootFile
  | leaseFile
  | markerFile
  | mountFile
  deriving DecidableEq

/-- Where a call stands. The first closer waits for `joined` and closes the descriptors, the others
wait for `closed`. -/
inductive Phase
  | idle
  | running (method : Method)
  | returned (err : Error)
  | joining
  | closingFiles (rest : List Descriptor) (result : Error)
  | awaiting
  | closeReturned (err : Error)
  deriving DecidableEq

/-- The channels count how often they were closed; a nil descriptor is one that is not open. -/
structure State where
  access : Access
  active : ℕ
  closing : Bool
  failed : Error
  stopping : ℕ
  joined : ℕ
  closed : ℕ
  closeErr : Error
  isOpen : Descriptor → Bool
  threads : ℕ → Phase

def opened (access : Access) (isOpen : Descriptor → Bool) : State where
  access := access
  active := 0
  closing := false
  failed := []
  stopping := 0
  joined := 0
  closed := 0
  closeErr := []
  isOpen := isOpen
  threads := fun _ => .idle

def State.enter (s : State) (t : ℕ) (p : Phase) : State := { s with threads := update s.threads t p }

def borrow (s : State) (t : ℕ) (method : Method) : State :=
  if s.closing then s.enter t (.returned (.closed :: s.failed))
  else if s.failed ≠ [] then s.enter t (.returned s.failed)
  else { s with active := s.active + 1 }.enter t (.running method)

def release (s : State) (t : ℕ) (result : Error) : State :=
  let s := if .identity ∈ result ∧ s.failed = [] then { s with failed := result } else s
  let s := { s with active := s.active - 1 }
  let s := if s.closing ∧ s.active = 0 then { s with joined := s.joined + 1 } else s
  s.enter t (.returned ((if s.closing then [.closed] else []) ++ result ++ s.failed))

def beginClose (s : State) (t : ℕ) : State :=
  if s.closing then s.enter t .awaiting
  else
    let s := { s with closing := true, stopping := s.stopping + 1 }
    let s := if s.active = 0 then { s with joined := s.joined + 1 } else s
    s.enter t .joining

def verdict (access : Access) (method : Method) (observed : Error) : Error :=
  if method = .checkWrite ∧ access ≠ .readWrite then [.notPermitted] else observed

inductive Event
  | call (t : ℕ) (method : Method)
  | finish (t : ℕ) (observed : Error)
  | close (t : ℕ)
  | join (t : ℕ)
  | closeFile (t : ℕ) (err : Error)
  | settle (t : ℕ)
  | wake (t : ℕ)

def step (s : State) : Event → State
  | .call t method => if s.threads t = .idle then borrow s t method else s
  | .finish t observed =>
    match s.threads t with
    | .running method => release s t (verdict s.access method observed)
    | _ => s
  | .close t => if s.threads t = .idle then beginClose s t else s
  | .join t =>
    if s.threads t = .joining ∧ 0 < s.joined then
      s.enter t (.closingFiles [.rootFile, .leaseFile, .markerFile, .mountFile] [])
    else s
  | .closeFile t err =>
    match s.threads t with
    | .closingFiles (f :: rest) result =>
      if s.isOpen f then { s with isOpen := update s.isOpen f false }.enter t (.closingFiles rest (result ++ err))
      else s.enter t (.closingFiles rest result)
    | _ => s
  | .settle t =>
    match s.threads t with
    | .closingFiles [] result =>
      { s with closeErr := result, closed := s.closed + 1 }.enter t (.closeReturned result)
    | _ => s
  | .wake t => if s.threads t = .awaiting ∧ 0 < s.closed then s.enter t (.closeReturned s.closeErr) else s

def failedAfter (s : State) (result : Error) : Error :=
  if .identity ∈ result ∧ s.failed = [] then result else s.failed

lemma release_eq (s : State) (t : ℕ) (result : Error) : release s t result =
    { s with
      failed := failedAfter s result
      active := s.active - 1
      joined := if s.closing ∧ s.active - 1 = 0 then s.joined + 1 else s.joined }.enter t
      (.returned ((if s.closing then [Leaf.closed] else []) ++ result ++ failedAfter s result)) := by
  unfold release failedAfter
  dsimp only
  by_cases hid : .identity ∈ result ∧ s.failed = []
  · rw [if_pos hid, if_pos hid]
    dsimp only
    split_ifs <;> rfl
  · rw [if_neg hid, if_neg hid]
    split_ifs <;> rfl

def State.Running (s : State) (t : ℕ) : Prop := ∃ method, s.threads t = .running method

end Model

section Invariant

structure Closing (s : State) (t₀ : ℕ) : Prop where
  others : ∀ t ≠ t₀, s.threads t ≠ .joining ∧ (∀ rest result, s.threads t ≠ .closingFiles rest result) ∧
    ∀ err, s.threads t = .closeReturned err → s.closed = 1 ∧ err = s.closeErr
  stage : (s.threads t₀ = .joining ∧ s.closed = 0) ∨
    (∃ rest result, s.threads t₀ = .closingFiles rest result ∧ s.closed = 0 ∧ s.active = 0 ∧
      ∀ f, f ∉ rest → s.isOpen f = false) ∨
    (s.threads t₀ = .closeReturned s.closeErr ∧ s.closed = 1 ∧ s.active = 0 ∧ ∀ f, s.isOpen f = false)

structure Fresh (s : State) : Prop where
  closed : s.closed = 0
  threads : ∀ t, s.threads t ≠ .joining ∧ (∀ rest result, s.threads t ≠ .closingFiles rest result) ∧
    ∀ err, s.threads t ≠ .closeReturned err

structure Sound (s : State) : Prop where
  running : ∃ calls : Finset ℕ, (∀ t, t ∈ calls ↔ s.Running t) ∧ s.active = calls.card
  joined : s.joined = if s.closing ∧ s.active = 0 then 1 else 0
  fresh : s.closing = false → Fresh s
  closing : s.closing = true → ∃ t₀, Closing s t₀

variable {s : State} {t t₀ : ℕ} {p : Phase}

lemma enter_threads (s : State) (t : ℕ) (p : Phase) (t' : ℕ) :
    (s.enter t p).threads t' = if t' = t then p else s.threads t' := by
  simp only [State.enter, update_apply]

lemma Closing.enter (h : Closing s t₀) (ht : t ≠ t₀) (hj : p ≠ .joining)
    (hc : ∀ rest result, p ≠ .closingFiles rest result)
    (hr : ∀ err, p = .closeReturned err → s.closed = 1 ∧ err = s.closeErr) : Closing (s.enter t p) t₀ where
  others := by
    intro t' ht'
    rw [enter_threads]
    split
    · exact ⟨hj, hc, hr⟩
    · exact h.others t' ht'
  stage := by
    rw [enter_threads, if_neg ht.symm]
    exact h.stage

lemma Fresh.enter (h : Fresh s) (hj : p ≠ .joining) (hc : ∀ rest result, p ≠ .closingFiles rest result)
    (hr : ∀ err, p ≠ .closeReturned err) : Fresh (s.enter t p) where
  closed := h.closed
  threads := by
    intro t'
    rw [enter_threads]
    split
    · exact ⟨hj, hc, hr⟩
    · exact h.threads t'

lemma running_enter (h : ∃ calls : Finset ℕ, (∀ t, t ∈ calls ↔ s.Running t) ∧ s.active = calls.card)
    (ht : ¬ s.Running t) (hp : ∀ method, p ≠ .running method) :
    ∃ calls : Finset ℕ, (∀ t', t' ∈ calls ↔ (s.enter t p).Running t') ∧ (s.enter t p).active = calls.card := by
  obtain ⟨calls, hcalls, hcard⟩ := h
  refine ⟨calls, fun t' => ?_, hcard⟩
  rw [hcalls, State.Running, State.Running, enter_threads]
  split
  · next he =>
    subst he
    exact ⟨fun h => absurd h ht, fun ⟨method, h⟩ => absurd h (hp method)⟩
  · exact Iff.rfl

lemma ne_first (h : Closing s t₀) (hp : s.threads t = .idle ∨ s.Running t ∨ s.threads t = .awaiting) : t ≠ t₀ := by
  rintro rfl
  obtain ⟨hs, -⟩ | ⟨rest, result, hs, -⟩ | ⟨hs, -⟩ := h.stage
  all_goals
    rw [State.Running, hs] at hp
    simp at hp

lemma not_running_of (h : s.threads t = p) (hp : ∀ method, p ≠ .running method) : ¬ s.Running t := by
  rintro ⟨method, hm⟩
  exact hp method (h.symm.trans hm)

lemma Sound.enter (h : Sound s) (ht : s.threads t = .idle ∨ s.threads t = .awaiting) (hp : ∀ method, p ≠ .running method)
    (hj : p ≠ .joining) (hc : ∀ rest result, p ≠ .closingFiles rest result)
    (hr : ∀ err, p = .closeReturned err → s.closed = 1 ∧ err = s.closeErr) : Sound (s.enter t p) where
  running := by
    refine running_enter h.running ?_ hp
    rcases ht with ht | ht
    · exact not_running_of ht (by rintro _ ⟨⟩)
    · exact not_running_of ht (by rintro _ ⟨⟩)
  joined := h.joined
  fresh := by
    intro hf
    have hfresh := h.fresh hf
    refine hfresh.enter hj hc fun err he => ?_
    have hone := (hr err he).1
    rw [hfresh.closed] at hone
    exact absurd hone (by decide)
  closing := by
    intro hcl
    obtain ⟨t₀, h₀⟩ := h.closing hcl
    exact ⟨t₀, h₀.enter (ne_first h₀ (ht.imp_right Or.inr)) hj hc hr⟩

lemma Sound.borrow (h : Sound s) (ht : s.threads t = .idle) (method : Method) : Sound (borrow s t method) := by
  unfold Owner.borrow
  split
  · exact h.enter (Or.inl ht) (by rintro _ ⟨⟩) (by rintro ⟨⟩) (by rintro _ _ ⟨⟩) (by rintro _ ⟨⟩)
  · next hcl =>
    have hcl : s.closing = false := by simpa using hcl
    split
    · exact h.enter (Or.inl ht) (by rintro _ ⟨⟩) (by rintro ⟨⟩) (by rintro _ _ ⟨⟩) (by rintro _ ⟨⟩)
    · obtain ⟨calls, hcalls, hcard⟩ := h.running
      have hnot : t ∉ calls := fun hm => not_running_of ht (by rintro _ ⟨⟩) ((hcalls t).mp hm)
      refine ⟨⟨insert t calls, fun t' => ?_, ?_⟩, ?_, fun _ => ?_, fun hc => ?_⟩
      · rw [Finset.mem_insert, hcalls, State.Running, State.Running, enter_threads]
        split
        · next he => simp [he]
        · next he => simp [he]
      · rw [Finset.card_insert_of_notMem hnot, ← hcard]
        rfl
      · have hj := h.joined
        simp only [hcl, Bool.false_eq_true, false_and, if_false] at hj
        simp [State.enter, hcl, hj]
      · refine Fresh.enter ⟨(h.fresh hcl).closed, (h.fresh hcl).threads⟩ (by rintro ⟨⟩) (by rintro _ _ ⟨⟩)
          (by rintro _ ⟨⟩)
      · exact absurd (hcl.symm.trans hc) (by decide)

lemma Sound.release (h : Sound s) (ht : s.Running t) (result : Error) : Sound (release s t result) := by
  obtain ⟨calls, hcalls, hcard⟩ := h.running
  have hmem : t ∈ calls := (hcalls t).mpr ht
  have hpos : 0 < s.active := by
    rw [hcard]
    exact Finset.card_pos.mpr ⟨t, hmem⟩
  have hj := h.joined
  rw [if_neg (by omega)] at hj
  rw [release_eq, hj]
  refine ⟨⟨calls.erase t, fun t' => ?_, ?_⟩, rfl, fun hf => ?_, fun hc => ?_⟩
  · rw [Finset.mem_erase, hcalls, State.Running, State.Running, enter_threads]
    split
    · next he => simp [he]
    · next he => simp [he]
  · rw [Finset.card_erase_of_mem hmem, ← hcard]
    rfl
  · exact Fresh.enter ⟨(h.fresh hf).closed, (h.fresh hf).threads⟩ (by rintro ⟨⟩) (by rintro _ _ ⟨⟩) (by rintro _ ⟨⟩)
  · obtain ⟨t₀, h₀⟩ := h.closing hc
    refine ⟨t₀, Closing.enter ⟨h₀.others, ?_⟩ (ne_first h₀ (Or.inr (Or.inl ht))) (by rintro ⟨⟩) (by rintro _ _ ⟨⟩)
      (by rintro _ ⟨⟩)⟩
    -- With a call running the first closer still waits.
    obtain hs | ⟨_, _, _, _, ha, _⟩ | ⟨_, _, ha, _⟩ := h₀.stage
    · exact Or.inl hs
    · omega
    · omega

lemma Sound.beginClose (h : Sound s) (ht : s.threads t = .idle) : Sound (beginClose s t) := by
  unfold Owner.beginClose
  split
  · exact h.enter (Or.inl ht) (by rintro _ ⟨⟩) (by rintro ⟨⟩) (by rintro _ _ ⟨⟩) (by rintro _ ⟨⟩)
  · next hcl =>
    have hcl : s.closing = false := by simpa using hcl
    have hj := h.joined
    simp only [hcl, Bool.false_eq_true, false_and, if_false] at hj
    have hnot : ¬ s.Running t := not_running_of ht (by rintro _ ⟨⟩)
    have hfresh := h.fresh hcl
    suffices hs : ∀ joined, joined = (if s.active = 0 then 1 else 0) →
        Sound ({ s with closing := true, stopping := s.stopping + 1, joined := joined }.enter t .joining) by
      dsimp only
      split
      · next ha => exact hs _ (by rw [if_pos ha, hj])
      · next ha => exact hs _ (by rw [if_neg ha, hj])
    intro joined hjoined
    refine ⟨running_enter h.running hnot (by rintro _ ⟨⟩), ?_, fun hf => absurd hf (by decide : true ≠ false), fun _ => ⟨t, ?_, ?_⟩⟩
    · simpa [State.enter] using hjoined
    · intro t' ht'
      rw [enter_threads, if_neg ht']
      obtain ⟨hj, hc, hr⟩ := hfresh.threads t'
      exact ⟨hj, hc, fun err he => absurd he (hr err)⟩
    · left
      rw [enter_threads, if_pos rfl]
      exact ⟨rfl, hfresh.closed⟩

lemma Sound.first (h : Sound s) (hp : s.threads t = .joining ∨ ∃ rest result, s.threads t = .closingFiles rest result) :
    s.closing = true ∧ ∃ t₀, Closing s t₀ ∧ t = t₀ := by
  cases hcl : s.closing with
  | false =>
    obtain ⟨hj, hc, -⟩ := (h.fresh hcl).threads t
    obtain hp | ⟨rest, result, hp⟩ := hp
    · exact absurd hp hj
    · exact absurd hp (hc rest result)
  | true =>
    obtain ⟨t₀, h₀⟩ := h.closing hcl
    refine ⟨rfl, t₀, h₀, by_contra fun hne => ?_⟩
    obtain ⟨hj, hc, -⟩ := h₀.others t hne
    obtain hp | ⟨rest, result, hp⟩ := hp
    · exact hj hp
    · exact hc rest result hp

lemma Sound.lead (h : Sound s) (hcl : s.closing = true) (hrun : ¬ s.Running t) (h₀ : Closing s t)
    (closed : ℕ) (closeErr : Error) (isOpen : Descriptor → Bool) (hp : ∀ method, p ≠ .running method)
    (hothers : ∀ t' ≠ t, ∀ err, s.threads t' = .closeReturned err → closed = 1 ∧ err = closeErr)
    (hstage : (p = .joining ∧ closed = 0) ∨
      (∃ rest result, p = .closingFiles rest result ∧ closed = 0 ∧ s.active = 0 ∧ ∀ f, f ∉ rest → isOpen f = false) ∨
      (p = .closeReturned closeErr ∧ closed = 1 ∧ s.active = 0 ∧ ∀ f, isOpen f = false)) :
    Sound ({ s with closed := closed, closeErr := closeErr, isOpen := isOpen }.enter t p) := by
  refine ⟨running_enter h.running hrun hp, h.joined, fun hf => ?_, fun _ => ⟨t, fun t' ht' => ?_, ?_⟩⟩
  · exact absurd (hcl.symm.trans hf) (by decide : true ≠ false)
  · rw [enter_threads, if_neg ht']
    exact ⟨(h₀.others t' ht').1, (h₀.others t' ht').2.1, hothers t' ht'⟩
  · rw [enter_threads, if_pos rfl]
    exact hstage

lemma Sound.step (h : Sound s) (e : Event) : Sound (step s e) := by
  cases e with
  | call t method =>
    unfold Owner.step
    dsimp only
    split
    · next ht => exact h.borrow ht method
    · exact h
  | finish t observed =>
    unfold Owner.step
    dsimp only
    split
    · next method ht => exact h.release ⟨method, ht⟩ _
    · exact h
  | close t =>
    unfold Owner.step
    dsimp only
    split
    · next ht => exact h.beginClose ht
    · exact h
  | join t =>
    unfold Owner.step
    dsimp only
    split
    · next ht =>
      obtain ⟨hcl, _, h₀, rfl⟩ := h.first (Or.inl ht.1)
      have hactive : s.active = 0 := by
        have hj := h.joined
        by_contra hne
        rw [if_neg (fun hc => hne hc.2)] at hj
        omega
      have hclosed : s.closed = 0 := by
        obtain ⟨-, hc⟩ | ⟨_, _, hs, -⟩ | ⟨hs, -⟩ := h₀.stage
        · exact hc
        · exact absurd (ht.1.symm.trans hs) (by rintro ⟨⟩)
        · exact absurd (ht.1.symm.trans hs) (by rintro ⟨⟩)
      refine h.lead hcl (not_running_of ht.1 (by rintro _ ⟨⟩)) h₀ s.closed s.closeErr s.isOpen (by rintro _ ⟨⟩)
        (fun t' ht' => (h₀.others t' ht').2.2) (Or.inr (Or.inl ⟨_, _, rfl, hclosed, hactive, fun f hf => ?_⟩))
      cases f <;> simp at hf
    · exact h
  | closeFile t err =>
    unfold Owner.step
    dsimp only
    split
    · next f rest result ht =>
      obtain ⟨hcl, _, h₀, rfl⟩ := h.first (Or.inr ⟨_, _, ht⟩)
      have hrun := not_running_of ht (by rintro _ ⟨⟩)
      obtain ⟨hs, -⟩ | ⟨rest', result', hs, hclosed, hactive, hopen⟩ | ⟨hs, -⟩ := h₀.stage
      · exact absurd (ht.symm.trans hs) (by rintro ⟨⟩)
      · obtain ⟨rfl, rfl⟩ : f :: rest = rest' ∧ result = result' := by
          simpa using ht.symm.trans hs
        have hothers := fun t' ht' => (h₀.others t' ht').2.2
        split
        · refine h.lead hcl hrun h₀ s.closed s.closeErr _ (by rintro _ ⟨⟩) hothers
            (Or.inr (Or.inl ⟨_, _, rfl, hclosed, hactive, fun f' hf' => ?_⟩))
          rw [update_apply]
          split
          · rfl
          · next hne => exact hopen f' (by simp [hne, hf'])
        · next hclosedf =>
          refine h.lead hcl hrun h₀ s.closed s.closeErr s.isOpen (by rintro _ ⟨⟩) hothers
            (Or.inr (Or.inl ⟨_, _, rfl, hclosed, hactive, fun f' hf' => ?_⟩))
          by_cases hne : f' = f
          · rw [hne]
            simpa using hclosedf
          · exact hopen f' (by simp [hne, hf'])
      · exact absurd (ht.symm.trans hs) (by rintro ⟨⟩)
    · exact h
  | settle t =>
    unfold Owner.step
    dsimp only
    split
    · next result ht =>
      obtain ⟨hcl, _, h₀, rfl⟩ := h.first (Or.inr ⟨_, _, ht⟩)
      obtain ⟨hs, -⟩ | ⟨rest', result', hs, hclosed, hactive, hopen⟩ | ⟨hs, -⟩ := h₀.stage
      · exact absurd (ht.symm.trans hs) (by rintro ⟨⟩)
      · obtain ⟨rfl, rfl⟩ : [] = rest' ∧ result = result' := by
          simpa using ht.symm.trans hs
        refine h.lead hcl (not_running_of ht (by rintro _ ⟨⟩)) h₀ (s.closed + 1) result s.isOpen (by rintro _ ⟨⟩)
          (fun t' ht' err he => ?_) (Or.inr (Or.inr ⟨rfl, by omega, hactive, fun f => hopen f List.not_mem_nil⟩))
        have hone := ((h₀.others t' ht').2.2 err he).1
        omega
      · exact absurd (ht.symm.trans hs) (by rintro ⟨⟩)
    · exact h
  | wake t =>
    unfold Owner.step
    dsimp only
    split
    · next ht =>
      refine h.enter (Or.inr ht.1) (by rintro _ ⟨⟩) (by rintro ⟨⟩) (by rintro _ _ ⟨⟩) ?_
      rintro err ⟨⟩
      refine ⟨?_, rfl⟩
      cases hcl : s.closing with
      | false =>
        have := (h.fresh hcl).closed
        omega
      | true =>
        obtain ⟨t₀, h₀⟩ := h.closing hcl
        obtain ⟨-, hc⟩ | ⟨_, _, _, hc, -⟩ | ⟨-, hc, -⟩ := h₀.stage
        all_goals omega
    · exact h

end Invariant

section Runs

def stateAfter (access : Access) (isOpen : Descriptor → Bool) (events : List Event) : State :=
  run step (opened access isOpen) events

lemma sound_opened (access : Access) (isOpen : Descriptor → Bool) : Sound (opened access isOpen) where
  running := ⟨∅, by simp [State.Running, opened], rfl⟩
  joined := by simp [opened]
  fresh _ := ⟨rfl, fun _ => ⟨by rintro ⟨⟩, by rintro _ _ ⟨⟩, by rintro _ ⟨⟩⟩⟩
  closing h := absurd h (by decide : false ≠ true)

lemma sound_run {s : State} (h : Sound s) (events : List Event) : Sound (run step s events) :=
  run_invariant (I := Sound) (fun _ e h => h.step e) h events

variable {s : State} {t : ℕ}

lemma failed_step (h : s.failed ≠ []) (e : Event) : (step s e).failed ≠ [] := by
  cases e with
  | finish t observed =>
    unfold step
    dsimp only
    split
    · rw [release_eq]
      simp [State.enter, failedAfter, h]
    · exact h
  | call t method =>
    unfold step borrow
    dsimp only
    split_ifs <;> exact h
  | close t =>
    unfold step beginClose
    dsimp only
    split_ifs <;> exact h
  | join t | wake t =>
    unfold step
    dsimp only
    split <;> exact h
  | closeFile t err =>
    unfold step
    dsimp only
    split
    · split <;> exact h
    · exact h
  | settle t =>
    unfold step
    dsimp only
    split <;> exact h

lemma not_running_iff (h : Sound s) : s.active = 0 ↔ ∀ t, ¬ s.Running t := by
  obtain ⟨calls, hcalls, hcard⟩ := h.running
  rw [hcard, Finset.card_eq_zero, Finset.eq_empty_iff_forall_notMem]
  exact forall_congr' fun t => not_congr (hcalls t)

lemma closes_descriptor (h : Sound s) {e : Event} {f : Descriptor} (ho : s.isOpen f = true)
    (hc : (step s e).isOpen f = false) : s.active = 0 := by
  have hsame : ∀ {s' : State}, s'.isOpen = s.isOpen → s'.isOpen f = false → s.active = 0 := by
    intro s' he hf
    rw [he, ho] at hf
    exact absurd hf (by decide)
  cases e with
  | finish t observed =>
    unfold step at hc
    dsimp only at hc
    split at hc
    · rw [release_eq] at hc
      exact hsame rfl hc
    · exact hsame rfl hc
  | call t method =>
    unfold step borrow at hc
    dsimp only at hc
    split_ifs at hc <;> exact hsame rfl hc
  | close t =>
    unfold step beginClose at hc
    dsimp only at hc
    split_ifs at hc <;> exact hsame rfl hc
  | join t | wake t =>
    unfold step at hc
    dsimp only at hc
    split at hc <;> exact hsame rfl hc
  | closeFile t err =>
    unfold step at hc
    dsimp only at hc
    split at hc
    · next ht =>
      obtain ⟨-, _, h₀, rfl⟩ := h.first (Or.inr ⟨_, _, ht⟩)
      obtain ⟨hs, -⟩ | ⟨_, _, _, _, hactive, _⟩ | ⟨hs, -⟩ := h₀.stage
      · exact absurd (ht.symm.trans hs) (by rintro ⟨⟩)
      · exact hactive
      · exact absurd (ht.symm.trans hs) (by rintro ⟨⟩)
    · exact hsame rfl hc
  | settle t =>
    unfold step at hc
    dsimp only at hc
    split at hc <;> exact hsame rfl hc

lemma closed_of_closingFiles (h : Sound s) {rest : List Descriptor} {result : Error}
    (ht : s.threads t = .closingFiles rest result) : ∃ events, (run step s events).closed = 1 := by
  induction rest generalizing s result with
  | nil =>
    refine ⟨[.settle t], ?_⟩
    obtain ⟨-, _, h₀, rfl⟩ := h.first (Or.inr ⟨_, _, ht⟩)
    obtain ⟨hs, -⟩ | ⟨_, _, _, hclosed, _⟩ | ⟨hs, -⟩ := h₀.stage
    · exact absurd (ht.symm.trans hs) (by rintro ⟨⟩)
    · simp [step, ht, State.enter, hclosed]
    · exact absurd (ht.symm.trans hs) (by rintro ⟨⟩)
  | cons f rest ih =>
    have hnext : ∃ result', (step s (.closeFile t [])).threads t = .closingFiles rest result' := by
      simp only [step, ht]
      split
      · exact ⟨_, by rw [enter_threads, if_pos rfl]⟩
      · exact ⟨_, by rw [enter_threads, if_pos rfl]⟩
    obtain ⟨result', hnext⟩ := hnext
    obtain ⟨events, hev⟩ := ih (h.step (.closeFile t [])) hnext
    exact ⟨.closeFile t [] :: events, hev⟩

lemma joined_of_closed (h : Sound s) (hc : s.closed = 1) : s.joined = 1 ∧ s.closing = true := by
  cases hcl : s.closing with
  | false =>
    have := (h.fresh hcl).closed
    omega
  | true =>
    obtain ⟨t₀, h₀⟩ := h.closing hcl
    have hj := h.joined
    obtain ⟨-, hz⟩ | ⟨_, _, _, hz, -⟩ | ⟨-, -, ha, -⟩ := h₀.stage
    · omega
    · omega
    · rw [if_pos ⟨hcl, ha⟩] at hj
      exact ⟨hj, rfl⟩

structure Guarantees (s : State) : Prop where
  once : s.joined ≤ 1 ∧ s.closed ≤ 1
  joined_iff : s.joined = 1 ↔ s.closing = true ∧ ∀ t, ¬ s.Running t
  no_borrow : s.closing = true → ∀ t method, (step s (.call t method)).Running t → s.Running t
  guarded : ∀ e f, s.isOpen f = true → (step s e).isOpen f = false → ∀ t, ¬ s.Running t
  close_returns : ∀ t err, s.threads t = .closeReturned err →
    s.joined = 1 ∧ s.closed = 1 ∧ (∀ f, s.isOpen f = false) ∧ err = s.closeErr
  close_ends : s.closing = true → (∀ t, ¬ s.Running t) →
    ∃ events, (run step s events).joined = 1 ∧ (run step s events).closed = 1
  failure_sticks : ∀ t method observed, s.threads t = .running method → .identity ∈ verdict s.access method observed →
    ∀ later t' observed', (run step (step s (.finish t observed)) later).Running t' →
      ∃ err ≠ [], (step (run step (step s (.finish t observed)) later) (.finish t' observed')).threads t' = .returned err

lemma guarantees_of_sound (h : Sound s) : Guarantees s where
  once := by
    refine ⟨?_, ?_⟩
    · rw [h.joined]
      split <;> omega
    · cases hcl : s.closing with
      | false =>
        have := (h.fresh hcl).closed
        omega
      | true =>
        obtain ⟨t₀, h₀⟩ := h.closing hcl
        obtain ⟨-, hz⟩ | ⟨_, _, _, hz, -⟩ | ⟨-, hz, -⟩ := h₀.stage
        all_goals omega
  joined_iff := by
    rw [h.joined, ← not_running_iff h]
    split
    · next hc => simp [hc]
    · next hc => simp [hc]
  no_borrow := by
    intro hcl t method hrun
    unfold step borrow at hrun
    dsimp only at hrun
    split at hrun
    · rw [State.Running, enter_threads, if_pos rfl] at hrun
      simp at hrun
    · exact hrun
  guarded e f ho hc := (not_running_iff h).mp (closes_descriptor h ho hc)
  close_returns := by
    intro t err ht
    have hcl : s.closing = true := by
      by_contra hne
      exact ((h.fresh (by simpa using hne)).threads t).2.2 err ht
    obtain ⟨t₀, h₀⟩ := h.closing hcl
    have hone : s.closed = 1 ∧ err = s.closeErr := by
      by_cases he : t = t₀
      · subst he
        obtain ⟨hs, -⟩ | ⟨_, _, hs, -⟩ | ⟨hs, hc, -⟩ := h₀.stage
        · exact absurd (ht.symm.trans hs) (by rintro ⟨⟩)
        · exact absurd (ht.symm.trans hs) (by rintro ⟨⟩)
        · exact ⟨hc, by simpa using ht.symm.trans hs⟩
      · exact (h₀.others t he).2.2 err ht
    obtain ⟨-, hz⟩ | ⟨_, _, _, hz, -⟩ | ⟨-, -, -, hopen⟩ := h₀.stage
    · omega
    · omega
    · exact ⟨(joined_of_closed h hone.1).1, hone.1, hopen, hone.2⟩
  close_ends := by
    intro hcl hrun
    have hactive := (not_running_iff h).mpr hrun
    obtain ⟨t₀, h₀⟩ := h.closing hcl
    suffices hs : ∃ events, (run step s events).closed = 1 by
      obtain ⟨events, hev⟩ := hs
      exact ⟨events, (joined_of_closed (sound_run h events) hev).1, hev⟩
    obtain ⟨hs, -⟩ | ⟨_, _, hs, -⟩ | ⟨-, hc, -⟩ := h₀.stage
    · have hj := h.joined
      rw [if_pos ⟨hcl, hactive⟩] at hj
      have hnext : (step s (.join t₀)).threads t₀ =
          .closingFiles [.rootFile, .leaseFile, .markerFile, .mountFile] [] := by
        simp only [step]
        rw [if_pos ⟨hs, by omega⟩, enter_threads, if_pos rfl]
      obtain ⟨events, hev⟩ := closed_of_closingFiles (h.step (.join t₀)) hnext
      exact ⟨.join t₀ :: events, hev⟩
    · exact closed_of_closingFiles h hs
    · exact ⟨[], hc⟩
  failure_sticks := by
    intro t method observed ht hid later t' observed' hrun
    have hfailed : (step s (.finish t observed)).failed ≠ [] := by
      simp only [step, ht, release_eq, State.enter, failedAfter]
      split
      · exact List.ne_nil_of_mem hid
      · next hne => exact fun he => hne ⟨hid, he⟩
    have hlater := run_invariant (I := fun s : State => s.failed ≠ []) (fun _ e h => failed_step h e) hfailed later
    generalize run step (step s (.finish t observed)) later = s' at hrun hlater ⊢
    obtain ⟨method', hm⟩ := hrun
    simp only [step, hm, release_eq, enter_threads, if_true]
    refine ⟨_, ?_, rfl⟩
    simp [failedAfter, hlater]

/-- Checks of an owner outrun neither a loss of identity nor a close. -/
theorem checks_join_close (access : Access) (isOpen : Descriptor → Bool) (events : List Event) :
    Guarantees (stateAfter access isOpen events) :=
  guarantees_of_sound (sound_run (sound_opened access isOpen) events)

end Runs

end UrConnect.DurableVolume.Owner
