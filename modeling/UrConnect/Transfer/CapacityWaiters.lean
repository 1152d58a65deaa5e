import Mathlib
import UrConnect.Transfer.MemoryBudget

/-! The pass that hands freed capacity to the waiters of a budget tree, in the order they registered. -/

namespace UrConnect.Transfer

/-- `address` tells waiters apart; `notify` is the token that the waiter has not taken yet. -/
structure TransferMemoryBudgetWaiter where
  address : ℕ
  budget : ℕ
  requiredByteCount : ℤ
  notify : Bool
deriving DecidableEq

structure TransferMemoryBudgetWaitScratch where
  grantedByteCount : ℤ
  blocked : Bool

inductive Turn where
  | notified
  | pending
  | holding
  | left
deriving DecidableEq

namespace BudgetTree

abbrev WaitScratch := ℕ → TransferMemoryBudgetWaitScratch

section Model

variable (t : BudgetTree)

def capacityLeft (scratch : WaitScratch) (b : ℕ) : ℤ :=
  max 0 ((t.budget b).totalByteCount - (t.budget b).usedByteCount - (scratch b).grantedByteCount)

def required (waiter : TransferMemoryBudgetWaiter) : ℤ := max 0 waiter.requiredByteCount

def path (waiter : TransferMemoryBudgetWaiter) : List ℕ := t.chain waiter.budget

def eligible (scratch : WaitScratch) (waiter : TransferMemoryBudgetWaiter) : Bool :=
  (t.path waiter).all fun b => !decide (t.capacityLeft scratch b < required waiter)

def isBlocked (scratch : WaitScratch) (waiter : TransferMemoryBudgetWaiter) : Bool :=
  (t.path waiter).any fun b => (scratch b).blocked

def impossible (waiter : TransferMemoryBudgetWaiter) : Bool :=
  (t.path waiter).any fun b => decide ((t.budget b).totalByteCount < required waiter)

def turn (scratch : WaitScratch) (waiter : TransferMemoryBudgetWaiter) : Turn :=
  if t.eligible scratch waiter && (!t.isBlocked scratch waiter || decide (required waiter = 0)) then
    if waiter.notify then .pending else .notified
  else if !t.eligible scratch waiter && !t.isBlocked scratch waiter && !t.impossible waiter then .holding
  else .left

def scratchAfter (scratch : WaitScratch) (waiter : TransferMemoryBudgetWaiter) : WaitScratch := fun b =>
  match t.turn scratch waiter with
  | .notified =>
    if b ∈ t.path waiter then
      { scratch b with grantedByteCount := (scratch b).grantedByteCount + required waiter }
    else scratch b
  | .holding =>
    if b ∈ t.path waiter ∧ t.capacityLeft scratch b < required waiter then { scratch b with blocked := true }
    else scratch b
  | .pending => scratch b
  | .left => scratch b

def passWaiters : WaitScratch → List TransferMemoryBudgetWaiter → List (TransferMemoryBudgetWaiter × Turn)
  | _, [] => []
  | scratch, waiter :: waiters =>
    (waiter, t.turn scratch waiter) :: passWaiters (t.scratchAfter scratch waiter) waiters

def notifyEligibleCapacityWaiters (root : ℕ) (waiters : List TransferMemoryBudgetWaiter) :
    List (TransferMemoryBudgetWaiter × Turn) :=
  if t.available root ≤ 0 then waiters.map fun waiter => (waiter, .left)
  else t.passWaiters (fun _ => ⟨0, false⟩) waiters

end Model

section Spec

variable (t : BudgetTree)

def notifiedByteCount (turns : List (TransferMemoryBudgetWaiter × Turn)) (b : ℕ) : ℤ :=
  ((turns.filter fun w => w.2 = .notified && decide (b ∈ t.path w.1)).map fun w => required w.1).sum

def Lacks (before : List (TransferMemoryBudgetWaiter × Turn)) (waiter : TransferMemoryBudgetWaiter) (b : ℕ) : Prop :=
  max 0 ((t.budget b).totalByteCount - (t.budget b).usedByteCount - t.notifiedByteCount before b) < required waiter

def Fits (waiter : TransferMemoryBudgetWaiter) : Prop :=
  ∀ b ∈ t.path waiter, required waiter ≤ (t.budget b).totalByteCount

def Held : List (TransferMemoryBudgetWaiter × Turn) → ℕ → Prop
  | [], _ => False
  | w :: before, b => Held before b ∨
      (t.Fits w.1 ∧ w.2 ≠ .notified ∧ b ∈ t.path w.1 ∧ t.Lacks before w.1 b ∧ ∀ a ∈ t.path w.1, ¬ Held before a)

instance (waiter : TransferMemoryBudgetWaiter) : Decidable (t.Fits waiter) :=
  inferInstanceAs (Decidable (∀ b ∈ t.path waiter, required waiter ≤ (t.budget b).totalByteCount))

instance (before : List (TransferMemoryBudgetWaiter × Turn)) (waiter : TransferMemoryBudgetWaiter) (b : ℕ) :
    Decidable (t.Lacks before waiter b) :=
  inferInstanceAs (Decidable (_ < _))

end Spec

section Pass

variable {t : BudgetTree} {scratch : WaitScratch} {past : List (TransferMemoryBudgetWaiter × Turn)}
  {waiter : TransferMemoryBudgetWaiter} {b : ℕ}

lemma required_nonneg (waiter : TransferMemoryBudgetWaiter) : 0 ≤ required waiter := le_max_left 0 _

structure Traces (t : BudgetTree) (past : List (TransferMemoryBudgetWaiter × Turn)) (scratch : WaitScratch) : Prop where
  granted : ∀ b, (scratch b).grantedByteCount = t.notifiedByteCount past b
  blocked : ∀ b, (scratch b).blocked = true ↔ t.Held past b
  within : ∀ b, t.notifiedByteCount past b ≤ max 0 ((t.budget b).totalByteCount - (t.budget b).usedByteCount)

lemma traces_nil (t : BudgetTree) : Traces t [] fun _ => ⟨0, false⟩ where
  granted _ := rfl
  blocked _ := ⟨nofun, False.elim⟩
  within _ := le_max_left 0 _

lemma notifiedByteCount_cons (t : BudgetTree) (w : TransferMemoryBudgetWaiter × Turn)
    (past : List (TransferMemoryBudgetWaiter × Turn)) (b : ℕ) :
    t.notifiedByteCount (w :: past) b =
      (if w.2 = .notified ∧ b ∈ t.path w.1 then required w.1 else 0) + t.notifiedByteCount past b := by
  rw [notifiedByteCount, List.filter_cons]
  by_cases hw : w.2 = .notified ∧ b ∈ t.path w.1
  · rw [if_pos (by simpa using hw), if_pos hw, List.map_cons, List.sum_cons, notifiedByteCount]
  · rw [if_neg (by simpa using hw), if_neg hw, Int.zero_add, notifiedByteCount]

lemma notifiedByteCount_reverse (t : BudgetTree) (past : List (TransferMemoryBudgetWaiter × Turn)) (b : ℕ) :
    t.notifiedByteCount past.reverse b = t.notifiedByteCount past b :=
  (((past.reverse_perm).filter _).map _).sum_eq

lemma Traces.lacks (h : Traces t past scratch) :
    t.Lacks past waiter b ↔ t.capacityLeft scratch b < required waiter := by
  rw [Lacks, capacityLeft, h.granted]

lemma eligible_iff : t.eligible scratch waiter = true ↔ ∀ b ∈ t.path waiter, required waiter ≤ t.capacityLeft scratch b := by
  simp [eligible]

lemma Traces.eligible (h : Traces t past scratch) :
    t.eligible scratch waiter = true ↔ ∀ b ∈ t.path waiter, ¬ t.Lacks past waiter b := by
  rw [eligible_iff]
  simp only [h.lacks, not_lt]

lemma Traces.isBlocked (h : Traces t past scratch) :
    t.isBlocked scratch waiter = true ↔ ∃ b ∈ t.path waiter, t.Held past b := by
  simp [BudgetTree.isBlocked, h.blocked]

lemma impossible_iff : t.impossible waiter = true ↔ ¬ t.Fits waiter := by
  simp [impossible, Fits]

inductive Takes (t : BudgetTree) (past : List (TransferMemoryBudgetWaiter × Turn)) (waiter : TransferMemoryBudgetWaiter) :
    Turn → Prop
  | notified (eligible : ∀ b ∈ t.path waiter, ¬ t.Lacks past waiter b)
      (free : required waiter = 0 ∨ ∀ b ∈ t.path waiter, ¬ t.Held past b) : Takes t past waiter .notified
  | pending (eligible : ∀ b ∈ t.path waiter, ¬ t.Lacks past waiter b) : Takes t past waiter .pending
  | holding (free : ∀ b ∈ t.path waiter, ¬ t.Held past b) (fits : t.Fits waiter) : Takes t past waiter .holding
  | left (quiet : (∀ b ∈ t.path waiter, ¬ t.Lacks past waiter b) ∨ (∃ b ∈ t.path waiter, t.Held past b) ∨
      ¬ t.Fits waiter) : Takes t past waiter .left

lemma Traces.takes (h : Traces t past scratch) (waiter : TransferMemoryBudgetWaiter) :
    Takes t past waiter (t.turn scratch waiter) := by
  rw [turn]
  split
  · rename_i hgo
    rw [Bool.and_eq_true, h.eligible] at hgo
    obtain ⟨heligible, hfree⟩ := hgo
    split
    · exact .pending heligible
    · refine .notified heligible ?_
      rw [Bool.or_eq_true, decide_eq_true_eq, Bool.not_eq_true', ← Bool.not_eq_true, h.isBlocked] at hfree
      push Not at hfree
      exact hfree.symm
  split
  · rename_i hhold
    simp only [Bool.and_eq_true, Bool.not_eq_true', ← Bool.not_eq_true, h.isBlocked, impossible_iff, not_not] at hhold
    push Not at hhold
    exact .holding hhold.1.2 hhold.2
  · rename_i hno hleft
    refine .left ?_
    by_cases heligible : t.eligible scratch waiter = true
    · exact .inl (h.eligible.mp heligible)
    · by_cases hblocked : t.isBlocked scratch waiter = true
      · exact .inr (.inl (h.isBlocked.mp hblocked))
      · refine .inr (.inr (impossible_iff.mp ?_))
        by_contra himpossible
        simp [heligible, hblocked, himpossible] at hleft

lemma Traces.quiet (h : Traces t past scratch) {turn : Turn} (hturn : turn ≠ .notified)
    (hquiet : (∀ b ∈ t.path waiter, ¬ t.Lacks past waiter b) ∨ (∃ b ∈ t.path waiter, t.Held past b) ∨ ¬ t.Fits waiter) :
    Traces t ((waiter, turn) :: past) scratch := by
  have hcount (b : ℕ) : t.notifiedByteCount ((waiter, turn) :: past) b = t.notifiedByteCount past b := by
    rw [notifiedByteCount_cons, if_neg (fun hn => hturn hn.1), Int.zero_add]
  refine ⟨fun b => (h.granted b).trans (hcount b).symm, fun b => ?_, fun b => hcount b ▸ h.within b⟩
  rw [h.blocked, Held]
  refine ⟨.inl, fun hheld => hheld.resolve_right ?_⟩
  rintro ⟨hfits, -, hb, hlacks, hfree⟩
  rcases hquiet with heligible | ⟨a, ha, hheld⟩ | hnot
  · exact heligible b hb hlacks
  · exact hfree a ha hheld
  · exact hnot hfits

lemma traces_step (h : Traces t past scratch) (waiter : TransferMemoryBudgetWaiter) :
    Traces t ((waiter, t.turn scratch waiter) :: past) (t.scratchAfter scratch waiter) := by
  have htakes := h.takes waiter
  have hafter : t.scratchAfter scratch waiter = fun b => match t.turn scratch waiter with
      | .notified => if b ∈ t.path waiter then
          { scratch b with grantedByteCount := (scratch b).grantedByteCount + required waiter } else scratch b
      | .holding => if b ∈ t.path waiter ∧ t.capacityLeft scratch b < required waiter then
          { scratch b with blocked := true } else scratch b
      | .pending => scratch b
      | .left => scratch b := rfl
  rw [hafter]
  generalize t.turn scratch waiter = turn at htakes
  cases htakes with
  | pending heligible => exact h.quiet (by simp) (.inl heligible)
  | left hquiet => exact h.quiet (by simp) hquiet
  | notified heligible _ =>
    refine ⟨fun b => ?_, fun b => ?_, fun b => ?_⟩
    · rw [notifiedByteCount_cons]
      by_cases hb : b ∈ t.path waiter
      · simp only [hb, if_true, and_self, h.granted]
        exact Int.add_comm _ _
      · simp [hb, h.granted]
    · rw [Held]
      by_cases hb : b ∈ t.path waiter <;> simp [hb, h.blocked]
    · rw [notifiedByteCount_cons]
      have hwithin := h.within b
      split
      · rename_i hb
        have hlacks := heligible b hb.2
        have hnonneg := required_nonneg waiter
        rw [Lacks, not_lt] at hlacks
        simp only at hlacks ⊢
        omega
      · rw [Int.zero_add]
        exact hwithin
  | holding hfree hfits =>
    have hcount (b : ℕ) : t.notifiedByteCount ((waiter, .holding) :: past) b = t.notifiedByteCount past b := by
      simp [notifiedByteCount_cons]
    refine ⟨fun b => ?_, fun b => ?_, fun b => hcount b ▸ h.within b⟩
    · rw [hcount, ← h.granted]
      dsimp only
      split <;> rfl
    · rw [Held, ← h.blocked]
      dsimp only
      split
      · rename_i hb
        exact iff_of_true rfl (.inr ⟨hfits, by simp, hb.1, h.lacks.mpr hb.2, hfree⟩)
      · rename_i hb
        refine ⟨.inl, fun hheld => hheld.resolve_right ?_⟩
        rintro ⟨-, -, hmem, hlacks, -⟩
        exact hb ⟨hmem, h.lacks.mp hlacks⟩

lemma held_append (turns : List (TransferMemoryBudgetWaiter × Turn)) (h : t.Held past b) : t.Held (turns ++ past) b := by
  induction turns with
  | nil => exact h
  | cons w turns ih => exact .inl ih

lemma passWaiters_fst (t : BudgetTree) (scratch : WaitScratch) (waiters : List TransferMemoryBudgetWaiter) :
    (t.passWaiters scratch waiters).map Prod.fst = waiters := by
  induction waiters generalizing scratch with
  | nil => rfl
  | cons waiter waiters ih => rw [passWaiters, List.map_cons, ih]

lemma traces_pass (h : Traces t past scratch) (waiters : List TransferMemoryBudgetWaiter) :
    (∀ b, t.notifiedByteCount ((t.passWaiters scratch waiters).reverse ++ past) b ≤
      max 0 ((t.budget b).totalByteCount - (t.budget b).usedByteCount)) ∧
    ∀ before w after, t.passWaiters scratch waiters = before ++ w :: after → Takes t (before.reverse ++ past) w.1 w.2 := by
  induction waiters generalizing past scratch with
  | nil => exact ⟨h.within, fun before w after heq => by simp [passWaiters] at heq⟩
  | cons waiter waiters ih =>
    obtain ⟨hwithin, htakes⟩ := ih (traces_step h waiter)
    rw [passWaiters]
    refine ⟨fun b => ?_, fun before w after heq => ?_⟩
    · simpa using hwithin b
    · cases before with
      | nil =>
        obtain ⟨rfl, -⟩ := List.cons.inj heq
        exact h.takes waiter
      | cons first before =>
        obtain ⟨rfl, hrest⟩ := List.cons.inj heq
        simpa using htakes before w after hrest

end Pass

def sampleTree (childUsed rootUsed : ℤ) : BudgetTree :=
  (((BudgetTree.empty.newTransferMemoryBudgetWithParent 100 none).newTransferMemoryBudgetWithParent 50
    (some ⟨0, Nat.zero_lt_one⟩)).reserve 1 childUsed).reserve 0 rootUsed

def sampleWaiter (address budget : ℕ) (requiredByteCount : ℤ) : TransferMemoryBudgetWaiter :=
  ⟨address, budget, requiredByteCount, false⟩

end BudgetTree

end UrConnect.Transfer
