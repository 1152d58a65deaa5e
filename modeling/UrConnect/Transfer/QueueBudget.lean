import UrConnect.Transfer.BudgetAdmission
import UrConnect.Transfer.Queue

/-! Queues that borrow from one standalone budget. -/

namespace UrConnect.Transfer

open UrConnect.Lib UrConnect.Lib.Runs

structure BudgetTree.Shifted (t t' : BudgetTree) (b : ℕ) (borrowed floor : ℤ) : Prop where
  alone : t'.requiresAdmissionLock b = t.requiresAdmissionLock b
  used_eq : (t'.budget b).usedByteCount = (t.budget b).usedByteCount + borrowed
  net_eq : (t'.budget b).reservedByteCount - (t'.budget b).releasedByteCount =
    (t.budget b).reservedByteCount - (t.budget b).releasedByteCount + borrowed
  floor_eq : (t'.budget b).floorByteCount = (t.budget b).floorByteCount + floor

namespace BudgetTree

variable {t t' t'' : BudgetTree} {b : ℕ}

lemma Shifted.refl (t : BudgetTree) (b : ℕ) : Shifted t t b 0 0 := by
  constructor <;> simp

lemma Shifted.trans {m n f g : ℤ} (h : Shifted t t' b m f) (h' : Shifted t' t'' b n g) :
    Shifted t t'' b (m + n) (f + g) where
  alone := h'.alone.trans h.alone
  used_eq := by rw [h'.used_eq, h.used_eq, add_assoc]
  net_eq := by rw [h'.net_eq, h.net_eq, add_assoc]
  floor_eq := by rw [h'.floor_eq, h.floor_eq, add_assoc]

lemma reserve_shifted (h : t.requiresAdmissionLock b = false) (n : ℤ) :
    Shifted t (t.reserve b n) b n 0 := by
  rw [reserve, if_pos h]
  refine ⟨rfl, ?_, ?_, ?_⟩ <;> simp only [modify_budget, if_true, TransferMemoryBudget.reserveByteCount]
  · omega
  · omega

lemma release_shifted (h : t.requiresAdmissionLock b = false) (n : ℤ) :
    Shifted t (t.release b n) b (-n) 0 := by
  rw [release, if_pos h]
  refine ⟨rfl, ?_, ?_, ?_⟩ <;> simp only [modify_budget, if_true, TransferMemoryBudget.releaseByteCount]
  · omega
  · omega
  · omega

lemma addFloor_shifted (t : BudgetTree) (b : ℕ) (n : ℤ) : Shifted t (t.addFloor b n) b 0 (max 0 n) := by
  refine ⟨rfl, ?_, ?_, ?_⟩ <;> simp [addFloor, modify_budget]

lemma removeFloor_shifted (t : BudgetTree) (b : ℕ) (n : ℤ) :
    Shifted t (t.removeFloor b n) b 0 (-max 0 n) := by
  refine ⟨rfl, ?_, ?_, ?_⟩ <;> simp [removeFloor, modify_budget, sub_eq_add_neg]

end BudgetTree

variable {T : Type}

structure TransferQueue.Settled (q : TransferQueue T) (b : ℕ) : Prop where
  budget_eq : q.budget = some b
  legacy : q.lifetimeBudget = false
  floor_nonneg : 0 ≤ q.minByteCount
  borrowed_eq : q.borrowedByteCount = max 0 (q.queueByteCount - q.minByteCount)

def TransferQueue.floor (q : TransferQueue T) : ℤ := if q.floorRegistered then q.minByteCount else 0

namespace Pooled

open TransferQueue BudgetTree

structure Settles (p p' : Pooled T) (b : ℕ) : Prop where
  settled : p'.queue.Settled b
  shifted : Shifted p.pool p'.pool b (p'.queue.borrowedByteCount - p.queue.borrowedByteCount)
    (p'.queue.floor - p.queue.floor)

variable {p : Pooled T} {b : ℕ}

lemma borrow_settles (hb : p.queue.budget = some b) (hl : p.queue.lifetimeBudget = false)
    (hf : 0 ≤ p.queue.minByteCount) (ha : p.pool.requiresAdmissionLock b = false) {target : ℤ}
    (ht : target = max 0 (p.queue.queueByteCount - p.queue.minByteCount)) :
    Settles p (p.borrow target) b := by
  unfold borrow
  simp only [hb, hl, Bool.false_eq_true, if_false]
  split
  · refine ⟨⟨rfl, rfl, hf, ht⟩, ?_⟩
    have := release_shifted ha (p.queue.borrowedByteCount - target)
    simpa [floor] using this
  split
  · refine ⟨⟨rfl, rfl, hf, ht⟩, ?_⟩
    have := reserve_shifted ha (target - p.queue.borrowedByteCount)
    simpa [floor] using this
  · refine ⟨⟨hb, hl, hf, by omega⟩, ?_⟩
    simpa using Shifted.refl p.pool b

lemma updateByteCount_settles (hb : p.queue.budget = some b) (hl : p.queue.lifetimeBudget = false)
    (hf : 0 ≤ p.queue.minByteCount) (ha : p.pool.requiresAdmissionLock b = false)
    (delta deltaQueue : ℤ) : Settles p (p.updateByteCount delta deltaQueue) b := by
  have h := borrow_settles (p := { p with queue := { p.queue with
    byteCount := p.queue.byteCount + delta
    queueByteCount := p.queue.queueByteCount + deltaQueue } }) hb hl hf ha rfl
  exact ⟨h.settled, h.shifted⟩

lemma add_settles [TransferQueueItem T] (h : p.queue.Settled b) (ha : p.pool.requiresAdmissionLock b = false) (item : T) :
    Settles p (p.add item) b := by
  have hs := updateByteCount_settles (p := { p with queue := p.queue.link item }) h.budget_eq h.legacy
    h.floor_nonneg ha (TransferQueueItem.messageByteCount item) (TransferQueueItem.queueByteCount item)
  exact ⟨hs.settled, hs.shifted⟩

lemma remove_settles [TransferQueueItem T] (h : p.queue.Settled b) (ha : p.pool.requiresAdmissionLock b = false) (item : T) :
    Settles p (p.remove item) b := by
  have hs := updateByteCount_settles (p := { p with queue := p.queue.unlink item }) h.budget_eq h.legacy
    h.floor_nonneg ha (-TransferQueueItem.messageByteCount item) (-TransferQueueItem.queueByteCount item)
  exact ⟨hs.settled, hs.shifted⟩

lemma removeFound_settles [TransferQueueItem T] (h : p.queue.Settled b) (ha : p.pool.requiresAdmissionLock b = false)
    (found : Option T) : Settles p (p.removeFound found).2 b := by
  cases found with
  | none => exact ⟨h, by simpa [removeFound] using Shifted.refl p.pool b⟩
  | some item => exact remove_settles h ha item

lemma clear_settles (h : p.queue.Settled b) (ha : p.pool.requiresAdmissionLock b = false) :
    Settles p p.clear.2 b ∧ p.clear.2.queue.floorRegistered = false ∧
      p.clear.2.queue.queueByteCount = 0 := by
  have hs := updateByteCount_settles (p := { p with queue := p.queue.emptied }) h.budget_eq h.legacy
    h.floor_nonneg ha (-p.queue.byteCount) (-p.queue.queueByteCount)
  obtain ⟨n, hn⟩ := updateByteCount_queue { p with queue := p.queue.emptied } (-p.queue.byteCount)
    (-p.queue.queueByteCount)
  have hzero : p.queue.emptied.queueByteCount + -p.queue.queueByteCount = 0 := add_neg_cancel _
  unfold clear
  simp only [h.budget_eq]
  split
  · rename_i hr
    refine ⟨⟨⟨hs.settled.budget_eq, hs.settled.legacy, hs.settled.floor_nonneg,
      hs.settled.borrowed_eq⟩, ?_⟩, rfl, ?_⟩
    · have hf := hs.shifted.trans (removeFloor_shifted _ b p.queue.minByteCount)
      have hkept : ((Pooled.mk p.queue.emptied p.pool).updateByteCount (-p.queue.byteCount)
          (-p.queue.queueByteCount)).queue.floor = p.queue.minByteCount := by
        rw [hn]
        exact if_pos hr
      have hmine : p.queue.floor = p.queue.minByteCount := if_pos hr
      have hmax : max 0 p.queue.minByteCount = p.queue.minByteCount := max_eq_right h.floor_nonneg
      rw [hkept, hmax, add_zero] at hf
      simpa [floor, hmine, emptied, hr] using hf
    · rw [hn]
      exact hzero
  · rename_i hr
    refine ⟨⟨hs.settled, hs.shifted⟩, ?_, ?_⟩
    · rw [hn]
      simpa [recount, emptied] using hr
    · rw [hn]
      exact hzero

end Pooled

/-- A queue attached to the shared budget; `cleared` once `Clear` was called on it, `idle`
while `Clear` is the last operation on it. -/
structure Member (T : Type) where
  queue : TransferQueue T
  cleared : Bool
  idle : Bool

structure Sharing (T : Type) where
  pool : BudgetTree
  members : List (Member T)

namespace Sharing

open TransferQueue BudgetTree Pooled

inductive Call (T : Type) where
  | setBudget (minByteCount : ℕ)
  | add (k : ℕ) (item : T)
  | removeByMessageId (k : ℕ) (id : Id)
  | removeBySequenceNumber (k : ℕ) (n : ℕ)
  | removeFirst (k : ℕ)
  | clear (k : ℕ)

def start (totalByteCount : ℤ) : Sharing T where
  pool := BudgetTree.empty.newTransferMemoryBudgetWithParent totalByteCount none
  members := []

def update (s : Sharing T) (k : ℕ) (clear : Bool) (f : Pooled T → Pooled T) : Sharing T :=
  match s.members[k]? with
  | none => s
  | some m =>
    let p := f ⟨m.queue, s.pool⟩
    ⟨p.pool, s.members.set k ⟨p.queue, m.cleared || clear, clear⟩⟩

def step [TransferQueueItem T] (s : Sharing T) : Call T → Sharing T
  | .setBudget minByteCount =>
    let p := (Pooled.mk newTransferQueue s.pool).setBudget (some 0) minByteCount
    ⟨p.pool, s.members ++ [⟨p.queue, false, false⟩]⟩
  | .add k item => s.update k false fun p => p.add item
  | .removeByMessageId k id => s.update k false fun p => (p.removeByMessageId id).2
  | .removeBySequenceNumber k n => s.update k false fun p => (p.removeBySequenceNumber n).2
  | .removeFirst k => s.update k false fun p => p.removeFirst.2
  | .clear k => s.update k true fun p => p.clear.2

structure MemberOk (m : Member T) : Prop where
  settled : m.queue.Settled 0
  registered_eq : m.queue.floorRegistered = !m.cleared
  idle_empty : m.idle = true → m.cleared = true ∧ m.queue.queueByteCount = 0

structure Ok (s : Sharing T) : Prop where
  alone : s.pool.requiresAdmissionLock 0 = false
  members : ∀ m ∈ s.members, MemberOk m
  used_eq : (s.pool.budget 0).usedByteCount = (s.members.map fun m => m.queue.borrowedByteCount).sum
  net_eq : (s.pool.budget 0).reservedByteCount - (s.pool.budget 0).releasedByteCount =
    (s.pool.budget 0).usedByteCount
  floor_eq : (s.pool.budget 0).floorByteCount = (s.members.map fun m => m.queue.floor).sum

variable {s : Sharing T}

lemma ok_start (totalByteCount : ℤ) : Ok (start totalByteCount : Sharing T) := by
  constructor <;> simp [start, newTransferMemoryBudgetWithParent, requiresAdmissionLock, BudgetTree.empty,
    Forest.graft, TransferMemoryBudget.newTransferMemoryBudget]

lemma ok_setBudget [TransferQueueItem T] (h : Ok s) (minByteCount : ℕ) : Ok (s.step (.setBudget minByteCount)) := by
  have hs := addFloor_shifted s.pool 0 minByteCount
  have hmax : max 0 (minByteCount : ℤ) = minByteCount := max_eq_right (by omega)
  simp only [step, Pooled.setBudget, newTransferQueue]
  refine ⟨hs.alone.trans h.alone, fun m hm => ?_, ?_, ?_, ?_⟩
  · rcases List.mem_append.mp hm with hm | hm
    · exact h.members m hm
    · cases List.mem_singleton.mp hm
      exact ⟨⟨rfl, rfl, by simp, by simp⟩, rfl, by simp⟩
  · simpa [h.used_eq] using hs.used_eq
  · have hn := hs.net_eq
    have hu := hs.used_eq
    have := h.net_eq
    simp only at hn hu ⊢
    omega
  · have hf := hs.floor_eq
    rw [hmax] at hf
    simpa [h.floor_eq, floor] using hf

lemma sum_set {f : Member T → ℤ} {ms : List (Member T)} {k : ℕ} {m m' : Member T}
    (hm : ms[k]? = some m) : ((ms.set k m').map f).sum = (ms.map f).sum + (f m' - f m) := by
  obtain ⟨hk, rfl⟩ := List.getElem?_eq_some_iff.mp hm
  rw [List.map_set, List.sum_set', dif_pos (by simpa using hk)]
  simp only [List.getElem_map]
  omega

lemma ok_update (h : Ok s) (k : ℕ) (clear : Bool) {f : Pooled T → Pooled T}
    (hf : ∀ p : Pooled T, p.queue.Settled 0 → p.pool.requiresAdmissionLock 0 = false →
      Settles p (f p) 0 ∧
        if clear then (f p).queue.floorRegistered = false ∧ (f p).queue.queueByteCount = 0
        else (f p).queue.floorRegistered = p.queue.floorRegistered) :
    Ok (s.update k clear f) := by
  unfold update
  split
  · exact h
  · rename_i m hm
    have hmem := h.members m (List.mem_of_getElem? hm)
    obtain ⟨hs, hc⟩ := hf ⟨m.queue, s.pool⟩ hmem.settled h.alone
    refine ⟨hs.shifted.alone.trans h.alone, fun x hx => ?_, ?_, ?_, ?_⟩
    · rcases List.mem_or_eq_of_mem_set hx with hx | rfl
      · exact h.members x hx
      · cases clear with
        | true => exact ⟨hs.settled, by simpa using hc.1, by simpa using hc.2⟩
        | false => exact ⟨hs.settled, by simpa using hc.trans hmem.registered_eq, by simp⟩
    · rw [hs.shifted.used_eq, h.used_eq, sum_set hm]
    · have hn := hs.shifted.net_eq
      have hu := hs.shifted.used_eq
      have := h.net_eq
      simp only at hn hu ⊢
      omega
    · rw [hs.shifted.floor_eq, h.floor_eq, sum_set hm]

lemma removeFound_registered [TransferQueueItem T] (p : Pooled T) (found : Option T) :
    (p.removeFound found).2.queue.floorRegistered = p.queue.floorRegistered := by
  cases found with
  | none => rfl
  | some item =>
    obtain ⟨n, hn⟩ := p.remove_queue item
    rw [removeFound, hn]
    rfl

lemma ok_step [TransferQueueItem T] (s : Sharing T) (call : Call T) (h : Ok s) : Ok (s.step call) := by
  cases call with
  | setBudget minByteCount => exact ok_setBudget h minByteCount
  | add k item =>
    refine ok_update h k false fun p hp ha => ⟨add_settles hp ha item, ?_⟩
    obtain ⟨n, hn⟩ := p.add_queue item
    rw [hn]
    rfl
  | removeByMessageId k id =>
    refine ok_update (f := fun p => (p.removeByMessageId id).2) h k false fun p hp ha => ⟨?_, ?_⟩
    · exact removeFound_settles hp ha _
    · exact removeFound_registered p _
  | removeBySequenceNumber k n =>
    refine ok_update (f := fun p => (p.removeBySequenceNumber n).2) h k false fun p hp ha => ⟨?_, ?_⟩
    · exact removeFound_settles hp ha _
    · exact removeFound_registered p _
  | removeFirst k =>
    refine ok_update (f := fun p => p.removeFirst.2) h k false fun p hp ha => ⟨?_, ?_⟩
    · exact removeFound_settles hp ha _
    · exact removeFound_registered p _
  | clear k => exact ok_update h k true fun p hp ha => clear_settles hp ha

lemma Ok.borrowed_eq (h : Ok s) : (s.members.map fun m => m.queue.borrowedByteCount) =
    s.members.map fun m => max 0 (m.queue.queueByteCount - m.queue.minByteCount) :=
  List.map_congr_left fun m hm => (h.members m hm).settled.borrowed_eq

lemma floors_eq {ms : List (Member T)} (h : ∀ m ∈ ms, MemberOk m) :
    (ms.map fun m => m.queue.floor).sum = ((ms.filter fun m => !m.cleared).map fun m => m.queue.minByteCount).sum := by
  induction ms with
  | nil => rfl
  | cons m ms ih =>
    have hm := (h m (by simp)).registered_eq
    rw [List.map_cons, List.sum_cons, ih fun x hx => h x (by simp [hx])]
    cases hc : m.cleared <;> simp [floor, hm, hc]

lemma Ok.idle_borrowed (h : Ok s) {m : Member T} (hm : m ∈ s.members) (hi : m.idle = true) :
    m.queue.borrowedByteCount = 0 ∧ m.queue.floor = 0 := by
  have hok := h.members m hm
  obtain ⟨hc, hz⟩ := hok.idle_empty hi
  have := hok.settled.floor_nonneg
  rw [hok.settled.borrowed_eq, hz, floor, hok.registered_eq, hc]
  simp [this]

/-- Balance of a standalone budget over every history of the queues attached to it. -/
theorem shared_budget_balance [TransferQueueItem T] (totalByteCount : ℤ) (calls : List (Call T)) :
    let s := run step (start totalByteCount) calls
    let budget := s.pool.budget 0
    budget.usedByteCount =
      (s.members.map fun m => max 0 (m.queue.queueByteCount - m.queue.minByteCount)).sum ∧
    budget.reservedByteCount - budget.releasedByteCount = budget.usedByteCount ∧
    budget.floorByteCount =
      ((s.members.filter fun m => !m.cleared).map fun m => m.queue.minByteCount).sum ∧
    ((∀ m ∈ s.members, m.idle = true) → budget.usedByteCount = 0 ∧ budget.floorByteCount = 0) := by
  intro s budget
  have h : Ok s := run_invariant ok_step (ok_start totalByteCount) calls
  refine ⟨?_, h.net_eq, ?_, fun hidle => ⟨?_, ?_⟩⟩
  · rw [← h.borrowed_eq]
    exact h.used_eq
  · rw [← floors_eq h.members]
    exact h.floor_eq
  · refine h.used_eq.trans (List.sum_eq_zero ?_)
    simp only [List.mem_map, forall_exists_index, and_imp, forall_apply_eq_imp_iff₂]
    exact fun m hm => (h.idle_borrowed hm (hidle m hm)).1
  · refine h.floor_eq.trans (List.sum_eq_zero ?_)
    simp only [List.mem_map, forall_exists_index, and_imp, forall_apply_eq_imp_iff₂]
    exact fun m hm => (h.idle_borrowed hm (hidle m hm)).2

end Sharing

end UrConnect.Transfer
