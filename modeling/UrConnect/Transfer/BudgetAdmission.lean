import UrConnect.Lib.Runs
import UrConnect.Transfer.MemoryBudget

namespace UrConnect.Transfer

open UrConnect.Lib UrConnect.Lib.Runs

namespace BudgetTree

open TransferMemoryBudget

variable {t : BudgetTree} {i j k : ℕ} {byteCount : ℤ}

lemma chain_of_standalone (h : t.requiresAdmissionLock i = false) : t.chain i = [i] := by
  simp only [requiresAdmissionLock, Bool.or_eq_false_iff, Option.isSome_eq_false_iff,
    Option.isNone_iff_eq_none] at h
  rw [chain, Forest.chain_eq, h.1.1]
  rfl

lemma forEach_chain_budget (f : TransferMemoryBudget → TransferMemoryBudget) :
    (t.forEach (t.chain i) f).budget j = if j ∈ t.chain i then f (t.budget j) else t.budget j :=
  forEach_budget (t.links.chain_nodup i)

lemma release_eq (t : BudgetTree) (i : ℕ) (byteCount : ℤ) :
    t.release i byteCount = t.forEach (t.chain i) fun budget => budget.releaseByteCount byteCount := by
  unfold release
  split
  · rename_i h
    rw [chain_of_standalone h]
    rfl
  · rfl

lemma tryReserve_cases (t : BudgetTree) (i : ℕ) (byteCount : ℤ) :
    t.tryReserve i byteCount = (false, t) ∨
      0 ≤ byteCount ∧
      (∀ j ∈ t.chain i, (t.budget j).usedByteCount + byteCount ≤ (t.budget j).totalByteCount) ∧
      t.tryReserve i byteCount =
        (true, t.forEach (t.chain i) fun budget => budget.reserveByteCount byteCount) := by
  unfold tryReserve
  split
  · exact Or.inl rfl
  · rename_i hb
    split
    · rename_i hfits
      refine Or.inr ⟨by omega, fun j hj => ?_, rfl⟩
      have hj := List.all_eq_true.mp hfits j hj
      simp only [fits, Bool.not_eq_true', decide_eq_false_iff_not, not_or, not_lt] at hj
      omega
    · exact Or.inl rfl

lemma reserve_used : ((t.forEach (t.chain i) fun b => b.reserveByteCount byteCount).budget j).usedByteCount =
    (t.budget j).usedByteCount + if j ∈ t.chain i then byteCount else 0 := by
  rw [forEach_chain_budget]
  split <;> simp [reserveByteCount]

lemma reserve_total : ((t.forEach (t.chain i) fun b => b.reserveByteCount byteCount).budget j).totalByteCount =
    (t.budget j).totalByteCount := by
  rw [forEach_chain_budget]
  split <;> rfl

lemma release_used : ((t.release i byteCount).budget j).usedByteCount =
    (t.budget j).usedByteCount + if j ∈ t.chain i then -byteCount else 0 := by
  rw [release_eq, forEach_chain_budget]
  split <;> simp [releaseByteCount, sub_eq_add_neg]

structure Moved (t t' : BudgetTree) (i k : ℕ) (byteCount : ℤ) : Prop where
  size_eq : t'.size = t.size
  links_eq : t'.links = t.links
  total_eq : ∀ j, (t'.budget j).totalByteCount = (t.budget j).totalByteCount
  used_eq : ∀ j, (t'.budget j).usedByteCount = (t.budget j).usedByteCount +
    (if j ∈ t.chain k then byteCount else 0) + if j ∈ t.chain i then -byteCount else 0
  nonneg : 0 ≤ byteCount
  room : ∀ j ∈ t.chain k, j ∉ t.chain i →
    (t.budget j).usedByteCount + byteCount ≤ (t.budget j).totalByteCount

lemma moved_of_room (hb : 0 ≤ byteCount) (hroom : ∀ j ∈ t.chain k, j ∉ t.chain i →
      (t.budget j).usedByteCount + byteCount ≤ (t.budget j).totalByteCount) :
    Moved t ((t.forEach ((t.chain i).filter fun j => !(t.chain k).contains j)
        fun budget => budget.releaseByteCount byteCount).forEach
      ((t.chain k).filter fun j => !(t.chain i).contains j)
        fun budget => budget.reserveByteCount byteCount) i k byteCount := by
  have hi : ((t.chain i).filter fun j => !(t.chain k).contains j).Nodup :=
    (t.links.chain_nodup i).filter _
  have hk : ((t.chain k).filter fun j => !(t.chain i).contains j).Nodup :=
    (t.links.chain_nodup k).filter _
  refine ⟨by simp, by simp, fun j => ?_, fun j => ?_, hb, hroom⟩
  · rw [forEach_budget hk, forEach_budget hi]
    split <;> split <;> rfl
  · rw [forEach_budget hk, forEach_budget hi]
    by_cases hji : j ∈ t.chain i <;> by_cases hjk : j ∈ t.chain k <;>
      simp [hji, hjk, reserveByteCount, releaseByteCount, sub_eq_add_neg]

lemma tryMoveReservation_cases (t : BudgetTree) (self target : Option ℕ) (byteCount : ℤ) :
    t.tryMoveReservation self target byteCount = (false, t) ∨
      ∃ i k t', self = some i ∧ target = some k ∧
        t.tryMoveReservation self target byteCount = (true, t') ∧ Moved t t' i k byteCount := by
  unfold tryMoveReservation
  split
  · rename_i i k
    split
    · exact Or.inl rfl
    split
    · exact Or.inl rfl
    split
    · exact Or.inl rfl
    · rename_i hb _ hroom
      refine Or.inr ⟨i, k, _, rfl, rfl, rfl, moved_of_room (by omega) fun j hj hji => ?_⟩
      have hj := List.all_eq_true.mp (by simpa only [Bool.not_eq_false] using hroom) j hj
      simp only [List.contains_eq_mem, hji, decide_false, Bool.false_or, hasMoveRoom,
        Bool.not_eq_true', decide_eq_false_iff_not, not_lt] at hj
      omega
  · exact Or.inl rfl

end BudgetTree

structure BudgetLedger where
  tree : BudgetTree
  owned : ℕ → ℤ

namespace BudgetLedger

inductive Call where
  | newTransferMemoryBudgetWithParent (totalByteCount : ℤ) (parent : Option ℕ)
  | setTotalByteCount (i : ℕ) (totalByteCount : ℤ)
  | tryReserve (i : ℕ) (byteCount : ℤ)
  | release (i : ℕ) (byteCount : ℤ)
  | tryMoveReservation (self target : Option ℕ) (byteCount : ℤ)

def empty : BudgetLedger := ⟨.empty, fun _ => 0⟩

def own (owned : ℕ → ℤ) (i : ℕ) (byteCount : ℤ) : ℕ → ℤ :=
  Function.update owned i (owned i + byteCount)

def moveOwned (owned : ℕ → ℤ) : Option ℕ → Option ℕ → ℤ → ℕ → ℤ
  | some i, some k, byteCount => own (own owned k byteCount) i (-byteCount)
  | _, _, _ => owned

def step (s : BudgetLedger) : Call → BudgetLedger
  | .newTransferMemoryBudgetWithParent totalByteCount none =>
    { s with tree := s.tree.newTransferMemoryBudgetWithParent totalByteCount none }
  | .newTransferMemoryBudgetWithParent totalByteCount (some p) =>
    if h : p < s.tree.size then
      { s with tree := s.tree.newTransferMemoryBudgetWithParent totalByteCount (some ⟨p, h⟩) }
    else s
  | .setTotalByteCount i totalByteCount =>
    if i < s.tree.size then { s with tree := s.tree.setTotalByteCount i totalByteCount } else s
  | .tryReserve i byteCount =>
    if i < s.tree.size then
      let reserved := s.tree.tryReserve i byteCount
      ⟨reserved.2, if reserved.1 then own s.owned i byteCount else s.owned⟩
    else s
  | .release i byteCount =>
    if i < s.tree.size then ⟨s.tree.release i byteCount, own s.owned i (-byteCount)⟩ else s
  | .tryMoveReservation self target byteCount =>
    if self.all (· < s.tree.size) ∧ target.all (· < s.tree.size) then
      let moved := s.tree.tryMoveReservation self target byteCount
      ⟨moved.2, if moved.1 then moveOwned s.owned self target byteCount else s.owned⟩
    else s

structure Balanced (s : BudgetLedger) : Prop where
  used_eq : ∀ j, (s.tree.budget j).usedByteCount = s.tree.links.subtreeSum s.tree.size s.owned j
  owned_new : ∀ j, s.tree.size ≤ j → s.owned j = 0

variable {s : BudgetLedger}

lemma balanced_empty : Balanced empty where
  used_eq j := by simp [empty, BudgetTree.empty, TransferMemoryBudget.newTransferMemoryBudget,
    Forest.subtreeSum]
  owned_new _ _ := rfl

lemma own_new (h : Balanced s) {i : ℕ} (hi : i < s.tree.size) (byteCount : ℤ) {j : ℕ}
    (hj : s.tree.size ≤ j) : own s.owned i byteCount j = 0 := by
  rw [own, Function.update_of_ne (by omega), h.owned_new j hj]

lemma balanced_of_used {t : BudgetTree} {owned : ℕ → ℤ} (h : Balanced s)
    (hsize : t.size = s.tree.size) (hlinks : t.links = s.tree.links)
    (hused : ∀ j, (t.budget j).usedByteCount - (s.tree.budget j).usedByteCount =
      s.tree.links.subtreeSum s.tree.size owned j - s.tree.links.subtreeSum s.tree.size s.owned j)
    (hnew : ∀ j, s.tree.size ≤ j → owned j = 0) : Balanced ⟨t, owned⟩ where
  used_eq j := by
    have hj := hused j
    have hs := h.used_eq j
    simp only [hsize, hlinks]
    omega
  owned_new j hj := hnew j (hsize ▸ hj)

lemma balanced_newBudget (h : Balanced s) (totalByteCount : ℤ) (parent : Option (Fin s.tree.size)) :
    Balanced { s with tree := s.tree.newTransferMemoryBudgetWithParent totalByteCount parent } where
  used_eq j := by
    have hnew := h.owned_new s.tree.size (le_refl _)
    simp only [BudgetTree.newTransferMemoryBudgetWithParent]
    rw [Forest.subtreeSum_graft _ _ hnew, ← h.used_eq j]
    by_cases hj : j = s.tree.size
    · subst hj
      have hzero : s.tree.links.subtreeSum s.tree.size s.owned s.tree.size = 0 := by
        refine Finset.sum_eq_zero fun k hk => ?_
        obtain ⟨hk, hc⟩ := Finset.mem_filter.mp hk
        have := s.tree.links.le_of_mem_chain hc
        have := Finset.mem_range.mp hk
        omega
      simp [TransferMemoryBudget.newTransferMemoryBudget, h.used_eq, hzero]
    · simp [hj]
  owned_new j hj := h.owned_new j (by
    simp only [BudgetTree.newTransferMemoryBudgetWithParent] at hj
    omega)

lemma balanced_setTotalByteCount (h : Balanced s) (i : ℕ) (totalByteCount : ℤ) :
    Balanced { s with tree := s.tree.setTotalByteCount i totalByteCount } := by
  refine balanced_of_used h rfl rfl (fun j => ?_) h.owned_new
  rw [BudgetTree.setTotalByteCount, BudgetTree.modify_budget]
  split <;> simp

lemma balanced_tryReserve (h : Balanced s) {i : ℕ} (hi : i < s.tree.size) (byteCount : ℤ) :
    Balanced ⟨(s.tree.tryReserve i byteCount).2,
      if (s.tree.tryReserve i byteCount).1 then own s.owned i byteCount else s.owned⟩ := by
  rcases s.tree.tryReserve_cases i byteCount with he | ⟨-, -, he⟩
  · simp only [he, Bool.false_eq_true, if_false]
    exact h
  · simp only [he, if_true]
    refine balanced_of_used h (by simp) (by simp) (fun j => ?_) fun j hj => own_new h hi byteCount hj
    rw [BudgetTree.reserve_used, own, Forest.subtreeSum_update _ hi]
    by_cases hc : j ∈ s.tree.links.chain i <;> simp [BudgetTree.chain, hc]

lemma balanced_release (h : Balanced s) {i : ℕ} (hi : i < s.tree.size) (byteCount : ℤ) :
    Balanced ⟨s.tree.release i byteCount, own s.owned i (-byteCount)⟩ := by
  refine balanced_of_used h ?_ ?_ (fun j => ?_) fun j hj => own_new h hi (-byteCount) hj
  · simp [BudgetTree.release_eq]
  · simp [BudgetTree.release_eq]
  · rw [BudgetTree.release_used, own, Forest.subtreeSum_update _ hi]
    by_cases hc : j ∈ s.tree.links.chain i <;> simp [BudgetTree.chain, hc]

lemma balanced_tryMoveReservation (h : Balanced s) {self target : Option ℕ}
    (hself : self.all (· < s.tree.size)) (htarget : target.all (· < s.tree.size)) (byteCount : ℤ) :
    Balanced ⟨(s.tree.tryMoveReservation self target byteCount).2,
      if (s.tree.tryMoveReservation self target byteCount).1
      then moveOwned s.owned self target byteCount else s.owned⟩ := by
  rcases s.tree.tryMoveReservation_cases self target byteCount with he | ⟨i, k, t', rfl, rfl, he, hm⟩
  · simp only [he, Bool.false_eq_true, if_false]
    exact h
  · simp only [he, if_true, moveOwned]
    have hi : i < s.tree.size := by simpa using hself
    have hk : k < s.tree.size := by simpa using htarget
    refine balanced_of_used h hm.size_eq hm.links_eq (fun j => ?_) fun j hj => ?_
    · rw [hm.used_eq, own, Forest.subtreeSum_update _ hi, own, Forest.subtreeSum_update _ hk]
      by_cases hci : j ∈ s.tree.links.chain i <;> by_cases hck : j ∈ s.tree.links.chain k <;>
        simp [BudgetTree.chain, hci, hck]
    · rw [own, Function.update_of_ne (by omega), own_new h hk byteCount hj]

lemma balanced_step (s : BudgetLedger) (call : Call) (h : Balanced s) : Balanced (s.step call) := by
  cases call with
  | newTransferMemoryBudgetWithParent totalByteCount parent =>
    cases parent with
    | none => exact balanced_newBudget h totalByteCount none
    | some p =>
      simp only [step]
      split
      · exact balanced_newBudget h totalByteCount (some ⟨p, _⟩)
      · exact h
  | setTotalByteCount i totalByteCount =>
    simp only [step]
    split
    · exact balanced_setTotalByteCount h i totalByteCount
    · exact h
  | tryReserve i byteCount =>
    simp only [step]
    split
    · exact balanced_tryReserve h ‹_› byteCount
    · exact h
  | release i byteCount =>
    simp only [step]
    split
    · exact balanced_release h ‹_› byteCount
    · exact h
  | tryMoveReservation self target byteCount =>
    simp only [step]
    split
    · rename_i hs
      exact balanced_tryMoveReservation h hs.1 hs.2 byteCount
    · exact h

def GrowthAdmitted (t t' : BudgetTree) : Prop :=
  ∀ j, (t.budget j).usedByteCount < (t'.budget j).usedByteCount →
    (t'.budget j).usedByteCount ≤ (t'.budget j).totalByteCount

lemma tryReserve_growth (t : BudgetTree) (i : ℕ) (byteCount : ℤ) :
    GrowthAdmitted t (t.tryReserve i byteCount).2 := by
  rcases t.tryReserve_cases i byteCount with he | ⟨-, hroom, he⟩
  · simp [he, GrowthAdmitted]
  · intro j hj
    simp only [he, BudgetTree.reserve_used, BudgetTree.reserve_total] at hj ⊢
    split at hj
    · rename_i hc
      simpa [hc] using hroom j hc
    · omega

lemma tryMoveReservation_growth (t : BudgetTree) (self target : Option ℕ) (byteCount : ℤ) :
    GrowthAdmitted t (t.tryMoveReservation self target byteCount).2 := by
  rcases t.tryMoveReservation_cases self target byteCount with he | ⟨i, k, t', -, -, he, hm⟩
  · simp [he, GrowthAdmitted]
  · intro j hj
    simp only [he, hm.used_eq, hm.total_eq] at hj ⊢
    by_cases hk : j ∈ t.chain k <;> by_cases hi : j ∈ t.chain i <;>
      simp only [hk, hi, if_true, if_false] at hj ⊢
    · omega
    · simpa using hm.room j hk hi
    · have := hm.nonneg
      omega
    · omega

lemma tryReserve_failed (t : BudgetTree) (i : ℕ) (byteCount : ℤ)
    (h : (t.tryReserve i byteCount).1 = false) : (t.tryReserve i byteCount).2 = t := by
  rcases t.tryReserve_cases i byteCount with he | ⟨-, -, he⟩ <;> simp_all

lemma tryMoveReservation_failed (t : BudgetTree) (self target : Option ℕ) (byteCount : ℤ)
    (h : (t.tryMoveReservation self target byteCount).1 = false) :
    (t.tryMoveReservation self target byteCount).2 = t := by
  rcases t.tryMoveReservation_cases self target byteCount with he | ⟨i, k, t', -, -, he, -⟩ <;> simp_all

lemma tryMoveReservation_common (t : BudgetTree) (i k : ℕ) (byteCount : ℤ) {j : ℕ}
    (hi : j ∈ t.chain i) (hk : j ∈ t.chain k) :
    ((t.tryMoveReservation (some i) (some k) byteCount).2.budget j).usedByteCount =
      (t.budget j).usedByteCount := by
  rcases t.tryMoveReservation_cases (some i) (some k) byteCount with he | ⟨i, k, t', hs, ht, he, hm⟩
  · rw [he]
  · cases hs
    cases ht
    rw [he, hm.used_eq]
    simp [hi, hk]

end BudgetLedger

end UrConnect.Transfer
