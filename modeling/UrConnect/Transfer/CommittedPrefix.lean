import UrConnect.Transfer.IndexedQueue
import UrConnect.Transfer.ReceiveHold

/-! The held items that a receive sequence commits: the shortcut by the newest item and the walk in order agree. -/

namespace UrConnect.Transfer.ReceiveSequence

open TransferQueue

def heldThrough (items : List ReceiveItem) (j : ℕ) : ℤ := ((items.take (j + 1)).map ReceiveItem.messageByteCount).sum

def distance (nextSequenceNumber : ℕ) (items : List ReceiveItem) (j : ℕ) : ℤ :=
  (((items[j]?.map ReceiveItem.sequenceNumber).getD 0 : ℕ) : ℤ) - nextSequenceNumber - j

def missingBelow (nextSequenceNumber : ℕ) (items : List ReceiveItem) (j : ℕ) : ℤ :=
  max 0 (distance nextSequenceNumber items j)

def Survives (capacity frameByteCount : ℤ) (nextSequenceNumber : ℕ) (items : List ReceiveItem) (j : ℕ) : Prop :=
  missingBelow nextSequenceNumber items j * frameByteCount + heldThrough items j ≤ capacity

def Small (frameByteCount : ℤ) (nextSequenceNumber : ℕ) (items : List ReceiveItem) (j : ℕ) : Prop :=
  (-2 ^ 63 ≤ distance nextSequenceNumber items j ∧ distance nextSequenceNumber items j < 2 ^ 63) ∧
    -2 ^ 63 ≤ missingBelow nextSequenceNumber items j * frameByteCount + heldThrough items j ∧
    missingBelow nextSequenceNumber items j * frameByteCount + heldThrough items j < 2 ^ 63

instance (frameByteCount : ℤ) (next : ℕ) (items : List ReceiveItem) (j : ℕ) :
    Decidable (Small frameByteCount next items j) :=
  inferInstanceAs (Decidable ((_ ∧ _) ∧ _ ∧ _))

section Walk

variable {capacity frameByteCount : ℤ} {next : ℕ}

lemma int64_of_small {n : ℤ} (hlow : -2 ^ 63 ≤ n) (hhigh : n < 2 ^ 63) : int64 n = n := by
  rw [int64, Int.bmod]
  omega

def FitsFrom (capacity frameByteCount : ℤ) (next i : ℕ) (held : ℤ) (items : List ReceiveItem) (j : ℕ) : Prop :=
  ∀ x, items[j]? = some x → fitsBelow capacity frameByteCount next x.sequenceNumber (i + j) (held + heldThrough items j) = true

lemma heldThrough_cons (a : ReceiveItem) (items : List ReceiveItem) (j : ℕ) :
    heldThrough (a :: items) (j + 1) = a.messageByteCount + heldThrough items j := by
  simp [heldThrough]

lemma fitsFrom_succ (i : ℕ) (held : ℤ) (a : ReceiveItem) (items : List ReceiveItem) (j : ℕ) :
    FitsFrom capacity frameByteCount next i held (a :: items) (j + 1) ↔
      FitsFrom capacity frameByteCount next (i + 1) (held + a.messageByteCount) items j := by
  rw [FitsFrom, FitsFrom, heldThrough_cons, List.getElem?_cons_succ, ← add_assoc held, add_right_comm i 1 j, ← add_assoc]

lemma committable_eq_take (capacity frameByteCount : ℤ) (next i : ℕ) (held : ℤ) (items : List ReceiveItem) :
    ∃ k ≤ items.length, committable capacity frameByteCount next i held items = items.take k ∧
      ∀ m < items.length, m < k ↔ ∀ j ≤ m, FitsFrom capacity frameByteCount next i held items j := by
  induction items generalizing i held with
  | nil => exact ⟨0, le_rfl, rfl, fun m hm => absurd hm (Nat.not_lt_zero m)⟩
  | cons a items ih =>
    have hzero : FitsFrom capacity frameByteCount next i held (a :: items) 0 ↔
        fitsBelow capacity frameByteCount next a.sequenceNumber i (held + a.messageByteCount) = true := by
      simp [FitsFrom, heldThrough]
    rw [committable]
    split
    · rename_i hfits
      obtain ⟨k, hk, htake, hiff⟩ := ih (i + 1) (held + a.messageByteCount)
      refine ⟨k + 1, Nat.succ_le_succ hk, by rw [htake, List.take_succ_cons], fun m hm => ?_⟩
      constructor
      · intro hmk j hj
        cases j with
        | zero => exact hzero.mpr hfits
        | succ j =>
          rw [fitsFrom_succ]
          exact (hiff (m - 1) (by rw [List.length_cons] at hm; omega)).mp (by omega) j (by omega)
      · intro hall
        cases m with
        | zero => exact Nat.succ_pos k
        | succ m =>
          have hm' : m < k := (hiff m (by simpa using hm)).mpr fun j hj =>
            (fitsFrom_succ i held a items j).mp (hall (j + 1) (by omega))
          omega
    · rename_i hfits
      refine ⟨0, Nat.zero_le _, rfl, fun m _ => ⟨fun hm => absurd hm (Nat.not_lt_zero m), fun hall => ?_⟩⟩
      exact absurd (hzero.mp (hall 0 (Nat.zero_le m))) hfits

lemma fitsBelow_iff_survives {items : List ReceiveItem} {j : ℕ} (hj : j < items.length)
    (hsmall : Small frameByteCount next items j) :
    fitsBelow capacity frameByteCount next items[j].sequenceNumber j (heldThrough items j) = true ↔
      Survives capacity frameByteCount next items j := by
  obtain ⟨⟨hlow, hhigh⟩, hbelow, habove⟩ := hsmall
  have hdistance : (items[j].sequenceNumber : ℤ) - next - j = distance next items j := by
    rw [distance, List.getElem?_eq_getElem hj]
    rfl
  rw [fitsBelow, hdistance, int64_of_small hlow hhigh, Survives]
  rw [← missingBelow, int64_of_small hbelow habove, decide_eq_true_eq]

end Walk

section Shortcut

variable {capacity frameByteCount : ℤ} {next : ℕ} {q : TransferQueue ReceiveItem} {items : List ReceiveItem}

lemma cmp_le_zero {a b : ReceiveItem} : TransferQueueItem.cmp a b ≤ 0 ↔ a.sequenceNumber ≤ b.sequenceNumber := by
  change (if a.sequenceNumber < b.sequenceNumber then (-1 : ℤ)
    else if b.sequenceNumber < a.sequenceNumber then 1 else 0) ≤ 0 ↔ _
  split
  · exact iff_of_true (by decide) (Nat.le_of_lt ‹_›)
  split
  · exact iff_of_false (by decide) (Nat.not_le_of_gt ‹_›)
  · exact iff_of_true le_rfl (Nat.le_of_not_lt ‹_›)

lemma ascendingItems_perm (q : TransferQueue ReceiveItem) : q.ascendingItems.Perm q.orderedItems :=
  List.perm_insertionSort _ _

lemma ascendingItems_lt (hq : Consistent q) :
    q.ascendingItems.Pairwise fun a b => a.sequenceNumber < b.sequenceNumber := by
  have hle := ascendingItems_pairwise q
  have hne : (q.ascendingItems.map ReceiveItem.sequenceNumber).Nodup :=
    ((ascendingItems_perm q).map _).nodup_iff.mpr hq.numbers_nodup
  rw [List.Nodup, List.pairwise_map] at hne
  refine (hle.and hne).imp fun {a b} h => ?_
  have := cmp_le_zero.mp h.1
  have := h.2
  omega

lemma add_le_sequenceNumber (h : items.Pairwise fun a b => a.sequenceNumber < b.sequenceNumber) {j k : ℕ} (hjk : j ≤ k)
    (hk : k < items.length) : items[j].sequenceNumber + (k - j) ≤ items[k].sequenceNumber := by
  induction k, hjk using Nat.le_induction with
  | base => simp
  | succ k hjk ih =>
    have hstep := List.pairwise_iff_getElem.mp h k (k + 1) (by omega) hk (by omega)
    have := ih (by omega)
    omega

lemma distance_le (h : items.Pairwise fun a b => a.sequenceNumber < b.sequenceNumber) {j k : ℕ} (hjk : j ≤ k)
    (hk : k < items.length) : distance next items j ≤ distance next items k := by
  have hadd := add_le_sequenceNumber h hjk hk
  rw [distance, distance, List.getElem?_eq_getElem hk, List.getElem?_eq_getElem (hjk.trans_lt hk)]
  simp only [Option.map_some, Option.getD_some]
  omega

lemma heldThrough_le (hsizes : ∀ x ∈ items, 0 ≤ x.messageByteCount) {j k : ℕ} (hjk : j ≤ k) :
    heldThrough items j ≤ heldThrough items k := by
  have hsplit := (List.take_append_drop (j + 1) (items.take (k + 1))).symm
  rw [List.take_take, Nat.min_eq_left (by omega)] at hsplit
  have hrest : 0 ≤ (((items.take (k + 1)).drop (j + 1)).map ReceiveItem.messageByteCount).sum := by
    apply List.sum_nonneg
    intro n hn
    obtain ⟨x, hx, rfl⟩ := List.mem_map.mp hn
    exact hsizes x (List.mem_of_mem_take (List.mem_of_mem_drop hx))
  rw [heldThrough, heldThrough, hsplit, List.map_append, List.sum_append]
  omega

lemma Survives.below (hframe : 0 ≤ frameByteCount) (h : items.Pairwise fun a b => a.sequenceNumber < b.sequenceNumber)
    (hsizes : ∀ x ∈ items, 0 ≤ x.messageByteCount) {j k : ℕ} (hjk : j ≤ k) (hk : k < items.length)
    (hsurvives : Survives capacity frameByteCount next items k) : Survives capacity frameByteCount next items j := by
  rw [Survives] at hsurvives ⊢
  have hmissing : missingBelow next items j ≤ missingBelow next items k := max_le_max le_rfl (distance_le h hjk hk)
  calc missingBelow next items j * frameByteCount + heldThrough items j
      ≤ missingBelow next items k * frameByteCount + heldThrough items k :=
        add_le_add (mul_le_mul_of_nonneg_right hmissing hframe) (heldThrough_le hsizes hjk)
    _ ≤ capacity := hsurvives

lemma peekLast_sequenceNumber (hq : Consistent q) (ho : HeapOrdered q) {newest : ReceiveItem}
    (hnewest : q.peekLast = some newest) (hpos : 0 < q.ascendingItems.length) :
    newest.sequenceNumber = q.ascendingItems[q.ascendingItems.length - 1].sequenceNumber := by
  have hperm := ascendingItems_perm q
  apply Nat.le_antisymm
  · obtain ⟨j, hj, hget⟩ := List.mem_iff_getElem.mp (hperm.mem_iff.mpr (hq.peekLast_mem hnewest))
    have := add_le_sequenceNumber (ascendingItems_lt hq) (j := j) (k := q.ascendingItems.length - 1) (by omega) (by omega)
    rw [hget] at this
    omega
  · apply cmp_le_zero.mp
    apply ho.peekLast hnewest
    exact hq.mem_maxHeap.mpr (hperm.mem_iff.mp (List.getElem_mem _))

lemma heldThrough_last (hq : Consistent q) :
    heldThrough q.ascendingItems (q.ascendingItems.length - 1) = q.byteCount := by
  rw [heldThrough, List.take_of_length_le (by omega), hq.byteCount_eq]
  exact ((ascendingItems_perm q).map ReceiveItem.messageByteCount).sum_eq

def walk (capacity maxHeldByteCount : ℤ) (next : ℕ) (q : TransferQueue ReceiveItem) : List ReceiveItem :=
  committable capacity (max maxHeldByteCount 1) next 0 0 q.ascendingItems

lemma walk_eq_take (capacity : ℤ) {maxHeld : ℤ}
    (hsmall : ∀ j < q.ascendingItems.length, Small (max maxHeld 1) next q.ascendingItems j) :
    ∃ k ≤ q.ascendingItems.length, walk capacity maxHeld next q = q.ascendingItems.take k ∧
      ∀ m < q.ascendingItems.length, m < k ↔
        ∀ j ≤ m, Survives capacity (max maxHeld 1) next q.ascendingItems j := by
  obtain ⟨k, hk, htake, hiff⟩ :=
    committable_eq_take capacity (max maxHeld 1) next 0 0 q.ascendingItems
  refine ⟨k, hk, htake, fun m hm => (hiff m hm).trans (forall₂_congr fun j hj => ?_)⟩
  have hj' : j < q.ascendingItems.length := by omega
  rw [← fitsBelow_iff_survives hj' (hsmall j hj'), FitsFrom, List.getElem?_eq_getElem hj', Nat.zero_add, Int.zero_add]
  simp

lemma heldPrefix_perm_walk (capacity : ℤ) {maxHeld : ℤ} (hq : Consistent q) (ho : HeapOrdered q)
    (hsizes : ∀ x ∈ q.orderedItems, 0 < x.messageByteCount)
    (hsmall : ∀ j < q.ascendingItems.length, Small (max maxHeld 1) next q.ascendingItems j) :
    (heldPrefix capacity maxHeld next q).Perm (walk capacity maxHeld next q) := by
  have hperm := ascendingItems_perm q
  have hlength : q.queueSize.1 = q.ascendingItems.length := hperm.length_eq.symm
  rw [heldPrefix]
  split
  · rename_i hempty
    have hnil : q.ascendingItems = [] := List.length_eq_zero_iff.mp (hlength ▸ hempty)
    rw [walk, hnil]
    exact .refl _
  rename_i hcount
  split
  · rename_i hwhole
    obtain ⟨newest, hnewest, hfits⟩ := (Option.any_eq_true _ _).mp hwhole
    have hlast : q.ascendingItems.length - 1 < q.ascendingItems.length := by omega
    -- the check of the newest item is the one that the walk makes last
    have hsize : q.queueSize.2 = heldThrough q.ascendingItems (q.ascendingItems.length - 1) :=
      (heldThrough_last hq).symm
    rw [peekLast_sequenceNumber hq ho hnewest (by omega), hlength, hsize,
      fitsBelow_iff_survives hlast (hsmall _ hlast)] at hfits
    obtain ⟨k, hk, htake, hiff⟩ := walk_eq_take capacity hsmall
    have hall : q.ascendingItems.length - 1 < k := by
      apply (hiff _ hlast).mpr
      intro j hj
      apply Survives.below (Int.le_trans (by decide) (le_max_right _ _)) (ascendingItems_lt hq) _ hj hlast hfits
      intro x hx
      exact (hsizes x (hperm.mem_iff.mp hx)).le
    rw [htake, List.take_of_length_le (by omega)]
    exact hperm.symm
  · exact .refl _

end Shortcut

section Commit

variable {s : ReceiveSequence} {q : TransferQueue ReceiveItem}

def commitAll (s : ReceiveSequence) (items : List ReceiveItem) : ReceiveSequence :=
  items.foldl (fun s held => if held.committed then s else s.commitHeldItem held) s

def markAll (ids : List Id) (item : ReceiveItem) : ReceiveItem :=
  if item.messageId ∈ ids then { item with committed := true } else item

def uncommittedIds (items : List ReceiveItem) : List Id :=
  (items.filter fun x => !x.committed).map ReceiveItem.messageId

lemma mapItems_mapItems (q : TransferQueue ReceiveItem) (f g : ReceiveItem → ReceiveItem) :
    (q.mapItems g).mapItems f = q.mapItems (f ∘ g) := by
  simp [mapItems, Function.comp_def]

lemma markAll_markCommitted (id : Id) (ids : List Id) : markAll ids ∘ markCommitted id = markAll (id :: ids) := by
  funext x
  by_cases hid : x.messageId = id <;> by_cases hids : x.messageId ∈ ids <;>
    simp [markAll, markCommitted, hid, hids]

lemma commitAll_hold (s : ReceiveSequence) (items : List ReceiveItem) :
    (s.commitAll items).hold = { s.hold with queue := s.hold.queue.mapItems (markAll (uncommittedIds items)) } := by
  induction items generalizing s with
  | nil =>
    have hnone : markAll (uncommittedIds []) = id := by
      funext x
      simp [markAll, uncommittedIds]
    simp [commitAll, hnone, mapItems]
  | cons a items ih =>
    rw [commitAll, List.foldl_cons, ← commitAll, ih]
    split
    · rename_i hcommitted
      simp [uncommittedIds, hcommitted]
    · rename_i hcommitted
      have hids : uncommittedIds (a :: items) = a.messageId :: uncommittedIds items := by
        simp [uncommittedIds, hcommitted]
      rw [hids, ← markAll_markCommitted, ← mapItems_mapItems]
      rfl

lemma commitAll_hold_perm {items items' : List ReceiveItem} (h : items.Perm items') :
    (s.commitAll items).hold = (s.commitAll items').hold := by
  have hids : (uncommittedIds items).Perm (uncommittedIds items') := (h.filter _).map _
  have hmark : markAll (uncommittedIds items) = markAll (uncommittedIds items') := by
    funext x
    simp only [markAll, hids.mem_iff]
  rw [commitAll_hold, commitAll_hold, hmark]

end Commit

section Runs

variable {s : ReceiveSequence} {cfg : ReceiveBufferSettings} {env : ReceiveEnv} {item : ReceiveItem}
  {p : Pooled ReceiveItem}

lemma heapOrdered_removeFound (h : HeapOrdered p.queue) (found : Option ReceiveItem) :
    HeapOrdered (p.removeFound found).2.queue := by
  cases found with
  | none => exact h
  | some item => exact Pooled.heapOrdered_remove h item

lemma heapOrdered_makeRoom (h : HeapOrdered p.queue) (policy : ReceiveHoldPolicyKind) (n : ℕ)
    (byteCount maxByteCount : ℤ) (fuel : ℕ) :
    HeapOrdered (makeRoom policy n byteCount maxByteCount fuel p).queue := by
  induction fuel generalizing p with
  | zero => exact h
  | succ fuel ih =>
    rw [makeRoom]
    split
    · exact h
    split
    · exact h
    split
    · exact h
    split
    · exact h
    · exact ih (heapOrdered_removeFound h _)

lemma heapOrdered_roomFor (h : HeapOrdered s.hold.queue) (item : ReceiveItem) :
    HeapOrdered (s.roomFor cfg item).queue := by
  rw [roomFor]
  split
  · exact h
  · exact heapOrdered_makeRoom h _ _ _ _ _

lemma heapOrdered_commitAll (h : HeapOrdered s.hold.queue) (items : List ReceiveItem) :
    HeapOrdered (s.commitAll items).hold.queue := by
  have hnumber (x : ReceiveItem) : (markAll (uncommittedIds items) x).sequenceNumber = x.sequenceNumber := by
    rw [markAll]
    split <;> rfl
  rw [commitAll_hold]
  apply h.mapItems
  intro a b
  change (if _ < _ then (-1 : ℤ) else if _ < _ then 1 else 0) = _
  rw [hnumber, hnumber]
  rfl

lemma heapOrdered_holdItem (h : HeapOrdered s.hold.queue) (item : ReceiveItem) :
    HeapOrdered (s.holdItem cfg item).hold.queue := by
  have hroom : HeapOrdered (s.roomFor cfg item).queue := heapOrdered_roomFor h item
  rw [holdItem]
  split
  · have hadd : HeapOrdered (s.admitted cfg item).hold.queue := Pooled.heapOrdered_add hroom item
    split
    · exact heapOrdered_commitAll hadd _
    · have hone := heapOrdered_commitAll hadd [{ item with committed := false }]
      exact hone
  · exact hroom

lemma heapOrdered_receive (h : HeapOrdered s.hold.queue) (receivePack : ReceivePack) :
    HeapOrdered (s.receive cfg env receivePack).hold.queue := by
  rw [receive]
  split
  · exact h
  · rename_i messageId _
    dsimp only
    generalize newReceiveItem env receivePack messageId none = item
    have harrive : HeapOrdered (s.arrive item).hold.queue := by
      rw [arrive_hold]
      exact h
    have hreplace : HeapOrdered ((s.arrive item).replaceHeld item).hold.queue :=
      heapOrdered_removeFound (heapOrdered_removeFound harrive _) _
    split
    · split
      · rw [receiveNext_hold]
        exact hreplace
      · rw [ackPast_hold]
        exact hreplace
    · exact heapOrdered_holdItem hreplace item

lemma heapOrdered_drain (h : HeapOrdered s.hold.queue) : HeapOrdered (s.drain cfg env).hold.queue := by
  rw [drain]
  split
  · exact h
  rename_i item _
  have hremove : HeapOrdered (s.removeHeld item).hold.queue := heapOrdered_removeFound h _
  split
  · exact h
  split
  · exact h
  split
  · rw [deliverHeld_hold]
    exact hremove
  · rw [ackPast_hold]
    exact hremove

lemma heapOrdered_step (cfg : ReceiveBufferSettings) (s : ReceiveSequence) (event : Event)
    (h : HeapOrdered s.hold.queue) : HeapOrdered (step cfg s event).hold.queue := by
  cases event with
  | writeAcks => exact h
  | pool pool => exact h
  | exit =>
    rw [step]
    split <;> exact h
  | pack env receivePack =>
    rw [step]
    split
    · exact h
    split
    · rw [receiveNack_hold]
      exact h
    · exact heapOrdered_receive h receivePack
  | drain env =>
    rw [step]
    split
    · exact h
    · exact heapOrdered_drain h
  | commitHeldPrefix =>
    rw [step]
    split
    · exact h
    · exact heapOrdered_commitAll h _

lemma hold_of_run (cfg : ReceiveBufferSettings) (pool : BudgetTree) (events : List Event) :
    Consistent (Lib.Runs.run (step cfg) (newReceiveSequence cfg pool) events).hold.queue ∧
      HeapOrdered (Lib.Runs.run (step cfg) (newReceiveSequence cfg pool) events).hold.queue := by
  refine ⟨(Lib.Runs.run_invariant (held_step cfg) (held_new cfg pool) events).consistent, ?_⟩
  refine Lib.Runs.run_invariant (I := fun s : ReceiveSequence => HeapOrdered s.hold.queue) (heapOrdered_step cfg) ?_ events
  change HeapOrdered (newReceiveQueue cfg pool).queue
  have hset := Pooled.heapOrdered_setBudget (p := (⟨newTransferQueue, pool⟩ : Pooled ReceiveItem)) heapOrdered_new
    cfg.receiveQueueBudget cfg.receiveQueueMinByteCount
  rw [newReceiveQueue]
  split
  · exact Pooled.heapOrdered_setLifetimeBudget hset
  · exact hset

end Runs

def heldPacks : List Event :=
  [.pack openEnv (barePack (.ofByte 2) 2 false 10), .pack openEnv (barePack (.ofByte 4) 4 false 40),
    .pack openEnv (barePack (.ofByte 1) 1 false 10)]

end UrConnect.Transfer.ReceiveSequence
