import Mathlib
import UrConnect.Lib.ArrayHeap
import UrConnect.Lib.Placement
import UrConnect.Transfer.MemoryBudget

/-! The queue of resend and receive items: a heap, its mirror with the largest item first,
two indexes, and the bytes borrowed from a shared budget. The heap index that the source
keeps in an item is the position of the item in the heap. -/

namespace UrConnect.Transfer

open UrConnect.Lib

class TransferQueueItem (T : Type) where
  messageId : T → Id
  sequenceNumber : T → ℕ
  messageByteCount : T → ℤ
  queueByteCount : T → ℤ
  cmp : T → T → ℤ

structure TransferQueue (T : Type) where
  orderedItems : List T
  maxHeap : List T
  messageIdItems : Id → Option T
  sequenceNumberItems : ℕ → Option T
  byteCount : ℤ
  queueByteCount : ℤ
  budget : Option ℕ
  minByteCount : ℤ
  borrowedByteCount : ℤ
  floorRegistered : Bool
  lifetimeBudget : Bool

structure Pooled (T : Type) where
  queue : TransferQueue T
  pool : BudgetTree

variable {T : Type} [TransferQueueItem T]

open TransferQueueItem

namespace TransferQueue

def less (a b : T) : Bool := decide (cmp a b < 0)

def maxLess (a b : T) : Bool := decide (0 < cmp a b)

def newTransferQueue : TransferQueue T where
  orderedItems := []
  maxHeap := []
  messageIdItems _ := none
  sequenceNumberItems _ := none
  byteCount := 0
  queueByteCount := 0
  budget := none
  minByteCount := 0
  borrowedByteCount := 0
  floorRegistered := false
  lifetimeBudget := false

def heapIndex (items : List T) (item : T) : ℕ :=
  items.findIdx fun x => decide (messageId x = messageId item)

def heapRemove (less : T → T → Bool) (items : List T) (item : T) : List T :=
  ((ArrayHeap.removeAt less items (heapIndex items item)).map Prod.snd).getD items

def link (q : TransferQueue T) (item : T) : TransferQueue T :=
  { q with
    messageIdItems := Function.update q.messageIdItems (messageId item) (some item)
    sequenceNumberItems := Function.update q.sequenceNumberItems (sequenceNumber item) (some item)
    orderedItems := ArrayHeap.push less q.orderedItems item
    maxHeap := ArrayHeap.push maxLess q.maxHeap item }

def unlink (q : TransferQueue T) (item : T) : TransferQueue T :=
  { q with
    messageIdItems := Function.update q.messageIdItems (messageId item) none
    sequenceNumberItems := Function.update q.sequenceNumberItems (sequenceNumber item) none
    orderedItems := heapRemove less q.orderedItems item
    maxHeap := heapRemove maxLess q.maxHeap item }

def emptied (q : TransferQueue T) : TransferQueue T :=
  { q with
    orderedItems := []
    maxHeap := []
    messageIdItems := fun _ => none
    sequenceNumberItems := fun _ => none }

def peekFirst (q : TransferQueue T) : Option T := q.orderedItems.head?

def peekLast (q : TransferQueue T) : Option T := q.maxHeap.head?

def queueSize (q : TransferQueue T) : ℕ × ℤ := (q.orderedItems.length, q.byteCount)

def ascendingItems (q : TransferQueue T) : List T :=
  q.orderedItems.insertionSort fun a b => cmp a b ≤ 0

def mapItems (q : TransferQueue T) (f : T → T) : TransferQueue T :=
  { q with
    orderedItems := q.orderedItems.map f
    maxHeap := q.maxHeap.map f
    messageIdItems := fun id => (q.messageIdItems id).map f
    sequenceNumberItems := fun n => (q.sequenceNumberItems n).map f }

end TransferQueue

namespace Pooled

open TransferQueue

variable (p : Pooled T)

def setBudget (budget : Option ℕ) (minByteCount : ℤ) : Pooled T :=
  let detached := match p.queue.budget with
    | some b => if p.queue.floorRegistered then p.pool.removeFloor b p.queue.minByteCount else p.pool
    | none => p.pool
  match budget with
  | some b =>
    { queue := { p.queue with budget := budget, minByteCount := minByteCount, floorRegistered := true }
      pool := detached.addFloor b minByteCount }
  | none =>
    { queue := { p.queue with
        budget := budget
        minByteCount := minByteCount
        floorRegistered := p.queue.floorRegistered && p.queue.budget.isNone }
      pool := detached }

def setLifetimeBudget : Pooled T :=
  let detached := p.setBudget p.queue.budget 0
  { detached with queue := { detached.queue with lifetimeBudget := true } }

def borrow (target : ℤ) : Pooled T :=
  match p.queue.budget with
  | none => p
  | some b =>
    if p.queue.lifetimeBudget then { p with queue := { p.queue with borrowedByteCount := target } }
    else if target < p.queue.borrowedByteCount then
      { queue := { p.queue with borrowedByteCount := target }
        pool := p.pool.release b (p.queue.borrowedByteCount - target) }
    else if p.queue.borrowedByteCount < target then
      { queue := { p.queue with borrowedByteCount := target }
        pool := p.pool.reserve b (target - p.queue.borrowedByteCount) }
    else p

def updateByteCount (deltaByteCount deltaQueueByteCount : ℤ) : Pooled T :=
  let queue := { p.queue with
    byteCount := p.queue.byteCount + deltaByteCount
    queueByteCount := p.queue.queueByteCount + deltaQueueByteCount }
  borrow { p with queue := queue } (max 0 (queue.queueByteCount - queue.minByteCount))

def canAddWithQueueByteCount (byteCount queueByteCount maxByteCount : ℤ) : Bool :=
  if p.queue.orderedItems = [] ∧ p.queue.lifetimeBudget = false then true
  else if maxByteCount ≤ p.queue.byteCount + byteCount then false
  else match p.queue.budget with
    | none => true
    | some b =>
      let probeByteCount := max (p.queue.queueByteCount + queueByteCount) (p.queue.queueByteCount + 1)
      let borrowTargetByteCount := max 0 (probeByteCount - p.queue.minByteCount)
      decide (borrowTargetByteCount - p.queue.borrowedByteCount ≤ p.pool.available b)

def canAdd (byteCount maxByteCount : ℤ) : Bool :=
  p.canAddWithQueueByteCount byteCount byteCount maxByteCount

def clear : List T × Pooled T :=
  let updated := updateByteCount { p with queue := p.queue.emptied } (-p.queue.byteCount)
    (-p.queue.queueByteCount)
  (p.queue.orderedItems,
    match p.queue.budget with
    | some b =>
      if p.queue.floorRegistered then
        { queue := { updated.queue with floorRegistered := false }
          pool := updated.pool.removeFloor b p.queue.minByteCount }
      else updated
    | none => updated)

def add (item : T) : Pooled T :=
  updateByteCount { p with queue := p.queue.link item } (messageByteCount item)
    (TransferQueueItem.queueByteCount item)

def remove (item : T) : Pooled T :=
  updateByteCount { p with queue := p.queue.unlink item } (-messageByteCount item)
    (-TransferQueueItem.queueByteCount item)

def removeFound : Option T → Option T × Pooled T
  | none => (none, p)
  | some item => (some item, p.remove item)

def removeByMessageId (id : Id) : Option T × Pooled T := p.removeFound (p.queue.messageIdItems id)

def removeBySequenceNumber (n : ℕ) : Option T × Pooled T :=
  p.removeFound (p.queue.sequenceNumberItems n)

def removeFirst : Option T × Pooled T := p.removeFound p.queue.peekFirst

end Pooled

namespace TransferQueue

lemma heapRemove_perm (less : T → T → Bool) {items : List T} {item : T} (h : item ∈ items)
    (hn : (items.map messageId).Nodup) : (item :: heapRemove less items item).Perm items := by
  have hlt : heapIndex items item < items.length :=
    List.findIdx_lt_length_of_exists ⟨item, h, by simp⟩
  have hid : messageId items[heapIndex items item] = messageId item := by
    exact of_decide_eq_true (List.findIdx_getElem (w := hlt))
  have hget : items[heapIndex items item] = item :=
    List.inj_on_of_nodup_map hn (List.getElem_mem _) h hid
  obtain ⟨rest, hr, hp⟩ := ArrayHeap.removeAt_spec less items hlt
  rw [hget] at hr hp
  simpa only [heapRemove, hr, Option.map_some, Option.getD_some] using hp

structure Consistent (q : TransferQueue T) : Prop where
  maxHeap_perm : q.maxHeap.Perm q.orderedItems
  ids_nodup : (q.orderedItems.map messageId).Nodup
  numbers_nodup : (q.orderedItems.map sequenceNumber).Nodup
  byId : Indexes messageId q.orderedItems q.messageIdItems
  byNumber : Indexes sequenceNumber q.orderedItems q.sequenceNumberItems
  byteCount_eq : q.byteCount = (q.orderedItems.map messageByteCount).sum
  queueByteCount_eq : q.queueByteCount = (q.orderedItems.map TransferQueueItem.queueByteCount).sum

variable {q : TransferQueue T} {item : T}

lemma consistent_new : Consistent (newTransferQueue : TransferQueue T) := by
  constructor <;> simp [newTransferQueue, Indexes.nil]

lemma Consistent.eq_of_id (h : Consistent q) {x y : T} (hx : x ∈ q.orderedItems)
    (hy : y ∈ q.orderedItems) (he : messageId x = messageId y) : x = y :=
  List.inj_on_of_nodup_map h.ids_nodup hx hy he

lemma Consistent.eq_of_number (h : Consistent q) {x y : T} (hx : x ∈ q.orderedItems)
    (hy : y ∈ q.orderedItems) (he : sequenceNumber x = sequenceNumber y) : x = y :=
  List.inj_on_of_nodup_map h.numbers_nodup hx hy he

lemma Consistent.mem_maxHeap (h : Consistent q) {x : T} : x ∈ q.maxHeap ↔ x ∈ q.orderedItems :=
  h.maxHeap_perm.mem_iff

lemma Consistent.peekLast_mem (h : Consistent q) {x : T} (hx : q.peekLast = some x) :
    x ∈ q.orderedItems :=
  h.mem_maxHeap.mp (List.mem_of_head? hx)

omit [TransferQueueItem T] in
lemma peekFirst_mem {x : T} (hx : q.peekFirst = some x) : x ∈ q.orderedItems :=
  List.mem_of_head? hx

lemma link_perm (q : TransferQueue T) (item : T) :
    (q.link item).orderedItems.Perm (item :: q.orderedItems) :=
  ArrayHeap.push_perm less q.orderedItems item

lemma Consistent.unlink_perm (h : Consistent q) (hi : item ∈ q.orderedItems) :
    (item :: (q.unlink item).orderedItems).Perm q.orderedItems :=
  heapRemove_perm less hi h.ids_nodup

def recount (q : TransferQueue T) (delta deltaQueue borrowed : ℤ) : TransferQueue T :=
  { q with
    byteCount := q.byteCount + delta
    queueByteCount := q.queueByteCount + deltaQueue
    borrowedByteCount := borrowed }

lemma Consistent.link (h : Consistent q) (hid : ∀ x ∈ q.orderedItems, messageId x ≠ messageId item)
    (hnum : ∀ x ∈ q.orderedItems, sequenceNumber x ≠ sequenceNumber item) (borrowed : ℤ) :
    Consistent ((q.link item).recount (messageByteCount item)
      (TransferQueueItem.queueByteCount item) borrowed) := by
  have hp := link_perm q item
  constructor
  · exact (ArrayHeap.push_perm maxLess q.maxHeap item).trans ((h.maxHeap_perm.cons item).trans hp.symm)
  · refine (hp.map messageId).nodup_iff.mpr (List.nodup_cons.mpr ⟨?_, h.ids_nodup⟩)
    simpa using hid
  · refine (hp.map sequenceNumber).nodup_iff.mpr (List.nodup_cons.mpr ⟨?_, h.numbers_nodup⟩)
    simpa using hnum
  · exact h.byId.insert hp hid
  · exact h.byNumber.insert hp hnum
  · change q.byteCount + _ = _
    rw [h.byteCount_eq, add_comm]
    exact (hp.map messageByteCount).sum_eq.symm
  · change q.queueByteCount + _ = _
    rw [h.queueByteCount_eq, add_comm]
    exact (hp.map TransferQueueItem.queueByteCount).sum_eq.symm

lemma Consistent.unlink (h : Consistent q) (hi : item ∈ q.orderedItems) (borrowed : ℤ) :
    Consistent ((q.unlink item).recount (-messageByteCount item)
      (-TransferQueueItem.queueByteCount item) borrowed) := by
  have hp := h.unlink_perm hi
  have hmax : (item :: (q.unlink item).maxHeap).Perm q.maxHeap :=
    heapRemove_perm maxLess (h.mem_maxHeap.mpr hi) ((h.maxHeap_perm.map messageId).nodup_iff.mpr h.ids_nodup)
  constructor
  · exact (List.perm_cons item).mp (hmax.trans (h.maxHeap_perm.trans hp.symm))
  · exact (List.nodup_cons.mp ((hp.map messageId).nodup_iff.mpr h.ids_nodup)).2
  · exact (List.nodup_cons.mp ((hp.map sequenceNumber).nodup_iff.mpr h.numbers_nodup)).2
  · exact h.byId.erase hp h.ids_nodup
  · exact h.byNumber.erase hp h.numbers_nodup
  · have hs := (hp.map messageByteCount).sum_eq
    rw [List.map_cons, List.sum_cons, ← h.byteCount_eq] at hs
    change q.byteCount + _ = _
    rw [← hs]
    exact add_neg_cancel_comm _ _
  · have hs := (hp.map TransferQueueItem.queueByteCount).sum_eq
    rw [List.map_cons, List.sum_cons, ← h.queueByteCount_eq] at hs
    change q.queueByteCount + _ = _
    rw [← hs]
    exact add_neg_cancel_comm _ _

lemma Consistent.mapItems (h : Consistent q) {f : T → T} (hid : ∀ x, messageId (f x) = messageId x)
    (hnum : ∀ x, sequenceNumber (f x) = sequenceNumber x)
    (hb : ∀ x, messageByteCount (f x) = messageByteCount x)
    (hq : ∀ x, TransferQueueItem.queueByteCount (f x) = TransferQueueItem.queueByteCount x) :
    Consistent (q.mapItems f) where
  maxHeap_perm := h.maxHeap_perm.map f
  ids_nodup := by simpa [TransferQueue.mapItems, Function.comp_def, hid] using h.ids_nodup
  numbers_nodup := by simpa [TransferQueue.mapItems, Function.comp_def, hnum] using h.numbers_nodup
  byId := h.byId.map hid
  byNumber := h.byNumber.map hnum
  byteCount_eq := by simpa [TransferQueue.mapItems, Function.comp_def, hb] using h.byteCount_eq
  queueByteCount_eq := by simpa [TransferQueue.mapItems, Function.comp_def, hq] using h.queueByteCount_eq

end TransferQueue

namespace Pooled

open TransferQueue

variable {p : Pooled T} {item : T}

omit [TransferQueueItem T] in
lemma borrow_queue (p : Pooled T) (target : ℤ) :
    ∃ n, (p.borrow target).queue = { p.queue with borrowedByteCount := n } := by
  unfold borrow
  split
  · exact ⟨_, rfl⟩
  · split
    · exact ⟨_, rfl⟩
    split
    · exact ⟨_, rfl⟩
    split
    · exact ⟨_, rfl⟩
    · exact ⟨_, rfl⟩

omit [TransferQueueItem T] in
lemma updateByteCount_queue (p : Pooled T) (delta deltaQueue : ℤ) :
    ∃ n, (p.updateByteCount delta deltaQueue).queue = p.queue.recount delta deltaQueue n :=
  borrow_queue _ _

lemma add_queue (p : Pooled T) (item : T) :
    ∃ n, (p.add item).queue = (p.queue.link item).recount (messageByteCount item)
      (TransferQueueItem.queueByteCount item) n :=
  borrow_queue _ _

lemma remove_queue (p : Pooled T) (item : T) :
    ∃ n, (p.remove item).queue = (p.queue.unlink item).recount (-messageByteCount item)
      (-TransferQueueItem.queueByteCount item) n :=
  borrow_queue _ _

lemma add_perm (p : Pooled T) (item : T) :
    (p.add item).queue.orderedItems.Perm (item :: p.queue.orderedItems) := by
  obtain ⟨n, hn⟩ := p.add_queue item
  rw [hn]
  exact link_perm p.queue item

lemma consistent_add (h : Consistent p.queue)
    (hid : ∀ x ∈ p.queue.orderedItems, messageId x ≠ messageId item)
    (hnum : ∀ x ∈ p.queue.orderedItems, sequenceNumber x ≠ sequenceNumber item) :
    Consistent (p.add item).queue := by
  obtain ⟨n, hn⟩ := p.add_queue item
  rw [hn]
  exact h.link hid hnum n

lemma remove_perm (h : Consistent p.queue) (hi : item ∈ p.queue.orderedItems) :
    (item :: (p.remove item).queue.orderedItems).Perm p.queue.orderedItems := by
  obtain ⟨n, hn⟩ := p.remove_queue item
  rw [hn]
  exact h.unlink_perm hi

lemma consistent_remove (h : Consistent p.queue) (hi : item ∈ p.queue.orderedItems) :
    Consistent (p.remove item).queue := by
  obtain ⟨n, hn⟩ := p.remove_queue item
  rw [hn]
  exact h.unlink hi n

omit [TransferQueueItem T] in
lemma setBudget_orderedItems (budget : Option ℕ) (minByteCount : ℤ) :
    (p.setBudget budget minByteCount).queue.orderedItems = p.queue.orderedItems := by
  cases budget <;> rfl

omit [TransferQueueItem T] in
lemma setLifetimeBudget_orderedItems : p.setLifetimeBudget.queue.orderedItems = p.queue.orderedItems :=
  setBudget_orderedItems _ _

lemma consistent_setBudget (h : Consistent p.queue) (budget : Option ℕ) (minByteCount : ℤ) :
    Consistent (p.setBudget budget minByteCount).queue := by
  obtain ⟨h₁, h₂, h₃, h₄, h₅, h₆, h₇⟩ := h
  cases budget <;> exact ⟨h₁, h₂, h₃, h₄, h₅, h₆, h₇⟩

lemma consistent_setLifetimeBudget (h : Consistent p.queue) : Consistent p.setLifetimeBudget.queue := by
  obtain ⟨h₁, h₂, h₃, h₄, h₅, h₆, h₇⟩ := consistent_setBudget h p.queue.budget 0
  exact ⟨h₁, h₂, h₃, h₄, h₅, h₆, h₇⟩

lemma consistent_emptied (q : TransferQueue T) (borrowed : ℤ) :
    Consistent (q.emptied.recount (-q.byteCount) (-q.queueByteCount) borrowed) := by
  constructor
  · exact .refl _
  · exact List.nodup_nil
  · exact List.nodup_nil
  · exact Indexes.nil messageId
  · exact Indexes.nil sequenceNumber
  · exact add_neg_cancel q.byteCount
  · exact add_neg_cancel q.queueByteCount

lemma clear_spec (p : Pooled T) : Consistent p.clear.2.queue ∧ p.clear.2.queue.orderedItems = [] := by
  obtain ⟨n, hn⟩ := updateByteCount_queue { p with queue := p.queue.emptied } (-p.queue.byteCount)
    (-p.queue.queueByteCount)
  have hc : Consistent (updateByteCount { p with queue := p.queue.emptied } (-p.queue.byteCount)
      (-p.queue.queueByteCount)).queue := hn ▸ consistent_emptied p.queue n
  have ho : (updateByteCount { p with queue := p.queue.emptied } (-p.queue.byteCount)
      (-p.queue.queueByteCount)).queue.orderedItems = [] := by
    rw [hn]
    rfl
  obtain ⟨h₁, h₂, h₃, h₄, h₅, h₆, h₇⟩ := hc
  simp only [clear]
  split
  · split
    · exact ⟨⟨h₁, h₂, h₃, h₄, h₅, h₆, h₇⟩, ho⟩
    · exact ⟨⟨h₁, h₂, h₃, h₄, h₅, h₆, h₇⟩, ho⟩
  · exact ⟨⟨h₁, h₂, h₃, h₄, h₅, h₆, h₇⟩, ho⟩

inductive Removal (p : Pooled T) : Option T → Pooled T → Prop
  | absent : Removal p none p
  | found {item : T} {p' : Pooled T} (mem : item ∈ p.queue.orderedItems)
      (perm : (item :: p'.queue.orderedItems).Perm p.queue.orderedItems)
      (consistent : Consistent p'.queue) (eq : p' = p.remove item) : Removal p (some item) p'

lemma removal_found (h : Consistent p.queue) (hi : item ∈ p.queue.orderedItems) :
    Removal p (some item) (p.remove item) :=
  .found hi (remove_perm h hi) (consistent_remove h hi) rfl

lemma removeByMessageId_removal (h : Consistent p.queue) (id : Id) :
    Removal p (p.removeByMessageId id).1 (p.removeByMessageId id).2 := by
  unfold removeByMessageId
  cases hx : p.queue.messageIdItems id with
  | none => exact .absent
  | some item => exact removal_found h ((h.byId id item).mp hx).1

lemma removeBySequenceNumber_removal (h : Consistent p.queue) (n : ℕ) :
    Removal p (p.removeBySequenceNumber n).1 (p.removeBySequenceNumber n).2 := by
  unfold removeBySequenceNumber
  cases hx : p.queue.sequenceNumberItems n with
  | none => exact .absent
  | some item => exact removal_found h ((h.byNumber n item).mp hx).1

end Pooled

end UrConnect.Transfer
