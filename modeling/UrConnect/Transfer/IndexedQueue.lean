import UrConnect.Lib.IndexedHeap
import UrConnect.Lib.Runs
import UrConnect.Transfer.QueueOrder
import UrConnect.Transfer.ReceiveSequence

/-! The transfer queue with the two heap indexes that its items carry. A step that panics in the source has no
next state here. -/

namespace UrConnect.Transfer

open UrConnect.Lib UrConnect.Lib.Runs TransferQueueItem

/-- `heapIndex` and `maxHeapIndex` are the fields of the items. -/
structure IndexedQueue (T : Type) where
  pooled : Pooled T
  heapIndex : T → ℕ
  maxHeapIndex : T → ℕ

namespace IndexedQueue

open TransferQueue

section Model

variable {T : Type} [TransferQueueItem T] [DecidableEq T] (q : IndexedQueue T)

def ordered : IndexedHeap T := ⟨q.pooled.queue.orderedItems, q.heapIndex⟩

def maxHeap : IndexedHeap T := ⟨q.pooled.queue.maxHeap, q.maxHeapIndex⟩

def relinked (ordered maxHeap : IndexedHeap T) (messageIdItems : Id → Option T)
    (sequenceNumberItems : ℕ → Option T) : IndexedQueue T :=
  { pooled := { q.pooled with queue := { q.pooled.queue with
      orderedItems := ordered.items
      maxHeap := maxHeap.items
      messageIdItems := messageIdItems
      sequenceNumberItems := sequenceNumberItems } }
    heapIndex := ordered.index
    maxHeapIndex := maxHeap.index }

def updateByteCount (deltaByteCount deltaQueueByteCount : ℤ) : IndexedQueue T :=
  { q with pooled := q.pooled.updateByteCount deltaByteCount deltaQueueByteCount }

def add (item : T) : IndexedQueue T :=
  (q.relinked (q.ordered.push less item) (q.maxHeap.push maxLess item)
    (Function.update q.pooled.queue.messageIdItems (messageId item) (some item))
    (Function.update q.pooled.queue.sequenceNumberItems (sequenceNumber item) (some item))).updateByteCount
      (messageByteCount item) (TransferQueueItem.queueByteCount item)

def takeOut (item : T) (ordered : IndexedHeap T) : Option (IndexedQueue T) :=
  (q.maxHeap.removeAt maxLess (q.maxHeapIndex item)).map fun removed =>
    (q.relinked ordered removed.2
      (Function.update q.pooled.queue.messageIdItems (messageId item) none)
      (Function.update q.pooled.queue.sequenceNumberItems (sequenceNumber item) none)).updateByteCount
        (-messageByteCount item) (-TransferQueueItem.queueByteCount item)

def remove (item : T) : Option (IndexedQueue T) :=
  match q.ordered.removeAt less (q.heapIndex item) with
  | none => none
  | some (item', ordered) =>
    -- the panic of a broken heap invariant
    if item ≠ item' then none else q.takeOut item ordered

def removeFound : Option T → Option (Option T × IndexedQueue T)
  | none => some (none, q)
  | some item => (q.remove item).map fun q' => (some item, q')

def removeByMessageId (id : Id) : Option (Option T × IndexedQueue T) :=
  q.removeFound (q.pooled.queue.messageIdItems id)

def removeBySequenceNumber (n : ℕ) : Option (Option T × IndexedQueue T) :=
  q.removeFound (q.pooled.queue.sequenceNumberItems n)

def removeFirst : Option (Option T × IndexedQueue T) :=
  if q.pooled.queue.orderedItems.length = 0 then some (none, q)
  else match q.ordered.removeAt less 0 with
    | none => none
    | some (item, ordered) => (q.takeOut item ordered).map fun q' => (some item, q')

def clear : List T × IndexedQueue T := (q.pooled.clear.1, { q with pooled := q.pooled.clear.2 })

def new (pool : BudgetTree) : IndexedQueue T where
  pooled := ⟨newTransferQueue, pool⟩
  heapIndex _ := 0
  maxHeapIndex _ := 0

inductive Event (T : Type) where
  | add (item : T)
  | removeByMessageId (id : Id)
  | removeBySequenceNumber (n : ℕ)
  | removeFirst
  | clear
  | setBudget (budget : Option ℕ) (minByteCount : ℤ)
  | setLifetimeBudget
  | pool (pool : BudgetTree)

def step : Event T → Option (IndexedQueue T)
  | .add item => some (q.add item)
  | .removeByMessageId id => (q.removeByMessageId id).map Prod.snd
  | .removeBySequenceNumber n => (q.removeBySequenceNumber n).map Prod.snd
  | .removeFirst => q.removeFirst.map Prod.snd
  | .clear => some q.clear.2
  | .setBudget budget minByteCount => some { q with pooled := q.pooled.setBudget budget minByteCount }
  | .setLifetimeBudget => some { q with pooled := q.pooled.setLifetimeBudget }
  | .pool pool => some { q with pooled := { q.pooled with pool := pool } }

def Fresh : Event T → Prop
  | .add item => q.pooled.queue.messageIdItems (messageId item) = none ∧
      q.pooled.queue.sequenceNumberItems (sequenceNumber item) = none
  | _ => True

instance : (event : Event T) → Decidable (q.Fresh event)
  | .add item => inferInstanceAs (Decidable (q.pooled.queue.messageIdItems (messageId item) = none ∧
      q.pooled.queue.sequenceNumberItems (sequenceNumber item) = none))
  | .removeByMessageId _ => .isTrue trivial
  | .removeBySequenceNumber _ => .isTrue trivial
  | .removeFirst => .isTrue trivial
  | .clear => .isTrue trivial
  | .setBudget _ _ => .isTrue trivial
  | .setLifetimeBudget => .isTrue trivial
  | .pool _ => .isTrue trivial

end Model

section Represents

variable {T : Type} [TransferQueueItem T] [DecidableEq T] {q q' : IndexedQueue T} {item : T}

structure Represents (q : IndexedQueue T) : Prop where
  consistent : Consistent q.pooled.queue
  ordered : q.ordered.Tracks
  maxHeap : q.maxHeap.Tracks
  heaps : ∀ [LawfulCmp T], HeapOrdered q.pooled.queue

omit [DecidableEq T] in
lemma getElem?_heapIndex {items : List T} (hi : item ∈ items) (hn : (items.map messageId).Nodup) :
    items[TransferQueue.heapIndex items item]? = some item := by
  have hlt : TransferQueue.heapIndex items item < items.length :=
    List.findIdx_lt_length_of_exists ⟨item, hi, by simp⟩
  have hid : messageId items[TransferQueue.heapIndex items item] = messageId item :=
    of_decide_eq_true (List.findIdx_getElem (w := hlt))
  rw [List.getElem?_eq_getElem hlt, List.inj_on_of_nodup_map hn (List.getElem_mem _) hi hid]

lemma tracks_removeAt {h : IndexedHeap T} (ht : h.Tracks) (less : T → T → Bool) (hi : item ∈ h.items)
    (hn : (h.items.map messageId).Nodup) :
    ∃ rest, h.removeAt less (h.index item) = some (item, rest) ∧ rest.Tracks ∧
      rest.items = heapRemove less h.items item := by
  obtain ⟨rest, hremove, htracks, -, hitems⟩ := ht.removeAt less hi
  refine ⟨rest, hremove, htracks, ?_⟩
  rw [ht _ item (getElem?_heapIndex hi hn)] at hitems
  rw [heapRemove, hitems]
  rfl

omit [TransferQueueItem T] [DecidableEq T] in
@[simp] lemma updateByteCount_ordered (q : IndexedQueue T) (delta deltaQueue : ℤ) :
    (q.updateByteCount delta deltaQueue).ordered = q.ordered := by
  obtain ⟨n, hn⟩ := q.pooled.updateByteCount_queue delta deltaQueue
  rw [ordered, updateByteCount, hn]
  rfl

omit [TransferQueueItem T] [DecidableEq T] in
@[simp] lemma updateByteCount_maxHeap (q : IndexedQueue T) (delta deltaQueue : ℤ) :
    (q.updateByteCount delta deltaQueue).maxHeap = q.maxHeap := by
  obtain ⟨n, hn⟩ := q.pooled.updateByteCount_queue delta deltaQueue
  rw [maxHeap, updateByteCount, hn]
  rfl

omit [DecidableEq T] in
lemma represents_new (pool : BudgetTree) : Represents (new pool : IndexedQueue T) where
  consistent := consistent_new
  ordered _ _ h := nomatch h
  maxHeap _ _ h := nomatch h
  heaps := heapOrdered_new

lemma add_pooled (q : IndexedQueue T) (item : T) : (q.add item).pooled = q.pooled.add item := by
  simp only [add, updateByteCount, relinked, IndexedHeap.push_items]
  rfl

lemma Represents.add (h : Represents q) (hid : ∀ x ∈ q.pooled.queue.orderedItems, messageId x ≠ messageId item)
    (hnumber : ∀ x ∈ q.pooled.queue.orderedItems, sequenceNumber x ≠ sequenceNumber item) :
    Represents (q.add item) := by
  have habsent : item ∉ q.pooled.queue.orderedItems := fun hi => hid item hi rfl
  refine ⟨?_, ?_, ?_, ?_⟩
  · rw [add_pooled]
    exact Pooled.consistent_add h.consistent hid hnumber
  · rw [IndexedQueue.add, updateByteCount_ordered]
    exact h.ordered.push habsent
  · rw [IndexedQueue.add, updateByteCount_maxHeap]
    exact h.maxHeap.push fun hi => habsent (h.consistent.mem_maxHeap.mp hi)
  · intro _
    rw [add_pooled]
    exact Pooled.heapOrdered_add h.heaps item

lemma Represents.takeOut (h : Represents q) (hi : item ∈ q.pooled.queue.orderedItems) {rest : IndexedHeap T}
    (htracks : rest.Tracks) (hrest : rest.items = heapRemove less q.pooled.queue.orderedItems item) :
    ∃ q', q.takeOut item rest = some q' ∧ q'.pooled = q.pooled.remove item ∧ Represents q' := by
  have hn : (q.maxHeap.items.map messageId).Nodup :=
    (h.consistent.maxHeap_perm.map messageId).nodup_iff.mpr h.consistent.ids_nodup
  obtain ⟨restMax, hremove, htracksMax, hrestMax⟩ :=
    tracks_removeAt h.maxHeap maxLess (h.consistent.mem_maxHeap.mpr hi) hn
  obtain ⟨q', hq'⟩ : ∃ q', q' = (q.relinked rest restMax
      (Function.update q.pooled.queue.messageIdItems (messageId item) none)
      (Function.update q.pooled.queue.sequenceNumberItems (sequenceNumber item) none)).updateByteCount
        (-messageByteCount item) (-TransferQueueItem.queueByteCount item) := ⟨_, rfl⟩
  have hpooled : q'.pooled = q.pooled.remove item := by
    simp only [hq', updateByteCount, relinked, hrest, hrestMax, Pooled.remove]
    rfl
  refine ⟨q', ?_, hpooled, ⟨?_, ?_, ?_, ?_⟩⟩
  · rw [hq', IndexedQueue.takeOut]
    exact congrArg _ hremove
  · rw [hpooled]
    exact Pooled.consistent_remove h.consistent hi
  · rw [hq', updateByteCount_ordered]
    exact htracks
  · rw [hq', updateByteCount_maxHeap]
    exact htracksMax
  · intro _
    rw [hpooled]
    exact Pooled.heapOrdered_remove h.heaps item

lemma Represents.remove (h : Represents q) (hi : item ∈ q.pooled.queue.orderedItems) :
    ∃ q', q.remove item = some q' ∧ q'.pooled = q.pooled.remove item ∧ Represents q' := by
  obtain ⟨rest, hremove, htracks, hrest⟩ := tracks_removeAt h.ordered less hi h.consistent.ids_nodup
  obtain ⟨q', htake, hpooled, hq'⟩ := h.takeOut hi htracks hrest
  refine ⟨q', ?_, hpooled, hq'⟩
  have heq : q.ordered.removeAt less (q.heapIndex item) = some (item, rest) := hremove
  rw [IndexedQueue.remove, heq]
  simpa using htake

lemma Represents.removeFound (h : Represents q) {found : Option T}
    (hfound : ∀ x, found = some x → x ∈ q.pooled.queue.orderedItems) :
    ∃ q', q.removeFound found = some (found, q') ∧ q'.pooled = (q.pooled.removeFound found).2 ∧ Represents q' := by
  cases found with
  | none => exact ⟨q, rfl, rfl, h⟩
  | some item =>
    obtain ⟨q', hremove, hpooled, hq'⟩ := h.remove (hfound item rfl)
    refine ⟨q', ?_, hpooled, hq'⟩
    rw [IndexedQueue.removeFound, hremove]
    rfl

lemma Represents.removeByMessageId (h : Represents q) (id : Id) :
    ∃ q', q.removeByMessageId id = some (q.pooled.queue.messageIdItems id, q') ∧
      q'.pooled = (q.pooled.removeByMessageId id).2 ∧ Represents q' :=
  h.removeFound fun x hx => ((h.consistent.byId id x).mp hx).1

lemma Represents.removeBySequenceNumber (h : Represents q) (n : ℕ) :
    ∃ q', q.removeBySequenceNumber n = some (q.pooled.queue.sequenceNumberItems n, q') ∧
      q'.pooled = (q.pooled.removeBySequenceNumber n).2 ∧ Represents q' :=
  h.removeFound fun x hx => ((h.consistent.byNumber n x).mp hx).1

lemma Represents.removeFirst (h : Represents q) :
    ∃ q', q.removeFirst = some (q.pooled.queue.peekFirst, q') ∧
      q'.pooled = q.pooled.removeFirst.2 ∧ Represents q' := by
  rw [IndexedQueue.removeFirst, Pooled.removeFirst]
  cases hfirst : q.pooled.queue.peekFirst with
  | none =>
    rw [if_pos (List.length_eq_zero_iff.mpr (List.head?_eq_none_iff.mp hfirst))]
    exact ⟨q, rfl, rfl, h⟩
  | some item =>
    have hi := peekFirst_mem hfirst
    have hzero : q.ordered.index item = 0 := by
      apply h.ordered 0 item
      rw [← List.head?_eq_getElem?]
      exact hfirst
    obtain ⟨rest, hremove, htracks, hrest⟩ := tracks_removeAt h.ordered less hi h.consistent.ids_nodup
    rw [hzero] at hremove
    obtain ⟨q', htake, hpooled, hq'⟩ := h.takeOut hi htracks hrest
    refine ⟨q', ?_, hpooled, hq'⟩
    rw [if_neg (List.length_pos_of_mem hi).ne', hremove]
    dsimp only
    rw [htake]
    rfl

omit [DecidableEq T] in
lemma represents_clear (q : IndexedQueue T) : Represents q.clear.2 := by
  obtain ⟨hconsistent, hitems⟩ := q.pooled.clear_spec
  have hmax := hconsistent.maxHeap_perm
  rw [hitems, List.perm_nil] at hmax
  refine ⟨hconsistent, ?_, ?_, fun [_] => Pooled.heapOrdered_clear q.pooled⟩
  · intro i x hx
    change q.pooled.clear.2.queue.orderedItems[i]? = some x at hx
    simp [hitems] at hx
  · intro i x hx
    change q.pooled.clear.2.queue.maxHeap[i]? = some x at hx
    simp [hmax] at hx

omit [TransferQueueItem T] [DecidableEq T] in
lemma setBudget_maxHeap {p : Pooled T} (budget : Option ℕ) (minByteCount : ℤ) :
    (p.setBudget budget minByteCount).queue.maxHeap = p.queue.maxHeap := by
  cases budget <;> rfl

omit [DecidableEq T] in
lemma Represents.repool (h : Represents q) {p : Pooled T} (hconsistent : Consistent p.queue)
    (hitems : p.queue.orderedItems = q.pooled.queue.orderedItems) (hmax : p.queue.maxHeap = q.pooled.queue.maxHeap)
    (hheaps : ∀ [LawfulCmp T], HeapOrdered p.queue) : Represents { q with pooled := p } := by
  refine ⟨hconsistent, ?_, ?_, hheaps⟩
  · rw [IndexedQueue.ordered, hitems]
    exact h.ordered
  · rw [IndexedQueue.maxHeap, hmax]
    exact h.maxHeap

lemma represents_step (q : IndexedQueue T) (event : Event T) (h : Represents q) (hfresh : q.Fresh event) :
    ∃ q', q.step event = some q' ∧ Represents q' := by
  cases event with
  | add item =>
    refine ⟨_, rfl, h.add (fun x hx => ?_) fun x hx => ?_⟩
    · exact h.consistent.byId.eq_none hfresh.1 hx
    · exact h.consistent.byNumber.eq_none hfresh.2 hx
  | removeByMessageId id =>
    obtain ⟨q', hremove, -, hq'⟩ := h.removeByMessageId id
    exact ⟨q', by rw [step, hremove]; rfl, hq'⟩
  | removeBySequenceNumber n =>
    obtain ⟨q', hremove, -, hq'⟩ := h.removeBySequenceNumber n
    exact ⟨q', by rw [step, hremove]; rfl, hq'⟩
  | removeFirst =>
    obtain ⟨q', hremove, -, hq'⟩ := h.removeFirst
    exact ⟨q', by rw [step, hremove]; rfl, hq'⟩
  | clear => exact ⟨_, rfl, represents_clear q⟩
  | setBudget budget minByteCount =>
    refine ⟨_, rfl, h.repool (Pooled.consistent_setBudget h.consistent budget minByteCount)
      (Pooled.setBudget_orderedItems budget minByteCount) (setBudget_maxHeap budget minByteCount)
      fun [_] => Pooled.heapOrdered_setBudget h.heaps budget minByteCount⟩
  | setLifetimeBudget =>
    refine ⟨_, rfl, h.repool (Pooled.consistent_setLifetimeBudget h.consistent) Pooled.setLifetimeBudget_orderedItems
      (setBudget_maxHeap q.pooled.queue.budget 0) fun [_] => Pooled.heapOrdered_setLifetimeBudget h.heaps⟩
  | pool pool => exact ⟨_, rfl, h.consistent, h.ordered, h.maxHeap, h.heaps⟩

omit [DecidableEq T] in
lemma removeFound_perm {p : Pooled T} (h : Consistent p.queue) {found : Option T}
    (hfound : ∀ x, found = some x → x ∈ p.queue.orderedItems) :
    (found.toList ++ (p.removeFound found).2.queue.orderedItems).Perm p.queue.orderedItems := by
  cases found with
  | none => exact .refl _
  | some item => exact Pooled.remove_perm h (hfound item rfl)

/-- The queue that a run of operations reaches from an empty one: none of them panics, the heaps and the maps hold
the same items, the items carry their positions, the ends of the queue are a least and a greatest item, and the
byte counts are those of the items. -/
theorem queue_representation (pool : BudgetTree) (events : List (Event T))
    (hfresh : MeetsM Fresh step (new pool) events) :
    ∃ q : IndexedQueue T, events.foldlM step (new pool) = some q ∧
      let items := q.pooled.queue.orderedItems
      (q.pooled.queue.maxHeap.Perm items ∧ Indexes messageId items q.pooled.queue.messageIdItems ∧
        Indexes sequenceNumber items q.pooled.queue.sequenceNumberItems) ∧
      ((items.map messageId).Nodup ∧ (items.map sequenceNumber).Nodup) ∧
      (∀ i x, items[i]? = some x → q.heapIndex x = i) ∧
      (∀ i x, q.pooled.queue.maxHeap[i]? = some x → q.maxHeapIndex x = i) ∧
      (∀ id, ∃ q', q.removeByMessageId id = some (q.pooled.queue.messageIdItems id, q') ∧
        ((q.pooled.queue.messageIdItems id).toList ++ q'.pooled.queue.orderedItems).Perm items) ∧
      (∀ n, ∃ q', q.removeBySequenceNumber n = some (q.pooled.queue.sequenceNumberItems n, q') ∧
        ((q.pooled.queue.sequenceNumberItems n).toList ++ q'.pooled.queue.orderedItems).Perm items) ∧
      (∃ q', q.removeFirst = some (q.pooled.queue.peekFirst, q') ∧
        (q.pooled.queue.peekFirst.toList ++ q'.pooled.queue.orderedItems).Perm items) ∧
      (q.pooled.queue.peekFirst = none ↔ items = []) ∧ (q.pooled.queue.peekLast = none ↔ items = []) ∧
      q.pooled.queue.ascendingItems.Perm items ∧
      (LawfulCmp T →
        (∀ first, q.pooled.queue.peekFirst = some first → first ∈ items ∧ ∀ x ∈ items, cmp first x ≤ 0) ∧
        (∀ last, q.pooled.queue.peekLast = some last → last ∈ items ∧ ∀ x ∈ items, cmp x last ≤ 0) ∧
        q.pooled.queue.ascendingItems.Pairwise fun a b => TransferQueueItem.cmp a b ≤ 0) ∧
      q.pooled.queue.byteCount = (items.map messageByteCount).sum ∧
      q.pooled.queue.queueByteCount = (items.map TransferQueueItem.queueByteCount).sum := by
  obtain ⟨q, hrun, h⟩ := foldlM_meets represents_step (represents_new pool) hfresh
  have hc := h.consistent
  refine ⟨q, hrun, ⟨hc.maxHeap_perm, hc.byId, hc.byNumber⟩, ⟨hc.ids_nodup, hc.numbers_nodup⟩, h.ordered, h.maxHeap,
    fun id => ?_, fun n => ?_, ?_, List.head?_eq_none_iff, ?_, List.perm_insertionSort _ _, fun hlawful => ?_,
    hc.byteCount_eq, hc.queueByteCount_eq⟩
  · obtain ⟨q', hremove, hpooled, -⟩ := h.removeByMessageId id
    rw [hremove]
    exact ⟨q', rfl, hpooled ▸ removeFound_perm hc fun x hx => ((hc.byId id x).mp hx).1⟩
  · obtain ⟨q', hremove, hpooled, -⟩ := h.removeBySequenceNumber n
    rw [hremove]
    exact ⟨q', rfl, hpooled ▸ removeFound_perm hc fun x hx => ((hc.byNumber n x).mp hx).1⟩
  · obtain ⟨q', hremove, hpooled, -⟩ := h.removeFirst
    rw [hremove]
    exact ⟨q', rfl, hpooled ▸ removeFound_perm hc fun x hx => peekFirst_mem hx⟩
  · rw [peekLast, List.head?_eq_none_iff]
    exact ⟨fun hnil => List.nil_perm.mp (hnil ▸ hc.maxHeap_perm), fun hnil => List.perm_nil.mp (hnil ▸ hc.maxHeap_perm)⟩
  · refine ⟨fun first hfirst => ⟨peekFirst_mem hfirst, fun x hx => h.heaps.peekFirst hfirst hx⟩,
      fun last hlast => ⟨hc.peekLast_mem hlast, fun x hx => ?_⟩, ascendingItems_pairwise _⟩
    exact h.heaps.peekLast hlast (hc.mem_maxHeap.mpr hx)

end Represents

instance : LawfulCmp ReceiveItem := lawfulCmp_of_key ReceiveItem.sequenceNumber fun _ _ => rfl

def sampleItem (id : UInt8) (n : ℕ) : ReceiveItem :=
  ReceiveSequence.newReceiveItem ReceiveSequence.openEnv (ReceiveSequence.barePack (.ofByte id) n false 10) (.ofByte id) none

def sampleEvents : List (Event ReceiveItem) :=
  [.add (sampleItem 3 30), .add (sampleItem 1 10), .add (sampleItem 2 20), .removeByMessageId (.ofByte 1)]

theorem queue_representation_of_sampleEvents :
    ∃ q : IndexedQueue ReceiveItem, sampleEvents.foldlM step (new .empty) = some q ∧
      ∀ last, q.pooled.queue.peekLast = some last → ∀ x ∈ q.pooled.queue.orderedItems, cmp x last ≤ 0 := by
  obtain ⟨q, hrun, h⟩ := queue_representation .empty sampleEvents (by decide +kernel)
  have hends := h.2.2.2.2.2.2.2.2.2.2.1 inferInstance
  exact ⟨q, hrun, fun last hlast => (hends.2.1 last hlast).2⟩

end IndexedQueue

end UrConnect.Transfer
