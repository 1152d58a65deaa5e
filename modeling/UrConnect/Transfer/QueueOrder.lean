import UrConnect.Transfer.Queue

/-! The order of the two heaps of a transfer queue whose comparison is a total preorder. -/

namespace UrConnect.Transfer

open UrConnect.Lib UrConnect.Lib.ArrayHeap TransferQueueItem

class LawfulCmp (T : Type) [TransferQueueItem T] : Prop where
  swap : ∀ a b : T, cmp a b < 0 ↔ 0 < cmp b a
  trans : ∀ a b c : T, cmp a b ≤ 0 → cmp b c ≤ 0 → cmp a c ≤ 0

structure Ranked (T : Type) where
  item : T

variable {T : Type} [TransferQueueItem T]

lemma lawfulCmp_of_key {κ : Type} [LinearOrder κ] (key : T → κ)
    (h : ∀ a b : T, cmp a b = if key a < key b then -1 else if key b < key a then 1 else 0) : LawfulCmp T := by
  have hle (a b : T) : cmp a b ≤ 0 ↔ key a ≤ key b := by
    rw [h]
    split
    · exact iff_of_true (by decide) (le_of_lt ‹_›)
    split
    · exact iff_of_false (by decide) (not_le_of_gt ‹_›)
    · exact iff_of_true le_rfl (not_lt.mp ‹_›)
  have hlt (a b : T) : 0 < cmp a b ↔ key b < key a := by
    rw [← not_le, hle, not_le]
  refine ⟨fun a b => ?_, fun a b c hab hbc => ?_⟩
  · rw [hlt, h]
    split
    · exact iff_of_true (by decide) ‹_›
    split
    · exact iff_of_false (by decide) (lt_asymm ‹_›)
    · exact iff_of_false (by decide) ‹_›
  · rw [hle] at *
    exact hab.trans hbc

section Ranked

variable [LawfulCmp T]

instance : Preorder (Ranked T) where
  le a b := cmp a.item b.item ≤ 0
  lt a b := cmp a.item b.item < 0
  le_refl a := by
    by_contra h
    have hlt := (LawfulCmp.swap a.item a.item).mpr (not_le.mp h)
    exact h hlt.le
  le_trans a b c := LawfulCmp.trans a.item b.item c.item
  lt_iff_le_not_ge a b := by
    rw [not_le, ← LawfulCmp.swap]
    exact ⟨fun h => ⟨h.le, h⟩, fun h => h.2⟩

instance : DecidableLT (Ranked T) := fun a b => Int.decLt (cmp a.item b.item) 0

lemma ranked_total (a b : T) : cmp a b ≤ 0 ∨ cmp b a ≤ 0 := by
  by_cases h : cmp a b ≤ 0
  · exact .inl h
  · exact .inr ((LawfulCmp.swap b a).mpr (not_le.mp h)).le

instance : @Std.Total (Ranked T) (· ≤ ·) where
  total a b := ranked_total a.item b.item

lemma ranked_le {a b : T} : Ranked.mk a ≤ Ranked.mk b ↔ cmp a b ≤ 0 := Iff.rfl

end Ranked

namespace TransferQueue

lemma heaped_heapRemove {κ : Type} [Preorder κ] [DecidableLT κ] [@Std.Total κ (· ≤ ·)] {key : T → κ} {l : List T}
    (h : Heaped key l.length l) (x : T) :
    Heaped key (heapRemove (keyLess key) l x).length (heapRemove (keyLess key) l x) := by
  rw [heapRemove]
  cases hr : removeAt (keyLess key) l (heapIndex l x) with
  | none => exact h
  | some r => exact removeAt_heaped h hr

variable [LawfulCmp T]

lemma maxLess_eq_keyLess : (maxLess : T → T → Bool) = keyLess fun a => OrderDual.toDual (Ranked.mk a) := by
  funext a b
  exact decide_eq_decide.mpr (LawfulCmp.swap b a).symm

structure HeapOrdered (q : TransferQueue T) : Prop where
  first : Heaped Ranked.mk q.orderedItems.length q.orderedItems
  last : Heaped (fun a => OrderDual.toDual (Ranked.mk a)) q.maxHeap.length q.maxHeap

variable {q : TransferQueue T} {item : T}

lemma HeapOrdered.peekFirst (h : HeapOrdered q) (hfirst : q.peekFirst = some item) {x : T}
    (hx : x ∈ q.orderedItems) : cmp item x ≤ 0 :=
  ranked_le.mp (h.first.first_least hfirst hx)

lemma HeapOrdered.peekLast (h : HeapOrdered q) (hlast : q.peekLast = some item) {x : T} (hx : x ∈ q.maxHeap) :
    cmp x item ≤ 0 :=
  ranked_le.mp (OrderDual.toDual_le_toDual.mp (h.last.first_least hlast hx))

lemma HeapOrdered.link (h : HeapOrdered q) (item : T) : HeapOrdered (q.link item) := by
  refine ⟨h.first.push item, ?_⟩
  rw [TransferQueue.link, maxLess_eq_keyLess]
  exact h.last.push item

lemma HeapOrdered.unlink (h : HeapOrdered q) (item : T) : HeapOrdered (q.unlink item) := by
  refine ⟨heaped_heapRemove h.first item, ?_⟩
  rw [TransferQueue.unlink, maxLess_eq_keyLess]
  exact heaped_heapRemove h.last item

lemma heapOrdered_new : HeapOrdered (newTransferQueue : TransferQueue T) := ⟨heaped_nil _, heaped_nil _⟩

lemma HeapOrdered.recount (h : HeapOrdered q) (delta deltaQueue borrowed : ℤ) :
    HeapOrdered (q.recount delta deltaQueue borrowed) := ⟨h.first, h.last⟩

lemma HeapOrdered.mapItems (h : HeapOrdered q) {f : T → T} (hf : ∀ a b, cmp (f a) (f b) = cmp a b) :
    HeapOrdered (q.mapItems f) := by
  have hkey (a b : T) : Ranked.mk (f a) ≤ Ranked.mk (f b) ↔ Ranked.mk a ≤ Ranked.mk b := by
    rw [ranked_le, ranked_le, hf]
  exact ⟨h.first.map fun a b => (hkey a b).mpr, h.last.map fun a b => (hkey b a).mpr⟩

lemma ascendingItems_pairwise (q : TransferQueue T) : q.ascendingItems.Pairwise fun a b => TransferQueueItem.cmp a b ≤ 0 := by
  have htotal : Std.Total fun a b : T => TransferQueueItem.cmp a b ≤ 0 := ⟨fun a b => ranked_total a b⟩
  have htrans : IsTrans T fun a b => TransferQueueItem.cmp a b ≤ 0 := ⟨LawfulCmp.trans⟩
  exact List.pairwise_insertionSort _ q.orderedItems

end TransferQueue

namespace Pooled

open TransferQueue

variable [LawfulCmp T] {p : Pooled T} {item : T}

lemma heapOrdered_add (h : HeapOrdered p.queue) (item : T) : HeapOrdered (p.add item).queue := by
  obtain ⟨n, hn⟩ := p.add_queue item
  rw [hn]
  exact (h.link item).recount _ _ n

lemma heapOrdered_remove (h : HeapOrdered p.queue) (item : T) : HeapOrdered (p.remove item).queue := by
  obtain ⟨n, hn⟩ := p.remove_queue item
  rw [hn]
  exact (h.unlink item).recount _ _ n

lemma heapOrdered_setBudget (h : HeapOrdered p.queue) (budget : Option ℕ) (minByteCount : ℤ) :
    HeapOrdered (p.setBudget budget minByteCount).queue := by
  cases budget <;> exact ⟨h.first, h.last⟩

lemma heapOrdered_setLifetimeBudget (h : HeapOrdered p.queue) : HeapOrdered p.setLifetimeBudget.queue := by
  have hset := heapOrdered_setBudget h p.queue.budget 0
  exact ⟨hset.first, hset.last⟩

lemma heapOrdered_clear (p : Pooled T) : HeapOrdered p.clear.2.queue := by
  obtain ⟨hconsistent, hitems⟩ := clear_spec p
  have hmax := hconsistent.maxHeap_perm
  rw [hitems, List.perm_nil] at hmax
  refine ⟨?_, ?_⟩
  · rw [hitems]
    exact heaped_nil _
  · rw [hmax]
    exact heaped_nil _

end Pooled

end UrConnect.Transfer
