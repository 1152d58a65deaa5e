import UrConnect.Transfer.ReceiveFrames

/-! The queue of held items stays consistent, and holds ack items that no contract paid for yet. -/

namespace UrConnect.Transfer.ReceiveSequence

open TransferQueue Pooled

variable {s s' : ReceiveSequence} {cfg : ReceiveBufferSettings} {env : ReceiveEnv}
  {item : ReceiveItem} {p p' : Pooled ReceiveItem}

def Shrinks (p p' : Pooled ReceiveItem) : Prop :=
  Consistent p'.queue ∧ ∀ x ∈ p'.queue.orderedItems, x ∈ p.queue.orderedItems

lemma Shrinks.trans {p'' : Pooled ReceiveItem} (h : Shrinks p p') (h' : Shrinks p' p'') :
    Shrinks p p'' :=
  ⟨h'.1, fun x hx => h.2 x (h'.2 x hx)⟩

lemma shrinks_of_removal (h : Consistent p.queue) {found : Option ReceiveItem}
    (hr : Removal p found p') : Shrinks p p' := by
  cases hr with
  | absent => exact ⟨h, fun _ hx => hx⟩
  | found _ perm consistent _ =>
    exact ⟨consistent, fun x hx => perm.mem_iff.mp (List.mem_cons_of_mem _ hx)⟩

lemma removeByMessageId_shrinks (h : Consistent p.queue) (id : Id) :
    Shrinks p (p.removeByMessageId id).2 :=
  shrinks_of_removal h (removeByMessageId_removal h id)

lemma removeBySequenceNumber_shrinks (h : Consistent p.queue) (n : ℕ) :
    Shrinks p (p.removeBySequenceNumber n).2 :=
  shrinks_of_removal h (removeBySequenceNumber_removal h n)

lemma removeByMessageId_absent (h : Consistent p.queue) (id : Id) {x : ReceiveItem}
    (hx : x ∈ (p.removeByMessageId id).2.queue.orderedItems) : x.messageId ≠ id := by
  unfold removeByMessageId at hx
  cases hf : p.queue.messageIdItems id with
  | none =>
    rw [hf] at hx
    exact h.byId.eq_none hf hx
  | some item =>
    rw [hf] at hx
    obtain ⟨hmem, rfl⟩ := (h.byId id item).mp hf
    have hnodup := ((remove_perm h hmem).map TransferQueueItem.messageId).nodup_iff.mpr h.ids_nodup
    rw [List.map_cons, List.nodup_cons] at hnodup
    exact fun he => hnodup.1 (he ▸ List.mem_map_of_mem hx)

lemma removeBySequenceNumber_absent (h : Consistent p.queue) (n : ℕ) {x : ReceiveItem}
    (hx : x ∈ (p.removeBySequenceNumber n).2.queue.orderedItems) : x.sequenceNumber ≠ n := by
  unfold removeBySequenceNumber at hx
  cases hf : p.queue.sequenceNumberItems n with
  | none =>
    rw [hf] at hx
    exact h.byNumber.eq_none hf hx
  | some item =>
    rw [hf] at hx
    obtain ⟨hmem, rfl⟩ := (h.byNumber n item).mp hf
    have hnodup := ((remove_perm h hmem).map TransferQueueItem.sequenceNumber).nodup_iff.mpr h.numbers_nodup
    rw [List.map_cons, List.nodup_cons] at hnodup
    exact fun he => hnodup.1 (he ▸ List.mem_map_of_mem hx)

lemma makeRoom_shrinks (policy : ReceiveHoldPolicyKind) (n : ℕ) (byteCount maxByteCount : ℤ) (fuel : ℕ)
    (h : Consistent p.queue) : Shrinks p (makeRoom policy n byteCount maxByteCount fuel p) := by
  induction fuel generalizing p with
  | zero => exact ⟨h, fun _ hx => hx⟩
  | succ fuel ih =>
    have hsame : Shrinks p p := ⟨h, fun _ hx => hx⟩
    unfold makeRoom
    split
    · exact hsame
    split
    · exact hsame
    split
    · exact hsame
    split
    · exact hsame
    · rename_i lastItem _ _ _
      have hr := removeByMessageId_shrinks h lastItem.messageId
      exact hr.trans (ih hr.1)

lemma roomFor_shrinks (s : ReceiveSequence) (cfg : ReceiveBufferSettings) (item : ReceiveItem)
    (h : Consistent s.hold.queue) : Shrinks s.hold (s.roomFor cfg item) := by
  unfold roomFor
  split
  · exact ⟨h, fun _ hx => hx⟩
  · exact makeRoom_shrinks _ _ _ _ _ h

lemma replaceHeld_shrinks (h : Consistent s.hold.queue) (item : ReceiveItem) :
    Shrinks s.hold (s.replaceHeld item).hold := by
  have h₁ := removeBySequenceNumber_shrinks h item.sequenceNumber
  exact h₁.trans (removeByMessageId_shrinks h₁.1 item.messageId)

lemma replaceHeld_absent (h : Consistent s.hold.queue) (item : ReceiveItem) {x : ReceiveItem}
    (hx : x ∈ (s.replaceHeld item).hold.queue.orderedItems) :
    x.messageId ≠ item.messageId ∧ x.sequenceNumber ≠ item.sequenceNumber := by
  have h₁ := removeBySequenceNumber_shrinks h item.sequenceNumber
  refine ⟨removeByMessageId_absent h₁.1 item.messageId hx, ?_⟩
  exact removeBySequenceNumber_absent h item.sequenceNumber
    ((removeByMessageId_shrinks h₁.1 item.messageId).2 x hx)

lemma consistent_markCommitted {q : TransferQueue ReceiveItem} (h : Consistent q) (id : Id) :
    Consistent (q.mapItems (markCommitted id)) := by
  refine h.mapItems ?_ ?_ ?_ ?_ <;> intro x <;> unfold markCommitted <;> split <;> rfl

structure Held (s : ReceiveSequence) : Prop where
  consistent : Consistent s.hold.queue
  plain : ∀ x ∈ s.hold.queue.orderedItems, x.ack = true ∧ x.contractId = none

lemma Held.of_shrinks (h : Held s) (hs : Shrinks s.hold s'.hold) : Held s' :=
  ⟨hs.1, fun x hx => h.plain x (hs.2 x hx)⟩

lemma Held.of_hold (h : Held s) (he : s'.hold = s.hold) : Held s' :=
  ⟨he ▸ h.consistent, he ▸ h.plain⟩

lemma held_commitHeldItem (h : Held s) (held : ReceiveItem) : Held (s.commitHeldItem held) := by
  refine ⟨consistent_markCommitted h.consistent held.messageId, fun x hx => ?_⟩
  obtain ⟨y, hy, rfl⟩ := List.mem_map.mp hx
  have := h.plain y hy
  unfold markCommitted
  split
  · exact this
  · exact this

lemma held_commitHeldPrefix (h : Held s) (cfg : ReceiveBufferSettings) : Held (s.commitHeldPrefix cfg) := by
  unfold commitHeldPrefix
  generalize heldPrefix _ _ _ _ = items
  induction items generalizing s with
  | nil => exact h
  | cons held items ih =>
    rw [List.foldl_cons]
    refine ih ?_
    split
    · exact h
    · exact held_commitHeldItem h held

lemma deliver_hold (s : ReceiveSequence) (env : ReceiveEnv) (item : ReceiveItem) (mode : ProvideMode) :
    (s.deliver env item mode).hold = s.hold := by
  unfold deliver
  dsimp only
  split <;> rfl

lemma receiveHead_hold (s : ReceiveSequence) (env : ReceiveEnv) (item : ReceiveItem) :
    (s.receiveHead env item).hold = s.hold := by
  rcases receiveHead_cases s env item with ⟨t, mode, hk, -, he⟩ | ⟨-, -, hh, -⟩
  · rw [he, deliver_hold, hk.hold]
  · exact hh

lemma receiveNext_hold (s : ReceiveSequence) (cfg : ReceiveBufferSettings) (env : ReceiveEnv)
    (item : ReceiveItem) : (s.receiveNext cfg env item).hold = s.hold := by
  unfold receiveNext
  split
  · rfl
  · rename_i registered hr
    have hk := (registerContracts_keeps hr).1
    split
    · rename_i updated item' hu
      rw [receiveHead_hold, (updateContract_keeps hu).1.hold]
      exact hk.hold
    · exact hk.hold

lemma receiveNack_hold (s : ReceiveSequence) (cfg : ReceiveBufferSettings) (env : ReceiveEnv)
    (receivePack : ReceivePack) : (s.receiveNack cfg env receivePack).hold = s.hold := by
  unfold receiveNack
  split
  · rfl
  · rfl
  split
  · rfl
  dsimp only
  split
  · rfl
  · rename_i registered hr
    have hk := (registerContracts_keeps hr).1
    split
    · exact hk.hold
    split
    · rename_i updated item' hu
      rw [receiveHead_hold, (updateContract_keeps hu).1.hold, hk.hold]
    · exact hk.hold

lemma arrive_hold (s : ReceiveSequence) (item : ReceiveItem) : (s.arrive item).hold = s.hold := by
  unfold arrive advanceToHead
  split <;> rfl

lemma ackPast_hold (s : ReceiveSequence) (item : ReceiveItem) : (s.ackPast item).hold = s.hold := by
  unfold ackPast
  split <;> rfl

lemma held_holdItem (h : Held s) (hack : item.ack = true) (hid : item.contractId = none)
    (hfresh : ∀ x ∈ s.hold.queue.orderedItems,
      x.messageId ≠ item.messageId ∧ x.sequenceNumber ≠ item.sequenceNumber) :
    Held (s.holdItem cfg item) := by
  have hroom := roomFor_shrinks s cfg item h.consistent
  unfold holdItem
  split
  · have hadd : Held (s.admitted cfg item) := by
      refine ⟨consistent_add hroom.1 (fun x hx => (hfresh x (hroom.2 x hx)).1)
        (fun x hx => (hfresh x (hroom.2 x hx)).2), fun x hx => ?_⟩
      rcases List.mem_cons.mp ((add_perm _ _).mem_iff.mp hx) with rfl | hx
      · exact ⟨hack, hid⟩
      · exact h.plain x (hroom.2 x hx)
    split
    · exact held_commitHeldPrefix hadd cfg
    · exact held_commitHeldItem hadd item
  · exact h.of_shrinks hroom

lemma held_receive (h : Held s) {receivePack : ReceivePack} (hn : receivePack.pack.nack = false) :
    Held (s.receive cfg env receivePack) := by
  unfold receive
  split
  · exact h.of_hold rfl
  · rename_i messageId _
    dsimp only
    generalize hi : newReceiveItem env receivePack messageId none = item
    have harr : Held (s.arrive item) := h.of_hold (arrive_hold s item)
    have hrep := replaceHeld_shrinks harr.consistent item
    have hheld : Held ((s.arrive item).replaceHeld item) := harr.of_shrinks hrep
    split
    · split
      · exact hheld.of_hold (receiveNext_hold _ cfg env item)
      · exact hheld.of_hold (ackPast_hold _ item)
    · refine held_holdItem hheld ?_ ?_ fun x hx => replaceHeld_absent harr.consistent item hx
      · simp [← hi, newReceiveItem, hn]
      · simp [← hi, newReceiveItem]

lemma deliverHeld_hold (s : ReceiveSequence) (cfg : ReceiveBufferSettings) (env : ReceiveEnv)
    (item : ReceiveItem) : (s.deliverHeld cfg env item).hold = s.hold := by
  unfold deliverHeld
  split
  · rfl
  · rename_i registered hr
    have hk := (registerContracts_keeps hr).1
    split
    · rename_i updated item' hu
      rw [receiveHead_hold]
      exact (updateContract_keeps hu).1.hold.trans hk.hold
    · exact hk.hold

lemma drain_shrinks (s : ReceiveSequence) (cfg : ReceiveBufferSettings) (env : ReceiveEnv)
    (h : Consistent s.hold.queue) : Shrinks s.hold (s.drain cfg env).hold := by
  have hsame : Shrinks s.hold s.hold := ⟨h, fun _ hx => hx⟩
  unfold drain
  split
  · exact hsame
  rename_i item _
  have hrem : Shrinks s.hold (s.removeHeld item).hold := removeByMessageId_shrinks h item.messageId
  split
  · exact hsame
  split
  · exact hsame
  split
  · rw [deliverHeld_hold]
    exact hrem
  · rw [ackPast_hold]
    exact hrem

lemma held_step (cfg : ReceiveBufferSettings) (s : ReceiveSequence) (e : Event) (h : Held s) :
    Held (step cfg s e) := by
  cases e with
  | writeAcks => exact h.of_hold rfl
  | pool pool => exact ⟨h.consistent, h.plain⟩
  | exit =>
    simp only [step]
    split
    · exact h
    · exact h.of_hold rfl
  | pack env receivePack =>
    simp only [step]
    split
    · exact h
    split
    · exact h.of_hold (receiveNack_hold s cfg env receivePack)
    · rename_i hn
      exact held_receive h (by simpa using hn)
  | drain env =>
    simp only [step]
    split
    · exact h
    · exact h.of_shrinks (drain_shrinks s cfg env h.consistent)
  | commitHeldPrefix =>
    simp only [step]
    split
    · exact h
    · exact held_commitHeldPrefix h cfg

lemma consistent_newReceiveQueue (cfg : ReceiveBufferSettings) (pool : BudgetTree) :
    Consistent (newReceiveQueue cfg pool).queue := by
  have hset := consistent_setBudget (p := (⟨newTransferQueue, pool⟩ : Pooled ReceiveItem)) consistent_new
    cfg.receiveQueueBudget cfg.receiveQueueMinByteCount
  unfold newReceiveQueue
  dsimp only
  split
  · exact consistent_setLifetimeBudget hset
  · exact hset

lemma newReceiveQueue_orderedItems (cfg : ReceiveBufferSettings) (pool : BudgetTree) :
    (newReceiveQueue cfg pool).queue.orderedItems = [] := by
  unfold newReceiveQueue
  dsimp only
  split
  · rw [setLifetimeBudget_orderedItems, setBudget_orderedItems]
    rfl
  · rw [setBudget_orderedItems]
    rfl

lemma held_new (cfg : ReceiveBufferSettings) (pool : BudgetTree) : Held (newReceiveSequence cfg pool) := by
  refine ⟨consistent_newReceiveQueue cfg pool, fun x hx => ?_⟩
  change x ∈ (newReceiveQueue cfg pool).queue.orderedItems at hx
  rw [newReceiveQueue_orderedItems] at hx
  cases hx

end UrConnect.Transfer.ReceiveSequence
