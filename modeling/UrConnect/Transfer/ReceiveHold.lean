import UrConnect.Transfer.ReceiveOrder

/-! Under the committed-prefix policy a number that was acked selectively stays held until it is
delivered or a head jumps over it, as long as every resend of it is admitted and committed again. -/

namespace UrConnect.Transfer.ReceiveSequence

open UrConnect.Lib UrConnect.Lib.Runs UrConnect.Lib.DeliveryPoint TransferQueue Pooled

def selectiveNumber : ReceiveEntry → Option ℕ
  | .acked a => if a.selective then some a.sequenceNumber else none
  | _ => none

def selectiveAcks (s : ReceiveSequence) : List ℕ := s.history.filterMap selectiveNumber

def jumps (n : ℕ) : Mark → Bool
  | .head h point => decide (point ≤ n ∧ n < h)
  | .deliver _ => false

def Passed (s : ReceiveSequence) (n : ℕ) : Prop := n ∈ delivered s.marks ∨ s.marks.any (jumps n) = true

def Committed (s : ReceiveSequence) (n : ℕ) : Prop :=
  ∃ x ∈ s.hold.queue.orderedItems, x.sequenceNumber = n ∧ x.committed = true

structure Retains (lost : ℕ → Prop) (s : ReceiveSequence) : Prop where
  passed : ∀ n < s.nextSequenceNumber, Passed s n
  kept : ∀ n ∈ s.selectiveAcks, ¬ lost n → Committed s n ∨ Passed s n

variable {s s' : ReceiveSequence} {cfg : ReceiveBufferSettings} {env : ReceiveEnv}
  {item : ReceiveItem} {lost lost' : ℕ → Prop} {p : Pooled ReceiveItem} {n : ℕ}

lemma Passed.mono {new : List Mark} (hm : s'.marks = new ++ s.marks) (h : Passed s n) : Passed s' n := by
  rw [Passed, hm, delivered, List.filterMap_append, List.any_append]
  rcases h with h | h
  · exact Or.inl (List.mem_append_right _ h)
  · exact Or.inr (by rw [h, Bool.or_true])

lemma passed_of_delivered (h : .deliver n ∈ s.marks) : Passed s n :=
  Or.inl (List.mem_filterMap.mpr ⟨_, h, rfl⟩)

lemma Still.passed (hs : Still s s') (h : Passed s n) : Passed s' n :=
  h.mono (hs.marks.trans (List.nil_append _).symm)

lemma Retains.of_still (h : Retains lost s) (hs : Still s s') (ha : s'.selectiveAcks = s.selectiveAcks)
    (hl : ∀ n, lost n → lost' n) (hc : ∀ n, ¬ lost' n → Committed s n → Committed s' n) :
    Retains lost' s' := by
  constructor
  · intro n hn
    rw [hs.next] at hn
    exact hs.passed (h.passed n hn)
  · intro n hn hlost
    rw [ha] at hn
    apply (h.kept n hn fun hx => hlost (hl n hx)).imp
    · exact hc n hlost
    · exact hs.passed

lemma Retains.of_frame (h : Retains lost s) (hs : Still s s') (ha : s'.selectiveAcks = s.selectiveAcks)
    (hh : s'.hold.queue = s.hold.queue) : Retains lost s' := by
  apply h.of_still hs ha fun _ hx => hx
  intro n _ hc
  rw [Committed, hh]
  exact hc

lemma Retains.recover (h : Retains lost s) (hl : ∀ n, lost n → Committed s n ∨ Passed s n) :
    Retains (fun _ => False) s := by
  refine ⟨h.passed, fun n hn _ => ?_⟩
  by_cases hlost : lost n
  · exact hl n hlost
  · exact h.kept n hn hlost

lemma selectiveNumber_ledger (e : ReceiveEntry) (h : IsLedger e) : selectiveNumber e = none := by
  cases e <;> first | rfl | exact h.elim

lemma registerContracts_selectiveAcks (h : s.registerContracts cfg env item = .ok s') :
    s'.selectiveAcks = s.selectiveAcks :=
  (registerContracts_keeps h).2.filterMap_eq fun e he => selectiveNumber_ledger e (registration_ledger e he)

lemma updateContract_selectiveAcks {item' : ReceiveItem}
    (h : s.updateContract env item = some (s', item')) : s'.selectiveAcks = s.selectiveAcks :=
  (updateContract_keeps h).2.1.filterMap_eq selectiveNumber_ledger

lemma sendAck_selectiveAcks (s : ReceiveSequence) (n : ℕ) (id : Id) (selective : Bool)
    (tag : Option Tag) (unwrapped : Bool) :
    (s.sendAck n id selective tag unwrapped).selectiveAcks =
      (if selective then [n] else []) ++ s.selectiveAcks := by
  cases selective <;> rfl

lemma ackPast_selectiveAcks (s : ReceiveSequence) (item : ReceiveItem) :
    (s.ackPast item).selectiveAcks = s.selectiveAcks := by
  rw [ackPast]
  split <;> rfl

lemma deliver_selectiveAcks (s : ReceiveSequence) (env : ReceiveEnv) (item : ReceiveItem)
    (mode : ProvideMode) : (s.deliver env item mode).selectiveAcks = s.selectiveAcks := by
  rw [deliver]
  split <;> rfl

lemma receiveHead_selectiveAcks (s : ReceiveSequence) (env : ReceiveEnv) (item : ReceiveItem) :
    (s.receiveHead env item).selectiveAcks = s.selectiveAcks := by
  rcases receiveHead_cases s env item with ⟨t, mode, -, hg, he⟩ | ⟨-, -, -, -, -, hg⟩
  · rw [he, deliver_selectiveAcks]
    exact hg.filterMap_eq selectiveNumber_ledger
  · exact hg.filterMap_eq selectiveNumber_ledger

lemma arrive_marks (s : ReceiveSequence) (item : ReceiveItem) :
    (s.arrive item).marks =
      (if item.head then [.head item.sequenceNumber s.nextSequenceNumber] else []) ++ s.marks := by
  have hlog : (s.arrive item).marks =
      (s.log (.arrived item.head item.sequenceNumber s.nextSequenceNumber)).marks := by
    rw [arrive, advanceToHead]
    split <;> rfl
  rw [hlog]
  cases hh : item.head <;> rfl

lemma retains_arrive (h : Retains lost s) (item : ReceiveItem) : Retains lost (s.arrive item) := by
  have hmarks := arrive_marks s item
  have hacks : (s.arrive item).selectiveAcks = s.selectiveAcks := by
    rw [arrive, advanceToHead]
    split <;> rfl
  constructor
  · intro n hn
    by_cases hold : n < s.nextSequenceNumber
    · exact (h.passed n hold).mono hmarks
    · -- the delivery point moved beyond the number, so the arrival is a head that jumps over it
      rw [arrive, advanceToHead] at hn
      split at hn
      · rename_i hj
        refine Or.inr ?_
        rw [hmarks, if_pos hj.1, List.any_append]
        have hn' : n < item.sequenceNumber := hn
        simp [jumps, hn', Nat.le_of_not_lt hold]
      · exact absurd hn hold
  · intro n hn hl
    rw [hacks] at hn
    apply (h.kept n hn hl).imp
    · intro hc
      rw [Committed, arrive_hold]
      exact hc
    · exact Passed.mono hmarks

lemma mem_removeByMessageId (h : Consistent p.queue) {id : Id} {x : ReceiveItem}
    (hx : x ∈ p.queue.orderedItems) (hne : x.messageId ≠ id) :
    x ∈ (p.removeByMessageId id).2.queue.orderedItems := by
  rw [removeByMessageId]
  cases hf : p.queue.messageIdItems id with
  | none => exact hx
  | some item =>
    obtain ⟨hmem, rfl⟩ := (h.byId id item).mp hf
    rcases List.mem_cons.mp ((remove_perm h hmem).mem_iff.mpr hx) with rfl | hx
    · exact absurd rfl hne
    · exact hx

lemma mem_removeBySequenceNumber (h : Consistent p.queue) {x : ReceiveItem}
    (hx : x ∈ p.queue.orderedItems) (hne : x.sequenceNumber ≠ n) :
    x ∈ (p.removeBySequenceNumber n).2.queue.orderedItems := by
  rw [removeBySequenceNumber]
  cases hf : p.queue.sequenceNumberItems n with
  | none => exact hx
  | some item =>
    obtain ⟨hmem, rfl⟩ := (h.byNumber n item).mp hf
    rcases List.mem_cons.mp ((remove_perm h hmem).mem_iff.mpr hx) with rfl | hx
    · exact absurd rfl hne
    · exact hx

lemma retains_replaceHeld (h : Retains (fun _ => False) s) (hq : Consistent s.hold.queue)
    (hid : ∀ x ∈ s.hold.queue.orderedItems, x.committed = true → x.messageId = item.messageId →
      x.sequenceNumber = item.sequenceNumber) :
    Retains (fun n => n = item.sequenceNumber ∧ Committed s n) (s.replaceHeld item) := by
  refine h.of_still ⟨rfl, rfl⟩ rfl (fun _ hx => hx.elim) ?_
  rintro n hlost hc
  have hne : n ≠ item.sequenceNumber := fun he => hlost ⟨he, hc⟩
  obtain ⟨x, hx, rfl, hcommit⟩ := hc
  have hx' := mem_removeBySequenceNumber hq hx hne
  have hidne : x.messageId ≠ item.messageId := fun he => hne (hid x hx hcommit he)
  exact ⟨x, mem_removeByMessageId (removeBySequenceNumber_shrinks hq _).1 hx' hidne, rfl, hcommit⟩

lemma makeRoom_committed {byteCount maxByteCount : ℤ} (fuel : ℕ) (h : Consistent p.queue)
    {x : ReceiveItem} (hx : x ∈ p.queue.orderedItems) (hc : x.committed = true) :
    x ∈ (makeRoom .committedPrefix n byteCount maxByteCount fuel p).queue.orderedItems := by
  induction fuel generalizing p with
  | zero => exact hx
  | succ fuel ih =>
    rw [makeRoom]
    split
    · exact hx
    split
    · exact hx
    rename_i lastItem hlast
    split
    · exact hx
    split
    · exact hx
    · rename_i hevict
      apply ih (removeByMessageId_shrinks h _).1
      apply mem_removeByMessageId h hx
      intro he
      have hl := h.eq_of_id hx (h.peekLast_mem hlast) he
      exact hevict ⟨rfl, hl ▸ hc⟩

lemma commitHeldItem_committed (held : ReceiveItem) (hc : Committed s n) :
    Committed (s.commitHeldItem held) n := by
  obtain ⟨x, hx, rfl, hcommit⟩ := hc
  refine ⟨markCommitted held.messageId x, List.mem_map_of_mem hx, ?_⟩
  rw [markCommitted]
  split
  · exact ⟨rfl, rfl⟩
  · exact ⟨rfl, hcommit⟩

def Holds (s : ReceiveSequence) (held : ReceiveItem) : Prop :=
  ∃ y ∈ s.hold.queue.orderedItems, y.messageId = held.messageId ∧
    y.sequenceNumber = held.sequenceNumber ∧ (held.committed = true → y.committed = true)

lemma Holds.commitHeldItem (h : Holds s item) (held : ReceiveItem) :
    Holds (s.commitHeldItem held) item := by
  obtain ⟨y, hy, hid, hnum, hc⟩ := h
  refine ⟨markCommitted held.messageId y, List.mem_map_of_mem hy, ?_⟩
  rw [markCommitted]
  split
  · exact ⟨hid, hnum, fun _ => rfl⟩
  · exact ⟨hid, hnum, hc⟩

lemma Holds.committed (h : Holds s item) :
    Committed (if item.committed then s else s.commitHeldItem item) item.sequenceNumber := by
  obtain ⟨y, hy, hid, hnum, hc⟩ := h
  split
  · exact ⟨y, hy, hnum, hc ‹_›⟩
  · refine ⟨markCommitted item.messageId y, List.mem_map_of_mem hy, ?_⟩
    rw [markCommitted, if_pos hid]
    exact ⟨hnum, rfl⟩

lemma retains_commitHeldItem (h : Retains lost s) (hh : Holds s item) (hn : item.committed = false) :
    Retains lost (s.commitHeldItem item) := by
  have hcommitted := hh.committed
  rw [hn, if_neg Bool.false_ne_true] at hcommitted
  refine ⟨h.passed, fun n hn hl => ?_⟩
  rw [ReceiveSequence.commitHeldItem, sendAck_selectiveAcks] at hn
  rcases List.mem_append.mp hn with hn | hn
  · rw [List.mem_singleton.mp hn]
    exact Or.inl hcommitted
  · exact (h.kept n hn hl).imp_left (commitHeldItem_committed item)

lemma committable_mem {capacity frameByteCount heldByteCount : ℤ} {next i : ℕ} {items : List ReceiveItem}
    (h : item ∈ committable capacity frameByteCount next i heldByteCount items) : item ∈ items := by
  induction items generalizing i heldByteCount with
  | nil => exact h
  | cons held rest ih =>
    rw [committable] at h
    split at h
    · rcases List.mem_cons.mp h with rfl | h
      · exact List.mem_cons_self
      · exact List.mem_cons_of_mem _ (ih h)
    · cases h

lemma heldPrefix_mem {capacity maxHeld : ℤ} {next : ℕ} {q : TransferQueue ReceiveItem}
    (h : item ∈ heldPrefix capacity maxHeld next q) : item ∈ q.orderedItems := by
  rw [heldPrefix] at h
  split at h
  · cases h
  split at h
  · exact h
  · exact (List.perm_insertionSort _ _).mem_iff.mp (committable_mem h)

lemma retains_commitAll (items : List ReceiveItem) (h : Retains lost s)
    (hh : ∀ held ∈ items, Holds s held) :
    let s' := items.foldl (fun s held => if held.committed then s else s.commitHeldItem held) s
    Retains lost s' ∧ (∀ n, Committed s n → Committed s' n) ∧
      ∀ held ∈ items, Committed s' held.sequenceNumber := by
  induction items generalizing s with
  | nil => exact ⟨h, fun _ hc => hc, by simp⟩
  | cons held items ih =>
    have hheld := hh held List.mem_cons_self
    have hfirst := hheld.committed
    have hnext : Retains lost (if held.committed then s else s.commitHeldItem held) ∧
        (∀ n, Committed s n → Committed (if held.committed then s else s.commitHeldItem held) n) ∧
        ∀ x ∈ items, Holds (if held.committed then s else s.commitHeldItem held) x := by
      split
      · exact ⟨h, fun _ hc => hc, fun x hx => hh x (List.mem_cons_of_mem _ hx)⟩
      · rename_i hn
        exact ⟨retains_commitHeldItem h hheld (by simpa using hn), fun _ => commitHeldItem_committed held,
          fun x hx => (hh x (List.mem_cons_of_mem _ hx)).commitHeldItem held⟩
    obtain ⟨hretains, hkeep, hall⟩ := ih hnext.1 hnext.2.2
    refine ⟨hretains, fun n hc => hkeep n (hnext.2.1 n hc), fun x hx => ?_⟩
    rcases List.mem_cons.mp hx with rfl | hx
    · exact hkeep _ hfirst
    · exact hall x hx

lemma retains_commitHeldPrefix (h : Retains lost s) (cfg : ReceiveBufferSettings) :
    Retains lost (s.commitHeldPrefix cfg) ∧
      ∀ y ∈ heldPrefix cfg.receiveQueueMaxByteCount s.maxHeldByteCount s.nextSequenceNumber s.hold.queue,
        Committed (s.commitHeldPrefix cfg) y.sequenceNumber := by
  have hall := retains_commitAll (heldPrefix cfg.receiveQueueMaxByteCount s.maxHeldByteCount
    s.nextSequenceNumber s.hold.queue) h fun y hy => ⟨y, heldPrefix_mem hy, rfl, rfl, fun hc => hc⟩
  exact ⟨hall.1, hall.2.2⟩

lemma roomFor_of_canAdd (h : s.hold.canAdd item.messageByteCount cfg.receiveQueueMaxByteCount = true) :
    s.roomFor cfg item = s.hold := by
  rw [roomFor]
  split
  · rfl
  · rw [makeRoom, if_pos h]

lemma roomFor_committed (hpolicy : cfg.receiveHoldPolicy = .committedPrefix)
    (hq : Consistent s.hold.queue) {x : ReceiveItem} (hx : x ∈ s.hold.queue.orderedItems)
    (hc : x.committed = true) : x ∈ (s.roomFor cfg item).queue.orderedItems := by
  rw [roomFor, hpolicy]
  exact makeRoom_committed _ hq hx hc

def Recommits (cfg : ReceiveBufferSettings) (s : ReceiveSequence) (item : ReceiveItem) : Prop :=
  s.hold.canAdd item.messageByteCount cfg.receiveQueueMaxByteCount = true ∧
    ∃ y ∈ heldPrefix cfg.receiveQueueMaxByteCount (max s.maxHeldByteCount item.messageByteCount)
      s.nextSequenceNumber (s.hold.add item).queue, y.sequenceNumber = item.sequenceNumber

lemma retains_holdItem (h : Retains lost s) (hq : Consistent s.hold.queue)
    (hpolicy : cfg.receiveHoldPolicy = .committedPrefix)
    (hlost : ∀ n, lost n → n = item.sequenceNumber ∧ Recommits cfg s item) :
    Retains (fun _ => False) (s.holdItem cfg item) := by
  rw [holdItem]
  split
  · have hadmitted : Retains lost (s.admitted cfg item) := by
      refine h.of_still ⟨rfl, rfl⟩ rfl (fun _ hx => hx) ?_
      rintro n - ⟨x, hx, hnum, hc⟩
      refine ⟨x, (add_perm _ _).mem_iff.mpr (List.mem_cons_of_mem _ ?_), hnum, hc⟩
      exact roomFor_committed hpolicy hq hx hc
    obtain ⟨hretains, hall⟩ := retains_commitHeldPrefix hadmitted cfg
    apply hretains.recover
    intro n hn
    obtain ⟨rfl, hcan, y, hy, hnum⟩ := hlost n hn
    rw [← hnum]
    apply Or.inl (hall y _)
    rw [admitted, roomFor_of_canAdd hcan]
    exact hy
  · rename_i hfull
    have hroom : Retains lost { s with hold := s.roomFor cfg item } := by
      refine h.of_still ⟨rfl, rfl⟩ rfl (fun _ hx => hx) ?_
      rintro n - ⟨x, hx, hnum, hc⟩
      exact ⟨x, roomFor_committed hpolicy hq hx hc, hnum, hc⟩
    apply hroom.recover
    intro n hn
    obtain ⟨-, hcan, -⟩ := hlost n hn
    rw [roomFor_of_canAdd hcan] at hfull
    exact absurd hcan hfull

lemma retains_delivered {t : ReceiveSequence} (h : Retains lost s)
    (hl : ∀ n, lost n → n = s.nextSequenceNumber) (hn : t.nextSequenceNumber ≤ s.nextSequenceNumber + 1)
    (hm : t.marks = s.marks) (ha : t.selectiveAcks = s.selectiveAcks) (hh : t.hold = s.hold)
    (hack : item.ack = true) (hi : item.sequenceNumber = s.nextSequenceNumber)
    (hlive : (t.receiveHead env item).exit = none) :
    Retains (fun _ => False) (t.receiveHead env item) := by
  obtain ⟨hnext, hmarks⟩ := receiveHead_order t env item
  rcases hmarks with hmarks | ⟨-, hx⟩
  · rw [hack, if_pos rfl, hm, hi] at hmarks
    have hhere : Passed (t.receiveHead env item) s.nextSequenceNumber :=
      passed_of_delivered (by rw [hmarks]; exact List.mem_cons_self)
    constructor
    · intro n hlt
      rw [hnext] at hlt
      rcases Nat.lt_or_eq_of_le (Nat.le_of_lt_succ (hlt.trans_le hn)) with hlt | rfl
      · exact (h.passed n hlt).mono hmarks
      · exact hhere
    · intro n hacked _
      rw [receiveHead_selectiveAcks, ha] at hacked
      by_cases hlost : lost n
      · exact Or.inr (hl n hlost ▸ hhere)
      · apply (h.kept n hacked hlost).imp
        · intro hc
          rw [Committed, receiveHead_hold, hh]
          exact hc
        · exact Passed.mono hmarks
  · rw [hlive] at hx
    cases hx

lemma nextNumber_le (modulus n : ℕ) : nextNumber modulus n ≤ n + 1 := Nat.mod_le _ _

lemma retains_receiveNext (h : Retains lost s) (hl : ∀ n, lost n → n = s.nextSequenceNumber)
    (hack : item.ack = true) (hi : item.sequenceNumber = s.nextSequenceNumber)
    (hlive : (s.receiveNext cfg env item).exit = none) :
    Retains (fun _ => False) (s.receiveNext cfg env item) := by
  rw [receiveNext] at hlive ⊢
  split at hlive
  · cases hlive
  · rename_i registered hreg
    split at hlive
    · rename_i updated item' hu
      have hstill := (registerContracts_still hreg).trans (updateContract_still hu)
      obtain ⟨id, rfl⟩ := (updateContract_keeps hu).2.2
      refine retains_delivered h hl ?_ hstill.marks ?_ ?_ hack hi hlive
      · rw [hstill.next]
        exact nextNumber_le _ _
      · have hacks := (updateContract_selectiveAcks hu).trans (registerContracts_selectiveAcks hreg)
        exact hacks
      · exact (updateContract_keeps hu).1.hold.trans (registerContracts_keeps hreg).1.hold
    · cases hlive

lemma retains_deliverHeld (h : Retains lost s) (hl : ∀ n, lost n → n = s.nextSequenceNumber)
    (hack : item.ack = true) (hi : item.sequenceNumber = s.nextSequenceNumber)
    (hlive : (s.deliverHeld cfg env item).exit = none) :
    Retains (fun _ => False) (s.deliverHeld cfg env item) := by
  rw [deliverHeld] at hlive ⊢
  split at hlive
  · cases hlive
  · rename_i registered hreg
    split at hlive
    · rename_i updated item' hu
      have hstill := (registerContracts_still hreg).trans (updateContract_still hu)
      obtain ⟨id, rfl⟩ := (updateContract_keeps hu).2.2
      refine retains_delivered h hl ?_ hstill.marks ?_ ?_ hack hi hlive
      · rw [← hstill.next]
        exact nextNumber_le _ _
      · exact (updateContract_selectiveAcks hu).trans (registerContracts_selectiveAcks hreg)
      · exact (updateContract_keeps hu).1.hold.trans (registerContracts_keeps hreg).1.hold
    · cases hlive

lemma retains_removeHeld (h : Retains (fun _ => False) s) (hq : Consistent s.hold.queue)
    (hmem : item ∈ s.hold.queue.orderedItems) :
    Retains (fun n => n = item.sequenceNumber) (s.removeHeld item) := by
  refine h.of_still ⟨rfl, rfl⟩ rfl (fun _ hx => hx.elim) ?_
  rintro n hne ⟨x, hx, rfl, hc⟩
  refine ⟨x, mem_removeByMessageId hq hx fun he => hne ?_, rfl, hc⟩
  rw [hq.eq_of_id hx hmem he]

lemma retains_drain (h : Retains (fun _ => False) s) (hheld : Held s) :
    (s.drain cfg env).exit = none → Retains (fun _ => False) (s.drain cfg env) := by
  rw [drain]
  split
  · exact fun _ => h
  rename_i item hfirst
  have hmem := peekFirst_mem hfirst
  have hremoved := retains_removeHeld h hheld.consistent hmem
  split
  · exact fun hlive => by cases hlive
  split
  · exact fun _ => h
  rename_i hge
  split
  · rename_i heq
    exact retains_deliverHeld hremoved (fun n hn => hn.trans heq.symm) (hheld.plain item hmem).1 heq.symm
  · rename_i hne
    intro _
    have hpast := hremoved.of_frame (ackPast_still _ item) (ackPast_selectiveAcks _ item)
      (congrArg Pooled.queue (ackPast_hold _ item))
    apply hpast.recover
    rintro n rfl
    refine Or.inr (hpast.passed _ ?_)
    rw [(ackPast_still _ item).next]
    exact lt_of_le_of_ne (Nat.le_of_not_lt hge) (Ne.symm hne)

/-- No message id of a committed item comes back under another number, and a resend of a committed
item that is still ahead of the delivery point is admitted and committed again. -/
def ReadmitsItem (cfg : ReceiveBufferSettings) (s : ReceiveSequence) (item : ReceiveItem) : Prop :=
  (∀ x ∈ s.hold.queue.orderedItems, x.committed = true → x.messageId = item.messageId →
    x.sequenceNumber = item.sequenceNumber) ∧
  ∀ x ∈ s.hold.queue.orderedItems, x.committed = true → x.sequenceNumber = item.sequenceNumber →
    (s.arrive item).nextSequenceNumber < item.sequenceNumber →
      Recommits cfg ((s.arrive item).replaceHeld item) item

def Readmits (cfg : ReceiveBufferSettings) (s : ReceiveSequence) : Event → Prop
  | .pack env receivePack => receivePack.pack.nack = true ∨
    match idFromBytes receivePack.pack.messageId with
    | .error _ => True
    | .ok messageId => ReadmitsItem cfg s (newReceiveItem env receivePack messageId none)
  | _ => True

lemma retains_receive (h : Retains (fun _ => False) s) (hheld : Held s)
    (hpolicy : cfg.receiveHoldPolicy = .committedPrefix) {receivePack : ReceivePack}
    (hn : receivePack.pack.nack = false) (hok : Readmits cfg s (.pack env receivePack)) :
    (s.receive cfg env receivePack).exit = none →
      Retains (fun _ => False) (s.receive cfg env receivePack) := by
  rcases hok with hok | hok
  · rw [hn] at hok
    cases hok
  rw [receive]
  split
  · exact fun hlive => by cases hlive
  · rename_i messageId hid
    rw [hid] at hok
    replace hok : ReadmitsItem cfg s (newReceiveItem env receivePack messageId none) := hok
    have hack : (newReceiveItem env receivePack messageId none).ack = true := by
      simp [newReceiveItem, hn]
    generalize newReceiveItem env receivePack messageId none = item at hok hack ⊢
    have hq : Consistent (s.arrive item).hold.queue := arrive_hold s item ▸ hheld.consistent
    have hlost := retains_replaceHeld (retains_arrive h item) hq (by rw [arrive_hold]; exact hok.1)
    have hq' := (replaceHeld_shrinks hq item).1
    have hnext : ((s.arrive item).replaceHeld item).nextSequenceNumber =
      (s.arrive item).nextSequenceNumber := rfl
    dsimp only
    split
    · rename_i hle
      split
      · rename_i heq
        exact retains_receiveNext hlost (fun n hx => hx.1.trans heq.symm) hack heq.symm
      · rename_i hne
        intro _
        have hpast := hlost.of_frame (ackPast_still _ item) (ackPast_selectiveAcks _ item)
          (congrArg Pooled.queue (ackPast_hold _ item))
        apply hpast.recover
        rintro n ⟨rfl, -⟩
        refine Or.inr (hpast.passed _ ?_)
        rw [(ackPast_still _ item).next]
        exact lt_of_le_of_ne hle (Ne.symm hne)
    · rename_i hahead
      intro _
      apply retains_holdItem hlost hq' hpolicy
      rintro n ⟨rfl, x, hx, hnum, hc⟩
      rw [arrive_hold] at hx
      exact ⟨rfl, hok.2 x hx hc hnum (by rw [← hnext]; exact Nat.lt_of_not_le hahead)⟩

lemma receiveNack_selectiveAcks (s : ReceiveSequence) (cfg : ReceiveBufferSettings) (env : ReceiveEnv)
    (receivePack : ReceivePack) : (s.receiveNack cfg env receivePack).selectiveAcks = s.selectiveAcks := by
  rw [receiveNack]
  split
  · rfl
  · rfl
  split
  · rfl
  dsimp only
  split
  · rfl
  · rename_i registered hreg
    have hacks := registerContracts_selectiveAcks hreg
    split
    · exact hacks
    split
    · rename_i updated item' hu
      rw [receiveHead_selectiveAcks, updateContract_selectiveAcks hu, hacks]
    · exact hacks

lemma writeAcks_selectiveAcks (s : ReceiveSequence) : s.writeAcks.selectiveAcks = s.selectiveAcks := by
  simp only [writeAcks, selectiveAcks, List.filterMap_append]
  rw [List.filterMap_eq_nil_iff.mpr, List.nil_append]
  intro e he
  obtain ⟨a, -, rfl⟩ := List.mem_map.mp he
  rfl

def Retaining (s : ReceiveSequence) : Prop := s.exit = none → Retains (fun _ => False) s

lemma retaining_step (hpolicy : cfg.receiveHoldPolicy = .committedPrefix) (hheld : Held s)
    (h : Retaining s) {e : Event} (hok : Readmits cfg s e) : Retaining (step cfg s e) := by
  cases e with
  | writeAcks =>
    exact fun hlive => (h hlive).of_frame (writeAcks_still s) (writeAcks_selectiveAcks s) rfl
  | pool pool => exact fun hlive => (h hlive).of_frame ⟨rfl, rfl⟩ rfl rfl
  | exit =>
    simp only [step]
    split
    · exact h
    · exact fun hlive => by cases hlive
  | pack env receivePack =>
    simp only [step]
    split
    · exact h
    · rename_i hx
      rw [not_or] at hx
      have hretains := h (by simpa using hx.1)
      split
      · rename_i hn
        exact fun _ => hretains.of_frame (receiveNack_still s cfg env hn)
          (receiveNack_selectiveAcks s cfg env receivePack)
          (congrArg Pooled.queue (receiveNack_hold s cfg env receivePack))
      · rename_i hn
        exact retains_receive hretains hheld hpolicy (by simpa using hn) hok
  | drain env =>
    simp only [step]
    split
    · exact h
    · rename_i hx
      exact retains_drain (h (by simpa using hx)) hheld
  | commitHeldPrefix =>
    simp only [step]
    split
    · exact h
    · rename_i hx
      rw [not_or] at hx
      exact fun _ => (retains_commitHeldPrefix (h (by simpa using hx.1)) cfg).1

lemma retaining_new (cfg : ReceiveBufferSettings) (pool : BudgetTree) :
    Retaining (newReceiveSequence cfg pool) := by
  intro _
  constructor
  · intro n hn
    cases hn
  · intro n hn
    cases hn

def SelectiveAcksKept (s : ReceiveSequence) : Prop :=
  s.exit = none → ∀ n ∈ s.selectiveAcks,
    (∃ x ∈ s.hold.queue.orderedItems, x.sequenceNumber = n) ∨ Passed s n

theorem selective_acks_kept (cfg : ReceiveBufferSettings) (pool : BudgetTree) (events : List Event)
    (hpolicy : cfg.receiveHoldPolicy = .committedPrefix)
    (h : Meets (Readmits cfg) (step cfg) (newReceiveSequence cfg pool) events) :
    SelectiveAcksKept (run (step cfg) (newReceiveSequence cfg pool) events) := by
  have hrun := meets_invariant (I := fun s => Held s ∧ Retaining s)
    (fun s e hs he => ⟨held_step cfg s e hs.1, retaining_step hpolicy hs.1 hs.2 he⟩)
    ⟨held_new cfg pool, retaining_new cfg pool⟩ h
  intro hlive n hn
  apply ((hrun.2 hlive).kept n hn fun hx => hx).imp_left
  rintro ⟨x, hx, hnum, -⟩
  exact ⟨x, hx, hnum⟩

instance (cfg : ReceiveBufferSettings) (s : ReceiveSequence) (item : ReceiveItem) :
    Decidable (Recommits cfg s item) := inferInstanceAs (Decidable (_ ∧ _))

instance (cfg : ReceiveBufferSettings) (s : ReceiveSequence) (item : ReceiveItem) :
    Decidable (ReadmitsItem cfg s item) := inferInstanceAs (Decidable (_ ∧ _))

instance (cfg : ReceiveBufferSettings) (s : ReceiveSequence) (e : Event) : Decidable (Readmits cfg s e) := by
  cases e with
  | pack env receivePack =>
    rw [Readmits]
    cases idFromBytes receivePack.pack.messageId <;> infer_instance
  | _ => exact inferInstanceAs (Decidable True)

instance (s : ReceiveSequence) (n : ℕ) : Decidable (Passed s n) := inferInstanceAs (Decidable (_ ∨ _))

instance (s : ReceiveSequence) : Decidable (SelectiveAcksKept s) := inferInstanceAs (Decidable (_ → _))

theorem selective_acks_kept_resend : SelectiveAcksKept
    (run (step (holdSettings 100 .committedPrefix))
      (newReceiveSequence (holdSettings 100 .committedPrefix) .empty)
      [.pack openEnv (barePack (.ofByte 1) 2 false 10), .pack openEnv (barePack (.ofByte 1) 2 false 10),
        .pack openEnv (barePack (.ofByte 2) 0 false 10), .drain openEnv, .commitHeldPrefix]) :=
  selective_acks_kept _ _ _ rfl (by decide +kernel)

theorem selective_ack_withdrawn : ¬ SelectiveAcksKept
    (run (step (holdSettings 100 .committedPrefix))
      (newReceiveSequence (holdSettings 100 .committedPrefix) .empty)
      [.pack openEnv (barePack (.ofByte 5) 5 false 10), .drain openEnv, .commitHeldPrefix,
        .pack openEnv (barePack (.ofByte 1) 1 false 80), .drain openEnv, .commitHeldPrefix,
        .pack openEnv (barePack (.ofByte 5) 5 false 10), .drain openEnv, .commitHeldPrefix,
        .pack openEnv (barePack (.ofByte 2) 2 false 15), .drain openEnv, .commitHeldPrefix]) := by
  decide +kernel

end UrConnect.Transfer.ReceiveSequence
