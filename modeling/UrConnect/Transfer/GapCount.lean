import Mathlib.Data.List.Nodup
import UrConnect.Transfer.AckCover

/-! The count of selective acks above the head that the window keeps, against the acks themselves. -/

namespace UrConnect.Transfer.SequenceAckWindow

variable {w : SequenceAckWindow} {b : SequenceAck}

def pendingAboveHead (w : SequenceAckWindow) : ℕ := w.selectiveAcks.countP w.isAboveHead

structure Counts (w : SequenceAckWindow) : Prop where
  count : w.gapSelectiveAboveHead = w.pendingAboveHead
  nodup : (w.selectiveAcks.map SequenceAck.messageId).Nodup
  seen : w.gapSelectiveSeen = false → w.selectiveAcks = []
  max : ∀ x ∈ w.selectiveAcks, x.sequenceNumber ≤ w.gapSelectiveMax

def Agrees (w : SequenceAckWindow) (messageId : Id) (sequenceNumber : ℕ) : Prop :=
  ∀ x ∈ w.selectiveAcks, x.messageId = messageId ↔ x.sequenceNumber = sequenceNumber

def Skips (w : SequenceAckWindow) (sequenceNumber : ℕ) : Prop :=
  w.gapSelectiveMax ≤ sequenceNumber ∨
    ∀ x ∈ w.selectiveAcks, w.isAboveHead x = true → sequenceNumber ≤ x.sequenceNumber

instance (w : SequenceAckWindow) (messageId : Id) (n : ℕ) : Decidable (Agrees w messageId n) :=
  inferInstanceAs (Decidable (∀ x ∈ w.selectiveAcks, x.messageId = messageId ↔ x.sequenceNumber = n))

instance (w : SequenceAckWindow) (n : ℕ) : Decidable (Skips w n) :=
  inferInstanceAs (Decidable (_ ∨ ∀ x ∈ w.selectiveAcks, w.isAboveHead x = true → n ≤ x.sequenceNumber))

section Fields

@[simp] lemma signalHoleProvable_gap (w : SequenceAckWindow) :
    w.signalHoleProvable.gapSelectiveAboveHead = w.gapSelectiveAboveHead ∧
      w.signalHoleProvable.gapSelectiveMax = w.gapSelectiveMax ∧
      w.signalHoleProvable.gapSelectiveSeen = w.gapSelectiveSeen ∧
      w.signalHoleProvable.gapWakeSelectiveCount = w.gapWakeSelectiveCount := by
  rw [signalHoleProvable]
  split <;> exact ⟨rfl, rfl, rfl, rfl⟩

@[simp] lemma signalHoleFilled_gap (w : SequenceAckWindow) :
    w.signalHoleFilled.gapSelectiveMax = w.gapSelectiveMax ∧
      w.signalHoleFilled.gapSelectiveSeen = w.gapSelectiveSeen ∧
      w.signalHoleFilled.gapWakeSelectiveCount = w.gapWakeSelectiveCount ∧
      w.signalHoleFilled.gapWakeSignaled.holeProvable = w.gapWakeSignaled.holeProvable := by
  rw [signalHoleFilled]
  split <;> exact ⟨rfl, rfl, rfl, rfl⟩

lemma updateSelective_gapSelectiveAboveHead (w : SequenceAckWindow) (b : SequenceAck) :
    (w.updateSelective b).gapSelectiveAboveHead =
      if b.messageId ∈ w.selectiveAcks.map SequenceAck.messageId then w.gapSelectiveAboveHead
      else w.gapSelectiveAboveHead + 1 := by
  have hnone : (w.selectiveAcks.find? fun a => a.messageId = b.messageId).isNone = true ↔
      b.messageId ∉ w.selectiveAcks.map SequenceAck.messageId := by
    rw [Option.isNone_iff_eq_none, List.find?_eq_none]
    simp
  rw [updateSelective, apply_ite SequenceAckWindow.gapSelectiveAboveHead, (signalHoleProvable_gap _).1, ite_self,
    ← ite_not]
  exact if_congr (not_iff_comm.mp hnone.symm) rfl rfl

lemma updateSelective_gapSelectiveMax (w : SequenceAckWindow) (b : SequenceAck) :
    (w.updateSelective b).gapSelectiveMax =
      if w.gapSelectiveSeen = false ∨ w.gapSelectiveMax < b.sequenceNumber then b.sequenceNumber
      else w.gapSelectiveMax := by
  rw [updateSelective, apply_ite SequenceAckWindow.gapSelectiveMax, (signalHoleProvable_gap _).2.1, ite_self]
  simp

lemma updateSelective_gapSelectiveSeen (w : SequenceAckWindow) (b : SequenceAck) :
    (w.updateSelective b).gapSelectiveSeen = true := by
  rw [updateSelective, apply_ite SequenceAckWindow.gapSelectiveSeen, (signalHoleProvable_gap _).2.2.1, ite_self]

lemma updateSelective_gapWakeSelectiveCount (w : SequenceAckWindow) (b : SequenceAck) :
    (w.updateSelective b).gapWakeSelectiveCount = w.gapWakeSelectiveCount := by
  rw [updateSelective, apply_ite SequenceAckWindow.gapWakeSelectiveCount, (signalHoleProvable_gap _).2.2.2]
  exact ite_self _

lemma updateSelective_holeProvable (h : (w.updateSelective b).gapWakeSignaled.holeProvable = true) :
    w.gapWakeSignaled.holeProvable = true ∨
      w.gapWakeSelectiveCount ≤ (w.updateSelective b).gapSelectiveAboveHead := by
  rw [updateSelective, apply_ite SequenceAckWindow.gapWakeSignaled, apply_ite GapWakeReasons.holeProvable] at h
  rw [updateSelective, apply_ite SequenceAckWindow.gapSelectiveAboveHead, (signalHoleProvable_gap _).1, ite_self]
  by_cases hreached : 0 < w.gapWakeSelectiveCount ∧ w.gapWakeSelectiveCount ≤
      if (w.selectiveAcks.find? fun a => a.messageId = b.messageId).isNone then w.gapSelectiveAboveHead + 1
      else w.gapSelectiveAboveHead
  · exact .inr hreached.2
  · rw [if_neg hreached] at h
    exact .inl h

lemma updateHead_gap (w : SequenceAckWindow) (b : SequenceAck) :
    (w.updateHead b).gapSelectiveAboveHead =
        (if w.gapSelectiveAboveHead = 0 ∨ w.gapSelectiveMax ≤ b.sequenceNumber then 0
          else if b.messageId ∈ w.selectiveAcks.map SequenceAck.messageId then w.gapSelectiveAboveHead - 1
          else w.gapSelectiveAboveHead) ∧
      (w.updateHead b).gapSelectiveMax = w.gapSelectiveMax ∧
      (w.updateHead b).gapSelectiveSeen = w.gapSelectiveSeen := by
  have hany : (w.selectiveAcks.any fun a => a.messageId = b.messageId) = true ↔
      b.messageId ∈ w.selectiveAcks.map SequenceAck.messageId := by
    simp
  unfold updateHead
  dsimp only
  refine ⟨?_, ?_, ?_⟩
  · by_cases hzero : w.gapSelectiveAboveHead = 0
    · simp [hzero]
    · rw [if_pos (Nat.pos_of_ne_zero hzero)]
      simp [hzero, hany]
  · split <;> simp
  · split <;> simp

lemma update_gapWakeSelectiveCount (w : SequenceAckWindow) (b : SequenceAck) :
    (w.update b).gapWakeSelectiveCount = w.gapWakeSelectiveCount := by
  rw [update]
  split
  · split
    · exact updateSelective_gapWakeSelectiveCount w b
    · unfold updateHead
      dsimp only
      split <;> simp
  · rfl

lemma update_holeProvable (h : (w.update b).gapWakeSignaled.holeProvable = true) :
    w.gapWakeSignaled.holeProvable = true ∨ w.gapWakeSelectiveCount ≤ (w.update b).gapSelectiveAboveHead := by
  rw [update] at h ⊢
  split at h
  · rename_i habove
    split at h
    · rename_i hselective
      rw [if_pos habove, if_pos hselective]
      exact updateSelective_holeProvable h
    · unfold updateHead at h
      dsimp only at h
      split at h
      · exact .inl (by simpa using h)
      · exact .inl h
  · exact .inl h

end Fields

section Count

variable {α : Type} {p q r : α → Bool} {l : List α}

lemma countP_split (h : ∀ x ∈ l, p x = (q x || r x)) (hdisjoint : ∀ x ∈ l, q x = true → r x = false) :
    l.countP p = l.countP q + l.countP r := by
  induction l with
  | nil => rfl
  | cons a l ih =>
    have ih := ih (fun x hx => h x (List.mem_cons_of_mem a hx)) fun x hx => hdisjoint x (List.mem_cons_of_mem a hx)
    have ha := h a List.mem_cons_self
    have hd := hdisjoint a List.mem_cons_self
    rw [List.countP_cons, List.countP_cons, List.countP_cons, ih, ha]
    cases hq : q a <;> cases hr : r a <;> simp_all <;> omega

lemma Counts.countP_messageId (h : Counts w) (id : Id) :
    w.selectiveAcks.countP (fun x => x.messageId = id) =
      if id ∈ w.selectiveAcks.map SequenceAck.messageId then 1 else 0 := by
  have hcount : w.selectiveAcks.countP (fun x => x.messageId = id) =
      (w.selectiveAcks.map SequenceAck.messageId).count id := by
    rw [List.count, List.countP_map]
    exact List.countP_congr fun x _ => by simp
  rw [hcount]
  split
  · exact List.count_eq_one_of_mem h.nodup ‹_›
  · exact List.count_eq_zero.mpr ‹_›

end Count

lemma Counts.put (h : Counts w) (hagrees : Agrees w b.messageId b.sequenceNumber) (habove : w.isAboveHead b = true) :
    Counts (w.updateSelective b) := by
  obtain ⟨c, hid, hnumber, hacks⟩ : ∃ c, c.messageId = b.messageId ∧ c.sequenceNumber = b.sequenceNumber ∧
      (w.updateSelective b).selectiveAcks = putSelective w.selectiveAcks c :=
    ⟨_, rfl, rfl, updateSelective_selectiveAcks w b⟩
  have hhead := isAboveHead_same (updateSelective_headAck w b)
  constructor
  · have hput (x : SequenceAck) (hx : x.sequenceNumber = b.sequenceNumber) : w.isAboveHead x = true := by
      rw [isAboveHead_congr hx, habove]
    rw [updateSelective_gapSelectiveAboveHead, pendingAboveHead, hacks, putSelective, List.countP_cons, hhead,
      if_pos (hput c hnumber), List.countP_filter, h.count, pendingAboveHead, hid]
    -- the acks above the head are the ones of other messages and the one of this message
    have hsplit : w.selectiveAcks.countP w.isAboveHead =
        w.selectiveAcks.countP (fun x => (w.updateSelective b).isAboveHead x && decide (x.messageId ≠ b.messageId)) +
          w.selectiveAcks.countP (fun x => x.messageId = b.messageId) := by
      apply countP_split
      · intro x hx
        rw [hhead]
        by_cases hid : x.messageId = b.messageId
        · rw [hput x ((hagrees x hx).mp hid)]
          simp [hid]
        · simp [hid]
      · intro x _ hx
        simpa using (Bool.and_eq_true_iff.mp hx).2
    rw [hsplit, h.countP_messageId]
    split <;> simp
  · rw [hacks, putSelective, List.map_cons, List.nodup_cons]
    refine ⟨by simp, ?_⟩
    exact h.nodup.sublist (List.filter_sublist.map _)
  · intro hseen
    rw [updateSelective_gapSelectiveSeen] at hseen
    cases hseen
  · intro x hx
    rw [hacks, mem_putSelective] at hx
    rw [updateSelective_gapSelectiveMax]
    rcases hx with rfl | ⟨hx, -⟩
    · rw [hnumber]
      split
      · exact Nat.le_refl _
      · rename_i hraised
        exact Nat.le_of_not_lt fun hlt => hraised (.inr hlt)
    · have hle := h.max x hx
      split
      · rename_i hraised
        rcases hraised with hseen | hlt
        · rw [h.seen hseen] at hx
          cases hx
        · omega
      · exact hle

lemma Counts.raise (h : Counts w) (hagrees : Agrees w b.messageId b.sequenceNumber) (habove : w.isAboveHead b = true)
    (hskips : Skips w b.sequenceNumber) : Counts (w.updateHead b) := by
  obtain ⟨hcount, hmax, hseen⟩ := updateHead_gap w b
  have hacks := updateHead_selectiveAcks w b
  have hpending : (w.updateHead b).pendingAboveHead =
      w.selectiveAcks.countP fun x => decide (b.sequenceNumber < x.sequenceNumber) := by
    rw [pendingAboveHead, hacks]
    rfl
  refine ⟨?_, hacks ▸ h.nodup, by rw [hseen, hacks]; exact h.seen, by rw [hmax, hacks]; exact h.max⟩
  rw [hcount, hpending]
  split
  · rename_i hnone
    refine (List.countP_eq_zero.mpr fun x hx => ?_).symm
    have hle := h.max x hx
    rcases hnone with hzero | hpast
    · rw [h.count, pendingAboveHead, List.countP_eq_zero] at hzero
      have hbelow : w.isAboveHead x = false := by simpa using hzero x hx
      obtain ⟨head, hhead, hxle⟩ := not_aboveHead.mp hbelow
      have := aboveHead.mp habove head hhead
      simp only [decide_eq_true_eq]
      omega
    · simp only [decide_eq_true_eq]
      omega
  · rename_i hsome
    push Not at hsome
    have hfrom := hskips.resolve_left (by omega)
    -- only the ack of this message leaves the ones above the head
    have hsplit : w.selectiveAcks.countP w.isAboveHead =
        w.selectiveAcks.countP (fun x => decide (b.sequenceNumber < x.sequenceNumber)) +
          w.selectiveAcks.countP (fun x => x.messageId = b.messageId) := by
      apply countP_split
      · intro x hx
        simp only [hagrees x hx]
        rw [Bool.eq_iff_iff]
        constructor
        · intro hx'
          have := hfrom x hx hx'
          simp only [Bool.or_eq_true, decide_eq_true_eq]
          omega
        · intro hle
          simp only [Bool.or_eq_true, decide_eq_true_eq] at hle
          rw [aboveHead]
          intro head hhead
          have := aboveHead.mp habove head hhead
          omega
      · intro x hx hlt
        have hne : x.sequenceNumber ≠ b.sequenceNumber := by
          simp only [decide_eq_true_eq] at hlt
          omega
        simp [hagrees x hx, hne]
    rw [h.count, pendingAboveHead, hsplit, h.countP_messageId]
    split <;> simp

lemma Counts.update (h : Counts w) (hagrees : Agrees w b.messageId b.sequenceNumber)
    (hskips : b.selective = false → Skips w b.sequenceNumber) : Counts (w.update b) := by
  rw [SequenceAckWindow.update]
  split
  · rename_i habove
    split
    · exact h.put hagrees habove
    · rename_i hcumulative
      exact h.raise hagrees habove (hskips (by simpa using hcumulative))
  · refine ⟨?_, h.nodup, h.seen, h.max⟩
    refine h.count.trans (List.countP_congr fun x _ => ?_)
    have hmarked : (w.updatePast b).isAboveHead x = w.isAboveHead x := isAboveHead_marked rfl x
    rw [hmarked]

lemma counts_reset (w : SequenceAckWindow) : Counts (w.snapshot true).2 :=
  ⟨rfl, List.nodup_nil, fun _ => rfl, nofun⟩

lemma counts_new (n : ℕ) : Counts (newSequenceAckWindowWithGapWake n) :=
  ⟨rfl, List.nodup_nil, fun _ => rfl, nofun⟩

end UrConnect.Transfer.SequenceAckWindow
