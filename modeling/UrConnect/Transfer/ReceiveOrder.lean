import UrConnect.Lib.DeliveryPoint
import UrConnect.Lib.Runs
import UrConnect.Transfer.ReceiveHeld

/-! Ack items reach `receiveHead` in the order of their sequence numbers. -/

namespace UrConnect.Transfer.ReceiveSequence

open UrConnect.Lib UrConnect.Lib.Runs UrConnect.Lib.DeliveryPoint

def mark : ReceiveEntry → Option Mark
  | .arrived true n point => some (.head n point)
  | .delivered item _ _ => if item.ack then some (.deliver item.sequenceNumber) else none
  | _ => none

def marks (s : ReceiveSequence) : List Mark := s.history.filterMap mark

variable {s s' : ReceiveSequence} {cfg : ReceiveBufferSettings} {env : ReceiveEnv} {item : ReceiveItem}

lemma mark_ledger (e : ReceiveEntry) (h : IsLedger e) : mark e = none := by
  cases e <;> first | rfl | exact h.elim

lemma mark_selectiveAck (e : ReceiveEntry) (h : IsSelectiveAck e) : mark e = none := by
  cases e <;> first | rfl | exact h.elim

structure InOrder (cfg : ReceiveBufferSettings) (s : ReceiveSequence) : Prop where
  representable : Representable cfg.numberModulus s.nextSequenceNumber
  reaches : ∃ point ≤ s.nextSequenceNumber, Reaches point s.marks
  live : s.exit = none → Reaches s.nextSequenceNumber s.marks

lemma InOrder.of_reaches (hr : Representable cfg.numberModulus s.nextSequenceNumber)
    (h : Reaches s.nextSequenceNumber s.marks) : InOrder cfg s :=
  ⟨hr, ⟨_, le_refl _, h⟩, fun _ => h⟩

structure Still (s s' : ReceiveSequence) : Prop where
  next : s'.nextSequenceNumber = s.nextSequenceNumber
  marks : s'.marks = s.marks

lemma InOrder.of_still (h : Reaches s.nextSequenceNumber s.marks)
    (hr : Representable cfg.numberModulus s.nextSequenceNumber) (hs : Still s s') : InOrder cfg s' :=
  InOrder.of_reaches (hs.next ▸ hr) (by rw [hs.next, hs.marks]; exact h)

lemma Commits.still (h : Commits s s') : Still s s' :=
  ⟨h.next, h.grows.filterMap_eq mark_selectiveAck⟩

lemma registerContracts_still (h : s.registerContracts cfg env item = .ok s') : Still s s' :=
  ⟨(registerContracts_keeps h).1.next,
    (registerContracts_keeps h).2.filterMap_eq fun e he => mark_ledger e (registration_ledger e he)⟩

lemma updateContract_still {item' : ReceiveItem} (h : s.updateContract env item = some (s', item')) :
    Still s s' :=
  ⟨(updateContract_keeps h).1.next, (updateContract_keeps h).2.1.filterMap_eq mark_ledger⟩

lemma Still.trans {s'' : ReceiveSequence} (h : Still s s') (h' : Still s' s'') : Still s s'' :=
  ⟨h'.next.trans h.next, h'.marks.trans h.marks⟩

lemma sendAck_still (s : ReceiveSequence) (n : ℕ) (id : Id) (selective : Bool) (tag : Option Tag)
    (unwrapped : Bool) : Still s (s.sendAck n id selective tag unwrapped) := ⟨rfl, rfl⟩

lemma ackPast_still (s : ReceiveSequence) (item : ReceiveItem) : Still s (s.ackPast item) := by
  unfold ackPast
  split
  · exact sendAck_still s _ _ _ _ _
  · exact ⟨rfl, rfl⟩

lemma holdItem_still (s : ReceiveSequence) (cfg : ReceiveBufferSettings) (item : ReceiveItem) :
    Still s (s.holdItem cfg item) := by
  have hadmits : Still s (s.admitted cfg item) := ⟨rfl, rfl⟩
  unfold holdItem
  split
  · split
    · exact hadmits.trans (commitHeldPrefix_commits _ cfg).still
    · exact hadmits.trans (commitHeldItem_commits _ item).still
  · exact ⟨rfl, rfl⟩

lemma deliver_next (s : ReceiveSequence) (env : ReceiveEnv) (item : ReceiveItem) (mode : ProvideMode) :
    (s.deliver env item mode).nextSequenceNumber = s.nextSequenceNumber := by
  unfold deliver
  dsimp only
  split <;> rfl

lemma deliver_marks (s : ReceiveSequence) (env : ReceiveEnv) (item : ReceiveItem) (mode : ProvideMode) :
    (s.deliver env item mode).marks =
      (if item.ack then [.deliver item.sequenceNumber] else []) ++ s.marks := by
  unfold deliver
  dsimp only
  split
  · rename_i h
    simp [marks, sendAck, log, List.filterMap_cons, mark, h]
  · rename_i h
    simp [marks, log, mark, h]

lemma receiveHead_order (s : ReceiveSequence) (env : ReceiveEnv) (item : ReceiveItem) :
    (s.receiveHead env item).nextSequenceNumber = s.nextSequenceNumber ∧
      ((s.receiveHead env item).marks =
          (if item.ack then [.deliver item.sequenceNumber] else []) ++ s.marks ∨
        (s.receiveHead env item).marks = s.marks ∧ (s.receiveHead env item).exit.isSome) := by
  rcases receiveHead_cases s env item with ⟨t, mode, hk, hg, he⟩ | ⟨-, hn, -, -, hx, hg⟩
  · rw [he, deliver_next, deliver_marks]
    refine ⟨hk.next, Or.inl ?_⟩
    rw [marks, hg.filterMap_eq mark_ledger]
    rfl
  · exact ⟨hn, Or.inr ⟨hg.filterMap_eq mark_ledger, hx⟩⟩

lemma receiveHead_still (s : ReceiveSequence) (env : ReceiveEnv) (h : item.ack = false) :
    Still s (s.receiveHead env item) := by
  obtain ⟨hnext, hmarks⟩ := receiveHead_order s env item
  refine ⟨hnext, ?_⟩
  rcases hmarks with hmarks | ⟨hmarks, -⟩
  · simpa [h] using hmarks
  · exact hmarks

lemma nextNumber_eq {modulus n : ℕ} (hr : Representable modulus n) (h : n + 1 ≠ modulus) :
    nextNumber modulus n = n + 1 ∧ Representable modulus (n + 1) := by
  rcases hr with rfl | hlt
  · exact ⟨Nat.mod_zero _, Or.inl rfl⟩
  · have : n + 1 < modulus := by omega
    exact ⟨Nat.mod_eq_of_lt this, Or.inr this⟩

lemma arrive_order (h : Reaches s.nextSequenceNumber s.marks)
    (hr : Representable cfg.numberModulus s.nextSequenceNumber)
    (hi : Representable cfg.numberModulus item.sequenceNumber) :
    Reaches (s.arrive item).nextSequenceNumber (s.arrive item).marks ∧
      Representable cfg.numberModulus (s.arrive item).nextSequenceNumber ∧
      s.nextSequenceNumber ≤ (s.arrive item).nextSequenceNumber ∧ (s.arrive item).exit = s.exit ∧
      ((s.arrive item).nextSequenceNumber = item.sequenceNumber →
        item.head = true ∨ s.nextSequenceNumber = item.sequenceNumber) := by
  unfold arrive advanceToHead
  split
  · rename_i hj
    have hm : marks (s.log (.arrived item.head item.sequenceNumber s.nextSequenceNumber)) =
        .head item.sequenceNumber s.nextSequenceNumber :: s.marks := by
      simp [marks, log, mark, hj.1]
    refine ⟨?_, hi, hj.2.le, rfl, fun _ => Or.inl hj.1⟩
    exact hm ▸ .jump h hj.2
  · rename_i hj
    refine ⟨?_, hr, le_refl _, rfl, Or.inr⟩
    cases hh : item.head with
    | false =>
      have hm : marks (s.log (.arrived false item.sequenceNumber s.nextSequenceNumber)) = s.marks := by
        simp [marks, log, List.filterMap_cons, mark]
      exact hm ▸ h
    | true =>
      have hm : marks (s.log (.arrived true item.sequenceNumber s.nextSequenceNumber)) =
          .head item.sequenceNumber s.nextSequenceNumber :: s.marks := by
        simp [marks, log, mark]
      exact hm ▸ .stale h (by simpa [hh] using hj)

lemma inOrder_delivered (h : Reaches s.nextSequenceNumber s.marks)
    (hr : Representable cfg.numberModulus (s.nextSequenceNumber + 1))
    (hn : s'.nextSequenceNumber = s.nextSequenceNumber + 1) (hm : s'.marks = s.marks)
    (hack : item.ack = true) (hi : item.sequenceNumber = s.nextSequenceNumber) :
    InOrder cfg (s'.receiveHead env item) := by
  obtain ⟨hnext, hmarks⟩ := receiveHead_order s' env item
  rw [hn] at hnext
  rcases hmarks with hmarks | ⟨hmarks, hx⟩
  · refine InOrder.of_reaches (hnext ▸ hr) ?_
    rw [hnext, hmarks, hm, hi]
    simpa [hack] using h.deliver
  · refine ⟨hnext ▸ hr, ⟨s.nextSequenceNumber, by omega, by rw [hmarks, hm]; exact h⟩, fun he => ?_⟩
    rw [he] at hx
    cases hx

lemma inOrder_closed (s' : ReceiveSequence) (h : Reaches s.nextSequenceNumber s.marks)
    (hr : Representable cfg.numberModulus s'.nextSequenceNumber)
    (hn : s.nextSequenceNumber ≤ s'.nextSequenceNumber) (hm : s'.marks = s.marks) (fault : Fault) :
    InOrder cfg (s'.close fault) :=
  ⟨hr, ⟨_, hn, hm ▸ h⟩, fun he => by cases he⟩

lemma receiveNext_order (env : ReceiveEnv) (h : Reaches s.nextSequenceNumber s.marks)
    (hr : Representable cfg.numberModulus s.nextSequenceNumber)
    (hlast : s.nextSequenceNumber + 1 ≠ cfg.numberModulus) (hack : item.ack = true)
    (hi : item.sequenceNumber = s.nextSequenceNumber) :
    InOrder cfg (s.receiveNext cfg env item) ∧
      s.nextSequenceNumber ≤ (s.receiveNext cfg env item).nextSequenceNumber := by
  obtain ⟨hnext, hr'⟩ := nextNumber_eq hr hlast
  have hadv : (s.advance cfg).nextSequenceNumber = s.nextSequenceNumber + 1 := hnext
  unfold receiveNext
  split
  · exact ⟨inOrder_closed (s.advance cfg) h (hadv ▸ hr') (by omega) rfl _, hadv ▸ Nat.le_succ _⟩
  · rename_i registered hreg
    have hstill := registerContracts_still hreg
    split
    · rename_i updated item' hu
      have hstill' := hstill.trans (updateContract_still hu)
      obtain ⟨id, rfl⟩ := (updateContract_keeps hu).2.2
      have hn := hstill'.next.trans hadv
      refine ⟨inOrder_delivered h hr' hn hstill'.marks hack hi, ?_⟩
      rw [(receiveHead_order _ _ _).1, hn]
      exact Nat.le_succ _
    · have hn := hstill.next.trans hadv
      exact ⟨inOrder_closed registered h (hn ▸ hr') (by omega) hstill.marks _, hn ▸ Nat.le_succ _⟩

lemma receive_order (h : Reaches s.nextSequenceNumber s.marks)
    (hr : Representable cfg.numberModulus s.nextSequenceNumber) {receivePack : ReceivePack}
    (hi : Representable cfg.numberModulus receivePack.pack.sequenceNumber)
    (hn : receivePack.pack.nack = false)
    (hlast : receivePack.pack.sequenceNumber + 1 = cfg.numberModulus → receivePack.pack.head = false ∧
      s.nextSequenceNumber ≠ receivePack.pack.sequenceNumber) :
    InOrder cfg (s.receive cfg env receivePack) ∧
      s.nextSequenceNumber ≤ (s.receive cfg env receivePack).nextSequenceNumber := by
  unfold receive
  split
  · exact ⟨⟨hr, ⟨_, le_refl _, h⟩, fun _ => h⟩, le_refl _⟩
  · rename_i messageId _
    dsimp only
    have hnum : (newReceiveItem env receivePack messageId none).sequenceNumber =
      receivePack.pack.sequenceNumber := rfl
    have hhead : (newReceiveItem env receivePack messageId none).head = receivePack.pack.head := rfl
    have hack : (newReceiveItem env receivePack messageId none).ack = true := by
      simp [newReceiveItem, hn]
    generalize newReceiveItem env receivePack messageId none = item at hnum hhead hack
    rw [← hnum] at hi hlast
    rw [← hhead] at hlast
    obtain ⟨harr, hra, hle, -, hhere⟩ := arrive_order h hr hi
    have hstill : Still (s.arrive item) ((s.arrive item).replaceHeld item) := ⟨rfl, rfl⟩
    generalize (s.arrive item).replaceHeld item = t at hstill
    rw [← hstill.next] at hra hle hhere
    have hreach : Reaches t.nextSequenceNumber t.marks := by
      rw [hstill.next, hstill.marks]
      exact harr
    split
    · split
      · rename_i heq
        have hne : t.nextSequenceNumber + 1 ≠ cfg.numberModulus := by
          intro he
          obtain ⟨hf, hs⟩ := hlast (heq ▸ he)
          rcases hhere heq with hd | hd
          · simp [hf] at hd
          · exact hs hd
        obtain ⟨ho, hm⟩ := receiveNext_order env hreach hra hne hack heq.symm
        exact ⟨ho, hle.trans hm⟩
      · exact ⟨InOrder.of_still hreach hra (ackPast_still t item), by
          rw [(ackPast_still t item).next]; exact hle⟩
    · exact ⟨InOrder.of_still hreach hra (holdItem_still t cfg item), by
        rw [(holdItem_still t cfg item).next]; exact hle⟩

lemma receiveNack_still (s : ReceiveSequence) (cfg : ReceiveBufferSettings) (env : ReceiveEnv)
    {receivePack : ReceivePack} (hn : receivePack.pack.nack = true) :
    Still s (s.receiveNack cfg env receivePack) := by
  unfold receiveNack
  split
  · exact ⟨rfl, rfl⟩
  · exact ⟨rfl, rfl⟩
  split
  · exact ⟨rfl, rfl⟩
  dsimp only
  split
  · exact ⟨rfl, rfl⟩
  · rename_i registered hreg
    have hstill := registerContracts_still hreg
    split
    · exact hstill
    split
    · rename_i updated item' hu
      have hstill' := hstill.trans (updateContract_still hu)
      obtain ⟨id, rfl⟩ := (updateContract_keeps hu).2.2
      exact hstill'.trans (receiveHead_still updated env (by simp [newReceiveItem, hn]))
    · exact hstill

lemma deliverHeld_order (env : ReceiveEnv) (h : Reaches s.nextSequenceNumber s.marks)
    (hr : Representable cfg.numberModulus s.nextSequenceNumber)
    (hlast : s.nextSequenceNumber + 1 ≠ cfg.numberModulus) (hack : item.ack = true)
    (hi : item.sequenceNumber = s.nextSequenceNumber) :
    InOrder cfg (s.deliverHeld cfg env item) ∧
      s.nextSequenceNumber ≤ (s.deliverHeld cfg env item).nextSequenceNumber := by
  obtain ⟨hnext, hr'⟩ := nextNumber_eq hr hlast
  unfold deliverHeld
  split
  · exact ⟨inOrder_closed s h hr (le_refl _) rfl _, le_refl _⟩
  · rename_i registered hreg
    have hstill := registerContracts_still hreg
    split
    · rename_i updated item' hu
      have hstill' := hstill.trans (updateContract_still hu)
      obtain ⟨id, rfl⟩ := (updateContract_keeps hu).2.2
      have hn : (updated.advance cfg).nextSequenceNumber = s.nextSequenceNumber + 1 := by
        rw [advance, hstill'.next, hnext]
      refine ⟨inOrder_delivered h hr' hn hstill'.marks hack hi, ?_⟩
      rw [(receiveHead_order _ _ _).1, hn]
      exact Nat.le_succ _
    · exact ⟨inOrder_closed registered h (hstill.next ▸ hr) hstill.next.ge hstill.marks _, hstill.next.ge⟩

lemma drain_order (h : Reaches s.nextSequenceNumber s.marks)
    (hr : Representable cfg.numberModulus s.nextSequenceNumber) (hheld : Held s)
    (hlast : ∀ item, s.hold.queue.peekFirst = some item → item.sequenceNumber = s.nextSequenceNumber →
      s.nextSequenceNumber + 1 ≠ cfg.numberModulus) :
    InOrder cfg (s.drain cfg env) ∧ s.nextSequenceNumber ≤ (s.drain cfg env).nextSequenceNumber := by
  have hsame : InOrder cfg s ∧ s.nextSequenceNumber ≤ s.nextSequenceNumber :=
    ⟨InOrder.of_reaches hr h, le_refl _⟩
  unfold drain
  split
  · exact hsame
  rename_i item hfirst
  split
  · exact ⟨inOrder_closed s h hr (le_refl _) rfl _, le_refl _⟩
  split
  · exact hsame
  split
  · rename_i heq
    have hack := (hheld.plain item (TransferQueue.peekFirst_mem hfirst)).1
    exact deliverHeld_order (s := s.removeHeld item) env h hr (hlast item hfirst heq.symm) hack heq.symm
  · have hremove : Still s (s.removeHeld item) := ⟨rfl, rfl⟩
    have hstill := hremove.trans (ackPast_still (s.removeHeld item) item)
    exact ⟨InOrder.of_still h hr hstill, hstill.next.ge⟩

def DeliversLast (cfg : ReceiveBufferSettings) (s : ReceiveSequence) : Event → Prop
  | .pack _ receivePack =>
    receivePack.pack.nack = false ∧ receivePack.pack.sequenceNumber + 1 = cfg.numberModulus ∧
      (receivePack.pack.head = true ∨ s.nextSequenceNumber = receivePack.pack.sequenceNumber)
  | .drain _ =>
    s.nextSequenceNumber + 1 = cfg.numberModulus ∧
      s.hold.queue.peekFirst.any (fun item => item.sequenceNumber = s.nextSequenceNumber) = true
  | _ => False

lemma writeAcks_still (s : ReceiveSequence) : Still s s.writeAcks := by
  refine ⟨rfl, ?_⟩
  unfold writeAcks
  simp only [marks, List.filterMap_append]
  rw [List.filterMap_eq_nil_iff.mpr, List.nil_append]
  intro e he
  obtain ⟨a, -, rfl⟩ := List.mem_map.mp he
  rfl

lemma InOrder.of_same (h : InOrder cfg s) (hs : Still s s') (hx : s'.exit = none → s.exit = none) :
    InOrder cfg s' ∧ s.nextSequenceNumber ≤ s'.nextSequenceNumber := by
  obtain ⟨hr, ⟨point, hp, hreach⟩, hlive⟩ := h
  refine ⟨⟨hs.next ▸ hr, ⟨point, hs.next ▸ hp, hs.marks ▸ hreach⟩, fun he => ?_⟩, hs.next.ge⟩
  rw [hs.next, hs.marks]
  exact hlive (hx he)

lemma inOrder_step (cfg : ReceiveBufferSettings) (s : ReceiveSequence) (e : Event) (hheld : Held s)
    (h : InOrder cfg s) (hok : ¬ DeliversLast cfg s e) :
    InOrder cfg (step cfg s e) ∧ s.nextSequenceNumber ≤ (step cfg s e).nextSequenceNumber := by
  have hsame : InOrder cfg s ∧ s.nextSequenceNumber ≤ s.nextSequenceNumber := ⟨h, le_refl _⟩
  cases e with
  | writeAcks => exact h.of_same (writeAcks_still s) fun hx => hx
  | pool pool => exact h.of_same ⟨rfl, rfl⟩ fun hx => hx
  | exit =>
    simp only [step]
    split
    · exact hsame
    · exact h.of_same ⟨rfl, rfl⟩ fun hx => by cases hx
  | pack env receivePack =>
    simp only [step]
    split
    · exact hsame
    · rename_i hx
      rw [not_or, not_not] at hx
      have hlive := h.live (by simpa using hx.1)
      split
      · rename_i hn
        have hstill := receiveNack_still s cfg env hn
        exact ⟨InOrder.of_still hlive h.representable hstill, hstill.next.ge⟩
      · rename_i hn
        have hack : receivePack.pack.nack = false := by simpa using hn
        refine receive_order hlive h.representable hx.2 hack fun he => ⟨?_, fun hs => ?_⟩
        · by_contra hhead
          exact hok ⟨hack, he, Or.inl (by simpa using hhead)⟩
        · exact hok ⟨hack, he, Or.inr hs⟩
  | drain env =>
    simp only [step]
    split
    · exact hsame
    · rename_i hx
      have hlive := h.live (by simpa using hx)
      refine drain_order hlive h.representable hheld fun item hf hi he => hok ⟨he, ?_⟩
      simp [hf, hi]
  | commitHeldPrefix =>
    simp only [step]
    split
    · exact hsame
    · have hc := commitHeldPrefix_commits s cfg
      exact h.of_same hc.still fun hx => hc.exit ▸ hx

lemma inOrder_new (cfg : ReceiveBufferSettings) (pool : BudgetTree) :
    InOrder cfg (newReceiveSequence cfg pool) :=
  InOrder.of_reaches (Nat.eq_zero_or_pos _) .start

lemma inOrder_run {s : ReceiveSequence} (hheld : Held s) (h : InOrder cfg s) {events : List Event}
    (hm : Meets (fun s e => ¬ DeliversLast cfg s e) (step cfg) s events) :
    Held (run (step cfg) s events) ∧ InOrder cfg (run (step cfg) s events) :=
  meets_invariant (I := fun s => Held s ∧ InOrder cfg s)
    (fun s e hs he => ⟨held_step cfg s e hs.1, (inOrder_step cfg s e hs.1 hs.2 he).1⟩) ⟨hheld, h⟩ hm

structure DeliversInOrder (cfg : ReceiveBufferSettings) (s : ReceiveSequence) (events : List Event) :
    Prop where
  increasing : (delivered (run (step cfg) s events).marks).reverse.Pairwise (· < ·)
  monotone : ∀ before e after, events = before ++ e :: after →
    (run (step cfg) s before).nextSequenceNumber ≤
      (run (step cfg) s (before ++ [e])).nextSequenceNumber
  gap : ∀ before between after m n,
    (run (step cfg) s events).marks = before ++ .deliver n :: between ++ .deliver m :: after →
    NoDelivery between → m + 1 < n → ∃ k point, .head k point ∈ between ∧ m + 1 < k ∧ k ≤ n
  dense : NoJump (run (step cfg) s events).marks →
    ∃ k, (delivered (run (step cfg) s events).marks).reverse = List.range k

theorem receive_in_order (cfg : ReceiveBufferSettings) (pool : BudgetTree) (events : List Event)
    (h : Meets (fun s e => ¬ DeliversLast cfg s e) (step cfg) (newReceiveSequence cfg pool) events) :
    DeliversInOrder cfg (newReceiveSequence cfg pool) events := by
  have hheld := held_new cfg pool
  have hnew := inOrder_new cfg pool
  obtain ⟨point, -, hreach⟩ := (inOrder_run hheld hnew h).2.reaches
  constructor
  · rw [List.pairwise_reverse]
    exact hreach.delivered_pairwise
  · rintro before e after rfl
    obtain ⟨hbefore, he⟩ := meets_append.mp h
    obtain ⟨hheld', horder'⟩ := inOrder_run hheld hnew hbefore
    rw [run_concat]
    exact (inOrder_step cfg _ e hheld' horder' he.1).2
  · intro before between after m n hmarks hb hgap
    rw [hmarks] at hreach
    exact (hreach.gap hb).2 hgap
  · intro hj
    exact ⟨point, by rw [hreach.delivered_dense hj, List.reverse_reverse]⟩

theorem receive_in_order_jump : DeliversInOrder (holdSettings 100 .committedPrefix)
    (newReceiveSequence (holdSettings 100 .committedPrefix) .empty)
    [.pack openEnv (barePack (.ofByte 1) 7 true 10), .pack openEnv (barePack (.ofByte 2) 8 false 10)] :=
  receive_in_order _ _ _ (by simp [Meets, DeliversLast, barePack, holdSettings, uint64Modulus])

theorem receive_wraps_around : ¬ DeliversInOrder (holdSettings 100 .committedPrefix)
    (newReceiveSequence (holdSettings 100 .committedPrefix) .empty)
    [.pack openEnv (barePack (.ofByte 1) (2 ^ 64 - 1) true 10),
      .pack openEnv (barePack (.ofByte 2) 0 false 10)] := by
  intro h
  have hinc := h.increasing
  revert hinc
  decide +kernel

end UrConnect.Transfer.ReceiveSequence
