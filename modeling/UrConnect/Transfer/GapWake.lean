import UrConnect.Transfer.GapCount
import UrConnect.Transfer.ReceiveHold

/-! The gap wake of a receive sequence whose ack writer may take its snapshot between any two acks. -/

namespace UrConnect.Transfer.ReceiveSequence

open UrConnect.Lib.Runs SequenceAckWindow TransferQueue Pooled

structure Committing where
  sequence : ReceiveSequence
  rest : List ReceiveItem

section Start

variable (s : ReceiveSequence) (cfg : ReceiveBufferSettings)

def commitOne (held : ReceiveItem) : ReceiveSequence := if held.committed then s else s.commitHeldItem held

def startCommit : Committing where
  sequence := s
  rest := heldPrefix cfg.receiveQueueMaxByteCount s.maxHeldByteCount s.nextSequenceNumber s.hold.queue

def startHold (item : ReceiveItem) : Committing :=
  if (s.roomFor cfg item).canAdd item.messageByteCount cfg.receiveQueueMaxByteCount then
    if cfg.receiveHoldPolicy = .committedPrefix then (s.admitted cfg item).startCommit cfg
    else ⟨(s.admitted cfg item).commitHeldItem item, []⟩
  else ⟨{ s with hold := s.roomFor cfg item }, []⟩

def startReceive (env : ReceiveEnv) (receivePack : ReceivePack) : Committing :=
  match idFromBytes receivePack.pack.messageId with
  | .error _ => ⟨s.close (.message "Bad message_id"), []⟩
  | .ok messageId =>
    let item := newReceiveItem env receivePack messageId none
    let arrived := (s.arrive item).replaceHeld item
    if item.sequenceNumber ≤ arrived.nextSequenceNumber then
      if arrived.nextSequenceNumber = item.sequenceNumber then ⟨arrived.receiveNext cfg env item, []⟩
      else ⟨arrived.ackPast item, []⟩
    else arrived.startHold cfg item

def start : Event → Committing
  | .pack env receivePack =>
    if s.exit.isSome ∨ ¬ Representable cfg.numberModulus receivePack.pack.sequenceNumber then ⟨s, []⟩
    else if receivePack.pack.nack then ⟨s.receiveNack cfg env receivePack, []⟩
    else s.startReceive cfg env receivePack
  | .commitHeldPrefix =>
    if s.exit.isSome ∨ cfg.receiveHoldPolicy ≠ .committedPrefix then ⟨s, []⟩ else s.startCommit cfg
  | event => ⟨s.step cfg event, []⟩

end Start

namespace Committing

inductive Event where
  | sequence (event : ReceiveSequence.Event)
  | commit

/-- The loop runs item by item. Meanwhile the ack writer takes its snapshots, other queues use the shared
budgets, and the sequence does nothing else. -/
def step (cfg : ReceiveBufferSettings) (c : Committing) : Event → Committing
  | .commit =>
    match c.rest with
    | [] => c
    | held :: rest => ⟨c.sequence.commitOne held, rest⟩
  | .sequence .writeAcks => ⟨c.sequence.writeAcks, c.rest⟩
  | .sequence (.pool pool) => ⟨c.sequence.step cfg (.pool pool), c.rest⟩
  | .sequence event => if c.rest.isEmpty then c.sequence.start cfg event else c

def new (cfg : ReceiveBufferSettings) (pool : BudgetTree) : Committing := ⟨newReceiveSequence cfg pool, []⟩

end Committing

section Gauged

variable {s s' : ReceiveSequence} {cfg : ReceiveBufferSettings} {env : ReceiveEnv} {item : ReceiveItem}
  {b : SequenceAck}

structure Gauged (cfg : ReceiveBufferSettings) (s : ReceiveSequence) : Prop where
  held : Held s
  wake : s.ackWindow.gapWakeSelectiveCount = cfg.ackGapWakeSelectiveCount
  counts : Counts s.ackWindow
  ahead : s.exit = none → ∀ a, s.ackWindow.isAboveHead a = true → s.nextSequenceNumber ≤ a.sequenceNumber
  agrees : ∀ i ∈ s.hold.queue.orderedItems, Agrees s.ackWindow i.messageId i.sequenceNumber

inductive Ticks (w : SequenceAckWindow) : SequenceAckWindow → Prop
  | same : Ticks w w
  | update (b : SequenceAck) : Ticks w (w.update b)
  | reset : Ticks w (w.snapshot true).2

structure Beside (s s' : ReceiveSequence) : Prop where
  held : Held s'
  hold : ∀ i ∈ s'.hold.queue.orderedItems, i ∈ s.hold.queue.orderedItems
  window : s'.ackWindow = s.ackWindow

lemma Beside.of_shrinks (held : Held s) (hshrinks : Shrinks s.hold s'.hold) (window : s'.ackWindow = s.ackWindow) :
    Beside s s' :=
  ⟨held.of_shrinks hshrinks, hshrinks.2, window⟩

lemma Beside.of_hold (held : Held s) (hold : s'.hold = s.hold) (window : s'.ackWindow = s.ackWindow) : Beside s s' :=
  ⟨held.of_hold hold, hold ▸ fun _ hi => hi, window⟩

lemma Beside.trans {t : ReceiveSequence} (h : Beside s t) (h' : Beside t s') : Beside s s' :=
  ⟨h'.held, fun i hi => h.hold i (h'.hold i hi), h'.window.trans h.window⟩

lemma Beside.keeps {t : ReceiveSequence} (h : Beside s t) (hk : ReceiveSequence.Keeps t s') : Beside s s' :=
  h.trans (.of_hold h.held hk.hold hk.ackWindow)

lemma Gauged.beside (h : Gauged cfg s) (hb : Beside s s')
    (next : s'.exit = none → s.exit = none ∧ s'.nextSequenceNumber = s.nextSequenceNumber) : Gauged cfg s' := by
  refine ⟨hb.held, hb.window ▸ h.wake, hb.window ▸ h.counts, fun hexit a ha => ?_, fun i hi => ?_⟩
  · obtain ⟨hexit, hnext⟩ := next hexit
    rw [hb.window] at ha
    exact hnext ▸ h.ahead hexit a ha
  · rw [hb.window]
    exact h.agrees i (hb.hold i hi)

lemma Gauged.acks (h : Gauged cfg s) (held : Held s')
    (hold : ∀ i ∈ s'.hold.queue.orderedItems, i ∈ s.hold.queue.orderedItems)
    (window : s'.ackWindow = s.ackWindow.update b) (hcumulative : b.selective = false)
    (hagrees : Agrees s.ackWindow b.messageId b.sequenceNumber) (hskips : Skips s.ackWindow b.sequenceNumber)
    (next : ∀ a, s'.ackWindow.isAboveHead a = true → s'.nextSequenceNumber ≤ a.sequenceNumber) : Gauged cfg s' := by
  refine ⟨held, ?_, ?_, fun _ => next, fun i hi => ?_⟩
  · rw [window, update_gapWakeSelectiveCount, h.wake]
  · rw [window]
    exact h.counts.update hagrees fun _ => hskips
  · have hacks : s'.ackWindow.selectiveAcks = s.ackWindow.selectiveAcks := by
      rw [window]
      cases update_updates s.ackWindow b with
      | put _ _ hselective => simp [hcumulative] at hselective
      | raise _ _ _ _ _ hacks => exact hacks
      | past _ _ _ _ hacks => exact hacks
    rw [Agrees, hacks]
    exact h.agrees i (hold i hi)

lemma lt_of_aboveHead_update {w : SequenceAckWindow} {a : SequenceAck} (hcumulative : b.selective = false)
    (ha : (w.update b).isAboveHead a = true) : b.sequenceNumber < a.sequenceNumber := by
  rw [aboveHead] at ha
  cases update_updates w b with
  | put _ _ hselective => simp [hcumulative] at hselective
  | raise _ _ _ hhead =>
    have hlt := ha _ hhead
    exact hlt
  | past _ hbelow hhead =>
    obtain ⟨h, hh, hle⟩ := not_aboveHead.mp hbelow
    rw [hh] at hhead
    have hlt := ha _ hhead
    exact Nat.lt_of_le_of_lt hle hlt

lemma gauged_commitHeldItem (h : Gauged cfg s) (hh : Holds s item) : Gauged cfg (s.commitHeldItem item) := by
  obtain ⟨y, hy, hid, hnumber, -⟩ := hh
  have hagrees := h.agrees y hy
  rw [hid, hnumber] at hagrees
  have hupdates := update_updates s.ackWindow ⟨item.sequenceNumber, item.messageId, true, item.tag, item.unwrapped⟩
  refine ⟨held_commitHeldItem h.held item, ?_, ?_, fun hexit a ha => ?_, fun i hi x hx => ?_⟩
  · exact (update_gapWakeSelectiveCount _ _).trans h.wake
  · exact h.counts.update hagrees nofun
  · exact h.ahead hexit a (hupdates.aboveHead_of ha)
  · obtain ⟨j, hj, rfl⟩ := List.mem_map.mp hi
    have hsame : (markCommitted item.messageId j).messageId = j.messageId ∧
        (markCommitted item.messageId j).sequenceNumber = j.sequenceNumber := by
      rw [markCommitted]
      split <;> exact ⟨rfl, rfl⟩
    rw [hsame.1, hsame.2]
    cases hupdates with
    | put _ _ _ _ _ hacks =>
      change x ∈ (s.ackWindow.update _).selectiveAcks at hx
      rw [hacks, mem_putSelective] at hx
      rcases hx with rfl | ⟨hx, -⟩
      · -- the ack is of a held item, and held items differ in both
        dsimp only
        rw [← hid, ← hnumber]
        constructor
        · intro heq
          rw [h.held.consistent.eq_of_id hy hj heq]
        · intro heq
          rw [h.held.consistent.eq_of_number hy hj heq]
      · exact h.agrees j hj x hx
    | raise _ _ hcumulative => cases hcumulative
    | past _ _ _ _ hacks =>
      change x ∈ (s.ackWindow.update _).selectiveAcks at hx
      rw [hacks] at hx
      exact h.agrees j hj x hx

lemma commitHeldItem_ticks (s : ReceiveSequence) (item : ReceiveItem) :
    Ticks s.ackWindow (s.commitHeldItem item).ackWindow :=
  .update ⟨item.sequenceNumber, item.messageId, true, item.tag, item.unwrapped⟩

lemma gauged_writeAcks (h : Gauged cfg s) : Gauged cfg s.writeAcks :=
  ⟨h.held.of_hold rfl, h.wake, counts_reset s.ackWindow, h.ahead, fun _ _ => nofun⟩

def Follows (cfg : ReceiveBufferSettings) (s s' : ReceiveSequence) : Prop :=
  Gauged cfg s' ∧ Ticks s.ackWindow s'.ackWindow

lemma Gauged.stays (h : Gauged cfg s) (hb : Beside s s')
    (next : s'.exit = none → s.exit = none ∧ s'.nextSequenceNumber = s.nextSequenceNumber) : Follows cfg s s' :=
  ⟨h.beside hb next, hb.window ▸ .same⟩

lemma Gauged.ends (h : Gauged cfg s) (hb : Beside s s') (hexit : s'.exit.isSome = true) : Follows cfg s s' :=
  h.stays hb fun hnone => by simp [hnone] at hexit

section Deliver

variable {t : ReceiveSequence}

lemma deliver_ack (t : ReceiveSequence) (env : ReceiveEnv) (mode : ProvideMode) (hack : item.ack = true) :
    (t.deliver env item mode).ackWindow =
        t.ackWindow.update ⟨item.sequenceNumber, item.messageId, false, item.tag, item.unwrapped⟩ ∧
      (t.deliver env item mode).nextSequenceNumber = t.nextSequenceNumber := by
  rw [deliver, if_pos hack]
  exact ⟨rfl, rfl⟩

lemma follows_receiveHead (h : Gauged cfg s) (hb : Beside s t) (hack : item.ack = true)
    (hagrees : Agrees s.ackWindow item.messageId item.sequenceNumber) (hskips : Skips s.ackWindow item.sequenceNumber)
    (next : t.nextSequenceNumber ≤ item.sequenceNumber + 1) : Follows cfg s (t.receiveHead env item) := by
  rcases receiveHead_cases t env item with ⟨u, mode, hk, -, heq⟩ | ⟨-, -, hold, window, hexit, -⟩
  · obtain ⟨hwindow, hnext⟩ := deliver_ack u env mode hack
    have hu := hb.keeps hk
    have hold := deliver_hold u env item mode
    rw [hu.window] at hwindow
    rw [heq]
    refine ⟨h.acks (hu.held.of_hold hold) (hold ▸ hu.hold) hwindow rfl hagrees hskips fun a ha => ?_, ?_⟩
    · rw [hwindow] at ha
      have hlt := lt_of_aboveHead_update rfl ha
      rw [hnext, hk.next]
      exact Nat.le_trans next hlt
    · rw [hwindow]
      exact .update _
  · exact h.ends (hb.trans (.of_hold hb.held hold window)) hexit

lemma follows_receiveNext (h : Gauged cfg s) (hb : Beside s t) (hack : item.ack = true)
    (hagrees : Agrees s.ackWindow item.messageId item.sequenceNumber) (hskips : Skips s.ackWindow item.sequenceNumber)
    (next : t.nextSequenceNumber = item.sequenceNumber) : Follows cfg s (t.receiveNext cfg env item) := by
  have hadvance : Beside s (t.advance cfg) := hb.trans (.of_hold hb.held rfl rfl)
  rw [receiveNext]
  split
  · exact h.ends (hadvance.trans (.of_hold hadvance.held rfl rfl)) rfl
  · rename_i registered hregister
    have hk := (registerContracts_keeps hregister).1
    have hregistered := hadvance.keeps hk
    split
    · rename_i updated item' hupdate
      obtain ⟨hk', -, id, rfl⟩ := updateContract_keeps hupdate
      refine follows_receiveHead h (hregistered.keeps hk') hack hagrees hskips ?_
      rw [hk'.next, hk.next]
      exact next ▸ nextNumber_le _ _
    · exact h.ends (hregistered.trans (.of_hold hregistered.held rfl rfl)) rfl

lemma follows_deliverHeld (h : Gauged cfg s) (hb : Beside s t) (hack : item.ack = true)
    (hagrees : Agrees s.ackWindow item.messageId item.sequenceNumber) (hskips : Skips s.ackWindow item.sequenceNumber)
    (next : t.nextSequenceNumber = item.sequenceNumber) : Follows cfg s (t.deliverHeld cfg env item) := by
  rw [deliverHeld]
  split
  · exact h.ends (hb.trans (.of_hold hb.held rfl rfl)) rfl
  · rename_i registered hregister
    have hk := (registerContracts_keeps hregister).1
    have hregistered := hb.keeps hk
    split
    · rename_i updated item' hupdate
      obtain ⟨hk', -, id, rfl⟩ := updateContract_keeps hupdate
      have hupdated := hregistered.keeps hk'
      refine follows_receiveHead h (hupdated.trans (.of_hold hupdated.held rfl rfl)) hack hagrees hskips ?_
      change nextNumber cfg.numberModulus updated.nextSequenceNumber ≤ item.sequenceNumber + 1
      rw [hk'.next, hk.next, next]
      exact nextNumber_le _ _
    · exact h.ends (hregistered.trans (.of_hold hregistered.held rfl rfl)) rfl

lemma follows_ackPast (h : Gauged cfg s) (hexit : s.exit = none) (hb : Beside s t) (hack : item.ack = true)
    (hagrees : Agrees s.ackWindow item.messageId item.sequenceNumber)
    (next : t.nextSequenceNumber = s.nextSequenceNumber) (hpast : item.sequenceNumber < s.nextSequenceNumber) :
    Follows cfg s (t.ackPast item) := by
  have hwindow : (t.ackPast item).ackWindow =
      s.ackWindow.update ⟨item.sequenceNumber, item.messageId, false, none, item.unwrapped⟩ := by
    rw [ackPast, if_pos hack, ← hb.window]
    rfl
  have hnext : (t.ackPast item).nextSequenceNumber = s.nextSequenceNumber := by
    rw [ackPast, if_pos hack]
    exact next
  have hold := ackPast_hold t item
  refine ⟨h.acks (hb.held.of_hold hold) (hold ▸ hb.hold) hwindow rfl hagrees (.inr fun x _ hx => ?_) fun a ha => ?_, ?_⟩
  · have := h.ahead hexit x hx
    exact Nat.le_of_lt (Nat.lt_of_lt_of_le hpast this)
  · rw [hwindow] at ha
    rw [hnext]
    exact h.ahead hexit a ((update_updates _ _).aboveHead_of ha)
  · rw [hwindow]
    exact .update _

lemma receiveNack_ackWindow (s : ReceiveSequence) (cfg : ReceiveBufferSettings) (env : ReceiveEnv)
    {receivePack : ReceivePack} (hn : receivePack.pack.nack = true) :
    (s.receiveNack cfg env receivePack).ackWindow = s.ackWindow := by
  unfold receiveNack
  split
  · rfl
  · rfl
  split
  · rfl
  dsimp only
  split
  · rfl
  · rename_i registered hregister
    have hk := (registerContracts_keeps hregister).1
    split
    · exact hk.ackWindow
    split
    · rename_i updated item' hupdate
      obtain ⟨hk', -, id, rfl⟩ := updateContract_keeps hupdate
      rw [← hk.ackWindow, ← hk'.ackWindow]
      rcases receiveHead_cases updated env _ with ⟨u, mode, hu, -, heq⟩ | ⟨-, -, -, window, -⟩
      · rw [heq, deliver, if_neg (by simp [newReceiveItem, hn])]
        exact hu.ackWindow
      · exact window
    · exact hk.ackWindow

end Deliver

section Steps

lemma arrive_window (s : ReceiveSequence) (item : ReceiveItem) : (s.arrive item).ackWindow = s.ackWindow := by
  rw [arrive, advanceToHead]
  split <;> rfl

lemma arrive_next (s : ReceiveSequence) (item : ReceiveItem) :
    (s.arrive item).nextSequenceNumber =
      if item.head = true ∧ s.nextSequenceNumber < item.sequenceNumber then item.sequenceNumber
      else s.nextSequenceNumber := by
  rw [arrive, advanceToHead, apply_ite nextSequenceNumber]
  rfl

lemma arrive_exit (s : ReceiveSequence) (item : ReceiveItem) : (s.arrive item).exit = s.exit := by
  rw [arrive, advanceToHead]
  split <;> rfl

/-- The packs whose message and number are those of the pending selective acks, and whose head does not jump over
some of these acks and not over others. -/
def Orderly (c : Committing) : Committing.Event → Prop
  | .sequence (.pack _ receivePack) =>
    let window := c.sequence.ackWindow
    ∀ messageId ∈ (idFromBytes receivePack.pack.messageId).toOption,
      Agrees window messageId receivePack.pack.sequenceNumber ∧
      (receivePack.pack.head = true → c.sequence.nextSequenceNumber < receivePack.pack.sequenceNumber →
        Skips window receivePack.pack.sequenceNumber)
  | _ => True

instance (c : Committing) : (event : Committing.Event) → Decidable (Orderly c event)
  | .sequence (.pack _ receivePack) =>
    inferInstanceAs (Decidable (∀ messageId ∈ (idFromBytes receivePack.pack.messageId).toOption,
      Agrees c.sequence.ackWindow messageId receivePack.pack.sequenceNumber ∧
      (receivePack.pack.head = true → c.sequence.nextSequenceNumber < receivePack.pack.sequenceNumber →
        Skips c.sequence.ackWindow receivePack.pack.sequenceNumber)))
  | .sequence (.drain _) => .isTrue trivial
  | .sequence .commitHeldPrefix => .isTrue trivial
  | .sequence .writeAcks => .isTrue trivial
  | .sequence (.pool _) => .isTrue trivial
  | .sequence .exit => .isTrue trivial
  | .commit => .isTrue trivial

structure Gauges (cfg : ReceiveBufferSettings) (c : Committing) : Prop where
  gauged : Gauged cfg c.sequence
  rest : ∀ r ∈ c.rest, Holds c.sequence r

def Leads (cfg : ReceiveBufferSettings) (s : ReceiveSequence) (c : Committing) : Prop :=
  Gauges cfg c ∧ Ticks s.ackWindow c.sequence.ackWindow

lemma Follows.leads (h : Follows cfg s s') : Leads cfg s ⟨s', []⟩ :=
  ⟨⟨h.1, fun _ hr => absurd hr List.not_mem_nil⟩, h.2⟩

lemma startCommit_gauges (h : Gauged cfg s) : Gauges cfg (s.startCommit cfg) :=
  ⟨h, fun r hr => ⟨r, heldPrefix_mem hr, rfl, rfl, id⟩⟩

lemma startHold_gauges (h : Gauged cfg s) (hexit : s.exit = none) (hack : item.ack = true)
    (hcontract : item.contractId = none) (hagrees : Agrees s.ackWindow item.messageId item.sequenceNumber)
    (hfresh : ∀ x ∈ s.hold.queue.orderedItems,
      x.messageId ≠ item.messageId ∧ x.sequenceNumber ≠ item.sequenceNumber) :
    Leads cfg s (s.startHold cfg item) := by
  have hroom := roomFor_shrinks s cfg item h.held.consistent
  have hmem (x : ReceiveItem) : x ∈ (s.admitted cfg item).hold.queue.orderedItems ↔
      x = item ∨ x ∈ (s.roomFor cfg item).queue.orderedItems := by
    rw [admitted, (add_perm _ _).mem_iff, List.mem_cons]
  rw [startHold]
  split
  · have hadmitted : Gauged cfg (s.admitted cfg item) := by
      refine ⟨⟨consistent_add hroom.1 (fun x hx => (hfresh x (hroom.2 x hx)).1)
        (fun x hx => (hfresh x (hroom.2 x hx)).2), fun x hx => ?_⟩, h.wake, h.counts, h.ahead, fun x hx => ?_⟩
      · rcases (hmem x).mp hx with rfl | hx
        · exact ⟨hack, hcontract⟩
        · exact h.held.plain x (hroom.2 x hx)
      · rcases (hmem x).mp hx with rfl | hx
        · exact hagrees
        · exact h.agrees x (hroom.2 x hx)
    split
    · exact ⟨startCommit_gauges hadmitted, .same⟩
    · have hcommit := gauged_commitHeldItem hadmitted ⟨item, (hmem item).mpr (.inl rfl), rfl, rfl, id⟩
      exact Follows.leads ⟨hcommit, commitHeldItem_ticks _ item⟩
  · have hstays : Follows cfg s { s with hold := s.roomFor cfg item } :=
      h.stays (.of_shrinks h.held hroom rfl) fun _ => ⟨hexit, rfl⟩
    exact hstays.leads

lemma startReceive_gauges (h : Gauged cfg s) (hexit : s.exit = none) {receivePack : ReceivePack}
    (hn : receivePack.pack.nack = false)
    (horderly : ∀ messageId ∈ (idFromBytes receivePack.pack.messageId).toOption,
      Agrees s.ackWindow messageId receivePack.pack.sequenceNumber ∧
      (receivePack.pack.head = true → s.nextSequenceNumber < receivePack.pack.sequenceNumber →
        Skips s.ackWindow receivePack.pack.sequenceNumber)) :
    Leads cfg s (s.startReceive cfg env receivePack) := by
  rw [startReceive]
  cases hid : idFromBytes receivePack.pack.messageId with
  | error fault =>
    have hends : Follows cfg s (s.close (.message "Bad message_id")) := h.ends (.of_hold h.held rfl rfl) rfl
    exact hends.leads
  | ok messageId =>
    dsimp only
    rw [hid] at horderly
    obtain ⟨hagrees, hjump⟩ := horderly messageId rfl
    generalize hitem : newReceiveItem env receivePack messageId none = item
    have hack : item.ack = true := by simp [← hitem, newReceiveItem, hn]
    have hcontract : item.contractId = none := by simp [← hitem, newReceiveItem]
    have hitemId : item.messageId = messageId := by rw [← hitem, newReceiveItem]
    have hnumber : item.sequenceNumber = receivePack.pack.sequenceNumber := by rw [← hitem, newReceiveItem]
    have hhead : item.head = receivePack.pack.head := by rw [← hitem, newReceiveItem]
    rw [← hitemId, ← hnumber] at hagrees
    rw [← hnumber, ← hhead] at hjump
    have harrive : Beside s (s.arrive item) := .of_hold h.held (arrive_hold s item) (arrive_window s item)
    have hfresh : ∀ x ∈ ((s.arrive item).replaceHeld item).hold.queue.orderedItems, _ :=
      fun x hx => replaceHeld_absent harrive.held.consistent item hx
    have hb : Beside s ((s.arrive item).replaceHeld item) :=
      harrive.trans (.of_shrinks harrive.held (replaceHeld_shrinks harrive.held.consistent item) rfl)
    have hnext : ((s.arrive item).replaceHeld item).nextSequenceNumber = _ := arrive_next s item
    split
    · rename_i hle
      split
      · rename_i heq
        refine (follows_receiveNext h hb hack hagrees ?_ heq).leads
        by_cases hj : item.head = true ∧ s.nextSequenceNumber < item.sequenceNumber
        · exact hjump hj.1 hj.2
        · rw [hnext, if_neg hj] at heq
          exact .inr fun x _ hx => heq ▸ h.ahead hexit x hx
      · rename_i hne
        rw [hnext] at hle hne
        split at hle
        · rename_i hj
          rw [if_pos hj] at hne
          exact (hne rfl).elim
        · rename_i hj
          rw [if_neg hj] at hne hnext
          exact (follows_ackPast h hexit hb hack hagrees hnext (by omega)).leads
    · rename_i hgt
      rw [hnext] at hgt
      have hj : ¬ (item.head = true ∧ s.nextSequenceNumber < item.sequenceNumber) := by
        intro hj
        rw [if_pos hj] at hgt
        exact hgt (Nat.le_refl _)
      rw [if_neg hj] at hnext
      have hexit' : ((s.arrive item).replaceHeld item).exit = none := (arrive_exit s item).trans hexit
      have hwindow := hb.window
      have hheld := startHold_gauges (h.beside hb fun _ => ⟨hexit, hnext⟩) hexit' hack hcontract
        (hwindow ▸ hagrees) hfresh
      rw [Leads, hwindow] at hheld
      exact hheld

lemma drain_follows (h : Gauged cfg s) (hexit : s.exit = none) : Follows cfg s (s.drain cfg env) := by
  have hsame : Follows cfg s s := ⟨h, .same⟩
  rw [drain]
  split
  · exact hsame
  rename_i item hfirst
  have hmem : item ∈ s.hold.queue.orderedItems := List.mem_of_head? hfirst
  have hack := (h.held.plain item hmem).1
  have hb : Beside s (s.removeHeld item) :=
    .of_shrinks h.held (removeByMessageId_shrinks h.held.consistent item.messageId) rfl
  split
  · exact h.ends (.of_hold h.held rfl rfl) rfl
  split
  · exact hsame
  rename_i hle
  split
  · rename_i heq
    exact follows_deliverHeld h hb hack (h.agrees item hmem) (.inr fun x _ hx => heq ▸ h.ahead hexit x hx) heq
  · rename_i hne
    exact follows_ackPast h hexit hb hack (h.agrees item hmem) rfl (by omega)

lemma start_leads (h : Gauged cfg s) (event : Event) (horderly : Orderly ⟨s, []⟩ (.sequence event)) :
    Leads cfg s (s.start cfg event) := by
  have hsame : Leads cfg s ⟨s, []⟩ := Follows.leads ⟨h, .same⟩
  cases event with
  | pack env receivePack =>
    rw [start]
    split
    · exact hsame
    rename_i hok
    have hexit : s.exit = none := by
      simp only [not_or, Bool.not_eq_true, Option.isSome_eq_false_iff, Option.isNone_iff_eq_none] at hok
      exact hok.1
    split
    · rename_i hn
      have hb : Beside s (s.receiveNack cfg env receivePack) :=
        .of_hold h.held (receiveNack_hold s cfg env receivePack) (receiveNack_ackWindow s cfg env hn)
      exact (h.stays hb fun _ => ⟨hexit, (receiveNack_still s cfg env hn).next⟩).leads
    · rename_i hn
      exact startReceive_gauges h hexit (by simpa using hn) horderly
  | commitHeldPrefix =>
    rw [start]
    split
    · exact hsame
    · exact ⟨startCommit_gauges h, .same⟩
  | drain env =>
    change Leads cfg s ⟨s.step cfg (.drain env), []⟩
    rw [step]
    split
    · exact hsame
    · rename_i hexit
      exact (drain_follows h (by simpa using hexit)).leads
  | writeAcks => exact Follows.leads ⟨gauged_writeAcks h, .reset⟩
  | pool pool =>
    have hstays : Follows cfg s (s.step cfg (.pool pool)) :=
      h.stays ⟨⟨h.held.consistent, h.held.plain⟩, fun _ hi => hi, rfl⟩ fun hexit => ⟨hexit, rfl⟩
    exact hstays.leads
  | exit =>
    change Leads cfg s ⟨s.step cfg .exit, []⟩
    rw [step]
    split
    · exact hsame
    · have hends : Follows cfg s (s.close (.message "Done.")) := h.ends (.of_hold h.held rfl rfl) rfl
      exact hends.leads

lemma holds_of_items {r : ReceiveItem} (hitems : s'.hold.queue.orderedItems = s.hold.queue.orderedItems)
    (h : Holds s r) : Holds s' r := by
  rw [Holds, hitems]
  exact h

lemma committing_step (c : Committing) (event : Committing.Event) (h : Gauges cfg c) (horderly : Orderly c event) :
    Leads cfg c.sequence (c.step cfg event) := by
  have hsame : Leads cfg c.sequence c := ⟨h, .same⟩
  obtain ⟨s, rest⟩ := c
  cases event with
  | commit =>
    cases rest with
    | nil => exact hsame
    | cons held rest =>
      have hheld := h.rest held List.mem_cons_self
      have hrest : ∀ r ∈ rest, Holds s r := fun r hr => h.rest r (List.mem_cons_of_mem held hr)
      change Leads cfg s ⟨s.commitOne held, rest⟩
      rw [commitOne]
      split
      · exact ⟨⟨h.gauged, hrest⟩, .same⟩
      · exact ⟨⟨gauged_commitHeldItem h.gauged hheld, fun r hr => (hrest r hr).commitHeldItem held⟩,
          commitHeldItem_ticks s held⟩
  | sequence event =>
    have hother (hstart : Leads cfg s (s.start cfg event)) :
        Leads cfg s (if rest.isEmpty then s.start cfg event else ⟨s, rest⟩) := by
      split
      · exact hstart
      · exact hsame
    match event with
    | .writeAcks => exact ⟨⟨gauged_writeAcks h.gauged, fun r hr => holds_of_items rfl (h.rest r hr)⟩, .reset⟩
    | .pool pool =>
      have hpool := (start_leads h.gauged (.pool pool) trivial).1.gauged
      exact ⟨⟨hpool, fun r hr => holds_of_items rfl (h.rest r hr)⟩, .same⟩
    | .pack env receivePack => exact hother (start_leads h.gauged (.pack env receivePack) horderly)
    | .drain env => exact hother (start_leads h.gauged (.drain env) trivial)
    | .commitHeldPrefix => exact hother (start_leads h.gauged .commitHeldPrefix trivial)
    | .exit => exact hother (start_leads h.gauged .exit trivial)

lemma gauges_new (cfg : ReceiveBufferSettings) (pool : BudgetTree) : Gauges cfg (.new cfg pool) := by
  refine ⟨⟨held_new cfg pool, rfl, counts_new _, fun _ _ _ => Nat.zero_le _, fun i hi => ?_⟩, ?_⟩
  · change i ∈ (newReceiveQueue cfg pool).queue.orderedItems at hi
    rw [newReceiveQueue_orderedItems] at hi
    cases hi
  · intro r hr
    cases hr

end Steps

/-- In every run whose packs name the messages of the pending selective acks as the acks do, and whose heads jump
over none or all of these acks, the count of the window is the number of pending acks above its head, and a hole is
signalled as provable only when enough of them are pending. -/
theorem gap_wake_counts_pending_acks (cfg : ReceiveBufferSettings) (pool : BudgetTree)
    (events : List Committing.Event) (horderly : Meets Orderly (Committing.step cfg) (.new cfg pool) events) :
    let window (past : List Committing.Event) :=
      (run (Committing.step cfg) (.new cfg pool) past).sequence.ackWindow
    (window events).gapSelectiveAboveHead = (window events).pendingAboveHead ∧
    ∀ past event rest, events = past ++ event :: rest →
      (window past).gapWakeSignaled.holeProvable = false →
      (window (past ++ [event])).gapWakeSignaled.holeProvable = true →
      cfg.ackGapWakeSelectiveCount ≤ (window (past ++ [event])).pendingAboveHead := by
  intro window
  have hgauges {past : List Committing.Event} (hm : Meets Orderly (Committing.step cfg) (.new cfg pool) past) :
      Gauges cfg (run (Committing.step cfg) (.new cfg pool) past) :=
    meets_invariant (fun c e h he => (committing_step c e h he).1) (gauges_new cfg pool) hm
  refine ⟨(hgauges horderly).gauged.counts.count, ?_⟩
  rintro past event rest rfl hbefore hafter
  obtain ⟨hpast, hevent, -⟩ := meets_append.mp horderly
  have hleads := committing_step _ event (hgauges hpast) hevent
  have hcounts := hleads.1.gauged.counts
  have hwake := (hgauges hpast).gauged.wake
  dsimp only [window] at hbefore hafter ⊢
  rw [run_concat] at hafter ⊢
  have hticks := hleads.2
  generalize ((run (Committing.step cfg) (.new cfg pool) past).step cfg event).sequence.ackWindow = w' at *
  cases hticks with
  | same => simp [hbefore] at hafter
  | update b =>
    rw [← hcounts.count, ← hwake]
    exact (update_holeProvable hafter).resolve_left (by simp [hbefore])
  | reset => cases hafter

def wakeSettings (policy : ReceiveHoldPolicyKind) : ReceiveBufferSettings :=
  { holdSettings 1000 policy with ackGapWakeSelectiveCount := 3 }

def numbered (n : UInt8) (head : Bool) : Committing.Event :=
  .sequence (.pack openEnv (barePack (.ofByte n) n.toNat head 10))

def filledHole : List Committing.Event :=
  [numbered 1 false, .commit, numbered 2 false, .commit, .sequence .writeAcks, .commit, numbered 3 false,
    .commit, .commit, .commit, numbered 0 true, .sequence (.drain openEnv), .sequence (.drain openEnv)]

theorem gap_wake_of_filledHole :
    let window := (run (Committing.step (wakeSettings .committedPrefix)) (.new (wakeSettings .committedPrefix) .empty)
      filledHole).sequence.ackWindow
    window.gapSelectiveAboveHead = window.pendingAboveHead :=
  (gap_wake_counts_pending_acks (wakeSettings .committedPrefix) .empty filledHole (by decide +kernel)).1

def jumpedAck : List Committing.Event := [numbered 5 false, numbered 9 false, numbered 7 true]

theorem jumped_ack_is_counted :
    let window (past : List Committing.Event) :=
      (run (Committing.step (wakeSettings .evict)) (.new (wakeSettings .evict) .empty) past).sequence.ackWindow
    (window jumpedAck).gapSelectiveAboveHead = 2 ∧ (window jumpedAck).pendingAboveHead = 1 ∧
    (window jumpedAck).gapWakeSignaled.holeProvable = false ∧
    (window (jumpedAck ++ [numbered 10 false])).gapWakeSignaled.holeProvable = true ∧
    (window (jumpedAck ++ [numbered 10 false])).pendingAboveHead = 2 := by
  decide +kernel

end Gauged

end UrConnect.Transfer.ReceiveSequence
