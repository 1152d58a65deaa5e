import UrConnect.Lib.Runs
import UrConnect.Transfer.ReceiveBooks

/-! The receiver credits only what it debited, and accepts no more than a contract pays for. -/

namespace UrConnect.Transfer.ReceiveSequence

open UrConnect.Lib.Runs

variable {s s' : ReceiveSequence} {cfg : ReceiveBufferSettings} {frame : Option ContractFrame}

def CreditsPaid (history : List ReceiveEntry) : Prop :=
  ∀ before after c id byteCount, history = before ++ .credited c id byteCount :: after →
    ∃ rest, after = .debited c id byteCount :: rest

def IsCredit : ReceiveEntry → Prop
  | .credited _ _ _ => True
  | _ => False

lemma CreditsPaid.cons {history : List ReceiveEntry} {e : ReceiveEntry} (h : CreditsPaid history)
    (he : ¬ IsCredit e) : CreditsPaid (e :: history) := by
  intro before after c id byteCount heq
  cases before with
  | nil =>
    cases heq
    exact absurd trivial he
  | cons b before =>
    rw [List.cons_append, List.cons.injEq] at heq
    exact h before after c id byteCount heq.2

lemma CreditsPaid.append {new history : List ReceiveEntry} (h : CreditsPaid history)
    (hnew : ∀ e ∈ new, ¬ IsCredit e) : CreditsPaid (new ++ history) := by
  induction new with
  | nil => exact h
  | cons e new ih =>
    apply (ih fun x hx => hnew x (List.mem_cons_of_mem _ hx)).cons
    exact hnew e List.mem_cons_self

lemma CreditsPaid.pay {history : List ReceiveEntry} (h : CreditsPaid history) (c : SequenceContract)
    (id : Id) (byteCount : ℤ) :
    CreditsPaid (.credited c id byteCount :: .debited c id byteCount :: history) := by
  intro before after c' id' byteCount' heq
  cases before with
  | nil =>
    cases heq
    exact ⟨history, rfl⟩
  | cons b before =>
    rw [List.cons_append, List.cons.injEq] at heq
    exact (h.cons (by exact not_false)) before after c' id' byteCount' heq.2

structure Accounted (s : ReceiveSequence) : Prop where
  calm : s.panicked = false
  paid : CreditsPaid s.history

lemma Accounted.rests (h : Accounted s) (hr : Rests s s') : Accounted s' := by
  obtain ⟨new, hnew, hrest⟩ := hr.grows
  refine ⟨hr.panicked.trans h.calm, hnew ▸ h.paid.append fun e he hc => ?_⟩
  have hx := hrest e he
  cases e <;> first | exact hc | exact hx

lemma Accounted.registers (h : Accounted s) (hr : Registers cfg frame s s') : Accounted s' := by
  rcases hr with hr | ⟨next, hr⟩
  · exact h.rests hr
  · obtain ⟨evicted, hh⟩ := hr.history
    refine ⟨hr.panicked.trans h.calm, hh ▸ (h.paid.cons (by exact not_false)).append fun e he hc => ?_⟩
    obtain ⟨c, -, rfl⟩ := List.mem_map.mp he
    exact hc

lemma Accounted.pays (h : Accounted s) (hp : Pays s s') : Accounted s' := by
  obtain ⟨c, c', c'', item, hp⟩ := hp
  obtain ⟨acks, frames, mode, hh⟩ := hp.history
  refine ⟨hp.panicked.trans h.calm, hh ▸ ?_⟩
  apply ((h.paid.pay _ _ _).cons (by exact not_false)).append
  intro e he hc
  obtain ⟨a, -, rfl⟩ := List.mem_map.mp he
  exact hc

lemma Accounted.books (h : Accounted s) (hb : Books cfg frame s s') : Accounted s' := by
  obtain ⟨s₁, s₂, h₁, h₂, h₃⟩ := hb
  have hregistered := (h.rests h₁).registers h₂
  rcases h₃ with h₃ | h₃
  · exact hregistered.rests h₃
  · exact hregistered.pays h₃

lemma idle_new (cfg : ReceiveBufferSettings) (pool : BudgetTree) : Idle (newReceiveSequence cfg pool) :=
  fun _ hc => by cases hc

lemma accounted_new (cfg : ReceiveBufferSettings) (pool : BudgetTree) :
    Accounted (newReceiveSequence cfg pool) :=
  ⟨rfl, fun before after c id byteCount heq => by cases before <;> cases heq⟩

theorem receive_accounting (cfg : ReceiveBufferSettings) (pool : BudgetTree) (events : List Event)
    (h : Meets (fun s e => refusesNamed cfg s e = false) (step cfg) (newReceiveSequence cfg pool) events) :
    Accounted (run (step cfg) (newReceiveSequence cfg pool) events) := by
  have hrun := meets_invariant (I := fun s => Held s ∧ Idle s ∧ Accounted s) ?_
    ⟨held_new cfg pool, idle_new cfg pool, accounted_new cfg pool⟩ h
  · exact hrun.2.2
  · rintro s e ⟨hheld, hidle, hacc⟩ hok
    have hbooks := step_books hidle hheld hok
    exact ⟨held_step cfg s e hheld, hbooks.idle hidle, hacc.books hbooks⟩

def contractPack (id : Id) (sequenceNumber : ℕ) (nack : Bool) (carried : Option (Id × ℕ))
    (named : Option Id) (messageByteCount : ℤ) : ReceivePack where
  pack := { (barePack id sequenceNumber false messageByteCount).pack with
    nack := nack
    contractFrame := carried.map fun c => {
      contract := some {
        storedContractHmac := []
        provideMode := .network
        stored := some {
          contractId := c.1.bytes
          transferByteCount := c.2
          sourceId := none
          destinationId := none
          streamId := none
          expirationTimeUnixMilli := none } } }
    contractId := named.map Id.bytes }
  messageByteCount := messageByteCount
  unwrapped := false

theorem receive_accounting_nack : Accounted
    (run (step (holdSettings 100 .committedPrefix))
      (newReceiveSequence (holdSettings 100 .committedPrefix) .empty)
      [.pack openEnv (contractPack (.ofByte 1) 0 true (some (.ofByte 9, 10)) (some (.ofByte 9)) 10)]) :=
  receive_accounting _ _ _ (by decide +kernel)

theorem receive_bad_accounting : ¬ Accounted
    (run (step (holdSettings 100 .committedPrefix))
      (newReceiveSequence (holdSettings 100 .committedPrefix) .empty)
      [.pack openEnv (contractPack (.ofByte 1) 0 true (some (.ofByte 9, 10)) (some (.ofByte 9)) 10),
        .pack openEnv (contractPack (.ofByte 2) 0 true none (some (.ofByte 9)) 10)]) := by
  intro h
  have hcalm := h.calm
  revert hcalm
  decide +kernel

def openedContract : ReceiveEntry → Option SequenceContract
  | .opened c => some c
  | _ => none

def opened (s : ReceiveSequence) : List SequenceContract := s.history.filterMap openedContract

def spending (cfg : ReceiveBufferSettings) (id : Id) : ReceiveEntry → ℤ
  | .delivered item _ _ =>
    if item.contractId = some id then max cfg.minMessageByteCount item.messageByteCount else 0
  | _ => 0

def spent (cfg : ReceiveBufferSettings) (id : Id) (s : ReceiveSequence) : ℤ :=
  (s.history.map (spending cfg id)).sum

structure WithinContracts (cfg : ReceiveBufferSettings) (s : ReceiveSequence) : Prop where
  bounded : ∀ c ∈ s.opened, s.spent cfg c.contractId ≤ c.transferByteCount
  unopened : ∀ id, (∀ c ∈ s.opened, c.contractId ≠ id) → s.spent cfg id = 0

structure Spends (cfg : ReceiveBufferSettings) (s : ReceiveSequence) : Prop extends
    WithinContracts cfg s where
  idle : Idle s
  floor : ∀ c ∈ s.openReceiveContracts, c.minUpdateByteCount = cfg.minMessageByteCount
  ceiling : ∀ c ∈ s.openReceiveContracts, c.effectiveTransferByteCount ≤ c.transferByteCount
  acked : ∀ c ∈ s.openReceiveContracts, c.ackedByteCount = s.spent cfg c.contractId
  listed : ∀ c ∈ s.openReceiveContracts, ∃ d ∈ s.opened, d.contractId = c.contractId
  known : ∀ c ∈ s.openReceiveContracts, ∀ d ∈ s.opened, d.contractId = c.contractId →
    d.transferByteCount = c.transferByteCount

lemma sum_map_zero {f : ReceiveEntry → ℤ} {entries : List ReceiveEntry} (h : ∀ e ∈ entries, f e = 0) :
    (entries.map f).sum = 0 := by
  apply List.sum_eq_zero
  intro x hx
  obtain ⟨e, he, rfl⟩ := List.mem_map.mp hx
  exact h e he

lemma Rests.opened (h : Rests s s') : s'.opened = s.opened :=
  h.grows.filterMap_eq fun e he => by cases e <;> first | rfl | exact he.elim

lemma Rests.spent (h : Rests s s') (id : Id) : s'.spent cfg id = s.spent cfg id := by
  obtain ⟨new, hnew, hrest⟩ := h.grows
  have hzero : (new.map (spending cfg id)).sum = 0 := by
    apply sum_map_zero
    intro e he
    have hx := hrest e he
    cases e with
    | delivered item frames mode =>
      have hnone : item.contractId = none := hx
      simp [spending, hnone]
    | _ => rfl
  rw [ReceiveSequence.spent, hnew, List.map_append, List.sum_append, hzero, zero_add]
  rfl

lemma Spends.rests (h : Spends cfg s) (hr : Rests s s') : Spends cfg s' := by
  obtain ⟨⟨hbounded, hunopened⟩, hidle, hfloor, hceiling, hacked, hlisted, hknown⟩ := h
  refine ⟨⟨?_, ?_⟩, hr.idle hidle, ?_, ?_, ?_, ?_, ?_⟩ <;>
    simp only [hr.opened, hr.spent, hr.contracts] <;> assumption

/-- The frame carries no contract that `float32` rounds up, and none that was opened before and is
no longer open. -/
def OpensOnce (s : ReceiveSequence) (frame : Option ContractFrame) : Prop :=
  match (frameContract frame).bind Contract.stored with
  | none => True
  | some stored =>
    match idFromBytes stored.contractId with
    | .error _ => True
    | .ok id => wholeFill stored.transferByteCount ≤ stored.transferByteCount ∧
      (s.openContract id = none → ∀ c ∈ s.opened, c.contractId ≠ id)

lemma OpensNew.opensOnce {next : SequenceContract} (h : OpensNew cfg frame next s s')
    (hf : OpensOnce s frame) : wholeFill next.transferByteCount ≤ next.transferByteCount ∧
      ∀ c ∈ s.opened, c.contractId ≠ next.contractId := by
  obtain ⟨contract, hcontract, hnew⟩ := h.carried
  obtain ⟨stored, hstored, hid, hbytes, -⟩ := newSequenceContract_ok hnew
  rw [OpensOnce, hcontract, Option.bind_some, hstored] at hf
  simp only [hid] at hf
  exact ⟨hbytes ▸ hf.1, hf.2 h.absent⟩

lemma OpensNew.opened_eq {next : SequenceContract} (h : OpensNew cfg frame next s s') :
    s'.opened = next :: s.opened := by
  obtain ⟨evicted, hh⟩ := h.history
  have hnone : (evicted.map ReceiveEntry.evicted).filterMap openedContract = [] := by
    rw [List.filterMap_eq_nil_iff]
    intro e he
    obtain ⟨c, -, rfl⟩ := List.mem_map.mp he
    rfl
  rw [opened, hh, List.filterMap_append, hnone]
  rfl

lemma OpensNew.spent_eq {next : SequenceContract} (h : OpensNew cfg frame next s s') (id : Id) :
    s'.spent cfg id = s.spent cfg id := by
  obtain ⟨evicted, hh⟩ := h.history
  have hzero : ((evicted.map ReceiveEntry.evicted).map (spending cfg id)).sum = 0 := by
    apply sum_map_zero
    intro e he
    obtain ⟨c, -, rfl⟩ := List.mem_map.mp he
    rfl
  rw [spent, hh, List.map_append, List.sum_append, hzero, List.map_cons, List.sum_cons]
  simp [spending, spent]

lemma Spends.opensNew {next : SequenceContract} (h : Spends cfg s) (hr : OpensNew cfg frame next s s')
    (hf : OpensOnce s frame) : Spends cfg s' := by
  obtain ⟨hround, hfresh⟩ := hr.opensOnce hf
  obtain ⟨contract, -, hnew⟩ := hr.carried
  obtain ⟨-, -, -, -, hmin, heff, hacked, hunacked, -⟩ := newSequenceContract_ok hnew
  have hzero : s.spent cfg next.contractId = 0 := h.unopened _ hfresh
  have hregisters : Registers cfg frame s s' := Or.inr ⟨next, hr⟩
  refine ⟨⟨?_, ?_⟩, hregisters.idle h.idle, ?_, ?_, ?_, ?_, ?_⟩
  · intro c hc
    rw [hr.opened_eq] at hc
    rw [hr.spent_eq]
    rcases List.mem_cons.mp hc with rfl | hc
    · rw [hzero]
      exact Int.natCast_nonneg _
    · exact h.bounded c hc
  · intro id hid
    rw [hr.opened_eq] at hid
    rw [hr.spent_eq]
    exact h.unopened id fun c hc => hid c (List.mem_cons_of_mem _ hc)
  · intro c hc
    rcases hr.contracts c hc with hc | rfl
    · exact h.floor c hc
    · exact hmin
  · intro c hc
    rcases hr.contracts c hc with hc | rfl
    · exact h.ceiling c hc
    · rw [heff]
      exact hround
  · intro c hc
    rw [hr.spent_eq]
    rcases hr.contracts c hc with hc | rfl
    · exact h.acked c hc
    · rw [hacked, hzero]
  · intro c hc
    rw [hr.opened_eq]
    rcases hr.contracts c hc with hc | rfl
    · obtain ⟨d, hd, hid⟩ := h.listed c hc
      exact ⟨d, List.mem_cons_of_mem _ hd, hid⟩
    · exact ⟨c, List.mem_cons_self, rfl⟩
  · -- an open contract of the same id is impossible, since its id was opened before
    intro c hc d hd hid
    rw [hr.opened_eq] at hd
    rcases hr.contracts c hc with hc | rfl <;> rcases List.mem_cons.mp hd with rfl | hd
    · have habsent := List.find?_eq_none.mp hr.absent c hc
      simp [hid] at habsent
    · exact h.known c hc d hd hid
    · rfl
    · exact absurd hid (hfresh d hd)

variable {c c' c'' : SequenceContract} {item : ReceiveItem}

lemma PaysFrom.opened_eq (h : PaysFrom c c' c'' item s s') : s'.opened = s.opened := by
  obtain ⟨acks, frames, mode, hh⟩ := h.history
  have hnone : (acks.map ReceiveEntry.acked).filterMap openedContract = [] := by
    rw [List.filterMap_eq_nil_iff]
    intro e he
    obtain ⟨a, -, rfl⟩ := List.mem_map.mp he
    rfl
  rw [opened, hh, List.filterMap_append, hnone]
  rfl

lemma PaysFrom.spent_eq (h : PaysFrom c c' c'' item s s') (id : Id) :
    s'.spent cfg id = s.spent cfg id +
      if c.contractId = id then max cfg.minMessageByteCount item.messageByteCount else 0 := by
  obtain ⟨acks, frames, mode, hh⟩ := h.history
  have hzero : ((acks.map ReceiveEntry.acked).map (spending cfg id)).sum = 0 := by
    apply sum_map_zero
    intro e he
    obtain ⟨a, -, rfl⟩ := List.mem_map.mp he
    rfl
  rw [spent, hh, List.map_append, List.sum_append, hzero]
  simp [spending, spent, h.named, add_comm]

lemma PaysFrom.paid (h : PaysFrom c c' c'' item s s') (hidle : Idle s) :
    c'' = { c with
      ackedByteCount := c.ackedByteCount + c.effectiveByteCount item.messageByteCount } ∧
      c.ackedByteCount + c.effectiveByteCount item.messageByteCount ≤ c.effectiveTransferByteCount := by
  obtain ⟨now, hu⟩ := h.debit
  obtain ⟨rfl, -, hroom⟩ := SequenceContract.update_some hu
  have hzero := hidle c h.mem
  refine ⟨?_, by omega⟩
  rw [(SequenceContract.ack_some h.credit).1]
  simp [SequenceContract.effectiveByteCount]

lemma PaysFrom.contract_cases (h : PaysFrom c c' c'' item s s') {d : SequenceContract}
    (hd : d ∈ s'.openReceiveContracts) :
    d = c'' ∨ d ∈ s.openReceiveContracts ∧ d.contractId ≠ c.contractId := by
  rw [h.contracts] at hd
  obtain ⟨x, hx, rfl⟩ := List.mem_map.mp hd
  split
  · exact Or.inl rfl
  · exact Or.inr ⟨hx, ‹_›⟩

lemma Spends.pays (h : Spends cfg s) (hp : PaysFrom c c' c'' item s s') : Spends cfg s' := by
  obtain ⟨hpaid, hroom⟩ := hp.paid h.idle
  have hbytes : c.effectiveByteCount item.messageByteCount =
      max cfg.minMessageByteCount item.messageByteCount := by
    rw [SequenceContract.effectiveByteCount, h.floor c hp.mem]
  have hid : c''.contractId = c.contractId := by rw [hpaid]
  have hacked : c''.ackedByteCount = s'.spent cfg c.contractId := by
    rw [hp.spent_eq, if_pos rfl, ← hbytes, ← h.acked c hp.mem, hpaid]
  refine ⟨⟨?_, ?_⟩, hp.idle h.idle, ?_, ?_, ?_, ?_, ?_⟩
  · intro d hd
    rw [hp.opened_eq] at hd
    by_cases hdc : d.contractId = c.contractId
    · rw [hdc, ← hacked, hpaid, h.known c hp.mem d hd hdc]
      exact hroom.trans (h.ceiling c hp.mem)
    · rw [hp.spent_eq, if_neg (Ne.symm hdc), add_zero]
      exact h.bounded d hd
  · intro id hnone
    rw [hp.opened_eq] at hnone
    have hne : c.contractId ≠ id := by
      rintro rfl
      obtain ⟨d, hd, hdc⟩ := h.listed c hp.mem
      exact hnone d hd hdc
    rw [hp.spent_eq, if_neg hne, add_zero]
    exact h.unopened id hnone
  · intro d hd
    rcases hp.contract_cases hd with rfl | ⟨hd, -⟩
    · rw [hpaid]
      exact h.floor c hp.mem
    · exact h.floor d hd
  · intro d hd
    rcases hp.contract_cases hd with rfl | ⟨hd, -⟩
    · rw [hpaid]
      exact h.ceiling c hp.mem
    · exact h.ceiling d hd
  · intro d hd
    rcases hp.contract_cases hd with rfl | ⟨hd, hne⟩
    · rw [hid]
      exact hacked
    · rw [hp.spent_eq, if_neg (Ne.symm hne), add_zero]
      exact h.acked d hd
  · intro d hd
    rw [hp.opened_eq]
    rcases hp.contract_cases hd with rfl | ⟨hd, -⟩
    · rw [hid]
      exact h.listed c hp.mem
    · exact h.listed d hd
  · intro d hd e he hed
    rw [hp.opened_eq] at he
    rcases hp.contract_cases hd with rfl | ⟨hd, -⟩
    · rw [hid] at hed
      rw [hpaid]
      exact h.known c hp.mem e he hed
    · exact h.known d hd e he hed

lemma Rests.openContract (h : Rests s s') (id : Id) : s'.openContract id = s.openContract id := by
  rw [ReceiveSequence.openContract, h.contracts]
  rfl

lemma Rests.opensOnce (h : Rests s s') (hf : OpensOnce s frame) : OpensOnce s' frame := by
  simp only [OpensOnce, h.openContract, h.opened]
  exact hf

lemma Spends.books (h : Spends cfg s) (hb : Books cfg frame s s') (hf : OpensOnce s frame) :
    Spends cfg s' := by
  obtain ⟨s₁, s₂, h₁, h₂, h₃⟩ := hb
  have hrested := h.rests h₁
  have hregistered : Spends cfg s₂ := by
    rcases h₂ with h₂ | ⟨next, h₂⟩
    · exact hrested.rests h₂
    · exact hrested.opensNew h₂ (h₁.opensOnce hf)
  rcases h₃ with h₃ | ⟨c, c', c'', item, h₃⟩
  · exact hregistered.rests h₃
  · exact hregistered.pays h₃

def RequiresContract : Event → Prop
  | .pack env _ => env.receiveNoContract = false
  | .drain env => env.receiveNoContract = false
  | _ => True

lemma RequiresContract.not_refuses {e : Event} (h : RequiresContract e) :
    refusesNamed cfg s e = false := by
  cases e with
  | pack env receivePack =>
    have hno : env.receiveNoContract = false := h
    simp [refusesNamed, hno]
  | _ => rfl

lemma spends_new (cfg : ReceiveBufferSettings) (pool : BudgetTree) :
    Spends cfg (newReceiveSequence cfg pool) := by
  refine ⟨⟨?_, fun _ _ => rfl⟩, idle_new cfg pool, ?_, ?_, ?_, ?_, ?_⟩ <;> intro c hc <;> cases hc

theorem receive_within_contracts (cfg : ReceiveBufferSettings) (pool : BudgetTree) (events : List Event)
    (h : Meets (fun s e => RequiresContract e ∧ OpensOnce s (handledFrame s e)) (step cfg)
      (newReceiveSequence cfg pool) events) :
    WithinContracts cfg (run (step cfg) (newReceiveSequence cfg pool) events) := by
  have hrun := meets_invariant (I := fun s => Held s ∧ Spends cfg s) ?_
    ⟨held_new cfg pool, spends_new cfg pool⟩ h
  · exact hrun.2.toWithinContracts
  · rintro s e ⟨hheld, hspends⟩ ⟨hrequires, honce⟩
    have hbooks : Books cfg (handledFrame s e) s (step cfg s e) :=
      step_books hspends.idle hheld hrequires.not_refuses
    exact ⟨held_step cfg s e hheld, hspends.books hbooks honce⟩

instance (s : ReceiveSequence) (frame : Option ContractFrame) : Decidable (OpensOnce s frame) := by
  rw [OpensOnce]
  cases (frameContract frame).bind Contract.stored with
  | none => exact inferInstanceAs (Decidable True)
  | some stored =>
    dsimp only
    cases idFromBytes stored.contractId with
    | error _ => exact inferInstanceAs (Decidable True)
    | ok id => exact inferInstanceAs (Decidable (_ ∧ (_ → _)))

instance (e : Event) : Decidable (RequiresContract e) :=
  match e with
  | .pack env _ => inferInstanceAs (Decidable (env.receiveNoContract = false))
  | .drain env => inferInstanceAs (Decidable (env.receiveNoContract = false))
  | .commitHeldPrefix | .writeAcks | .pool _ | .exit => inferInstanceAs (Decidable True)

def contractEnv : ReceiveEnv := { openEnv with receiveNoContract := false }

theorem receive_within_contracts_resend : WithinContracts (holdSettings 100 .committedPrefix)
    (run (step (holdSettings 100 .committedPrefix))
      (newReceiveSequence (holdSettings 100 .committedPrefix) .empty)
      [.pack contractEnv (contractPack (.ofByte 1) 0 false (some (.ofByte 9, 20)) none 10),
        .pack contractEnv (contractPack (.ofByte 2) 1 false (some (.ofByte 9, 20)) none 10)]) :=
  receive_within_contracts _ _ _ (by decide +kernel)

theorem receive_beyond_contract : ¬ WithinContracts (holdSettings 100 .committedPrefix)
    (run (step (holdSettings 100 .committedPrefix))
      (newReceiveSequence (holdSettings 100 .committedPrefix) .empty)
      [.pack contractEnv (contractPack (.ofByte 1) 0 false (some (.ofByte 8, 10)) none 10),
        .pack contractEnv (contractPack (.ofByte 2) 1 false (some (.ofByte 9, 10)) none 10),
        .pack contractEnv (contractPack (.ofByte 3) 2 false (some (.ofByte 8, 10)) none 10)]) := by
  intro h
  have hbounded := h.bounded
  revert hbounded
  decide +kernel

end UrConnect.Transfer.ReceiveSequence
