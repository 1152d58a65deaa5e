import UrConnect.Transfer.ReceiveSequence

/-! What each operation of a receive sequence leaves as it was. -/

namespace UrConnect.Transfer.ReceiveSequence

structure Keeps (s s' : ReceiveSequence) : Prop where
  next : s'.nextSequenceNumber = s.nextSequenceNumber
  hold : s'.hold = s.hold
  maxHeld : s'.maxHeldByteCount = s.maxHeldByteCount
  ackWindow : s'.ackWindow = s.ackWindow
  exit : s'.exit = s.exit
  panicked : s'.panicked = s.panicked

variable {s s' s'' : ReceiveSequence} {cfg : ReceiveBufferSettings} {env : ReceiveEnv}
  {item item' : ReceiveItem}

lemma Keeps.refl (s : ReceiveSequence) : Keeps s s := ⟨rfl, rfl, rfl, rfl, rfl, rfl⟩

def Grows (P : ReceiveEntry → Prop) (s s' : ReceiveSequence) : Prop :=
  ∃ new, s'.history = new ++ s.history ∧ ∀ e ∈ new, P e

def IsRegistration : ReceiveEntry → Prop
  | .opened _ => True
  | .evicted _ => True
  | _ => False

def IsLedger : ReceiveEntry → Prop
  | .opened _ => True
  | .evicted _ => True
  | .debited _ _ _ => True
  | .credited _ _ _ => True
  | _ => False

variable {P Q : ReceiveEntry → Prop}

lemma Grows.refl (s : ReceiveSequence) : Grows P s s := ⟨[], rfl, by simp⟩

lemma Grows.trans (h : Grows P s s') (h' : Grows P s' s'') : Grows P s s'' := by
  obtain ⟨new, hn, hp⟩ := h
  obtain ⟨new', hn', hp'⟩ := h'
  refine ⟨new' ++ new, by rw [hn', hn, List.append_assoc], fun e he => ?_⟩
  rcases List.mem_append.mp he with he | he
  · exact hp' e he
  · exact hp e he

lemma Grows.mono (h : Grows P s s') (hpq : ∀ e, P e → Q e) : Grows Q s s' := by
  obtain ⟨new, hn, hp⟩ := h
  exact ⟨new, hn, fun e he => hpq e (hp e he)⟩

lemma Grows.filterMap_eq {α : Type} {f : ReceiveEntry → Option α} (h : Grows P s s')
    (hf : ∀ e, P e → f e = none) : s'.history.filterMap f = s.history.filterMap f := by
  obtain ⟨new, hn, hp⟩ := h
  have hnone : new.filterMap f = [] := List.filterMap_eq_nil_iff.mpr fun e he => hf e (hp e he)
  rw [hn, List.filterMap_append, hnone, List.nil_append]

lemma registration_ledger (e : ReceiveEntry) (h : IsRegistration e) : IsLedger e := by
  cases e <;> trivial

lemma setContract_keeps {clock : ContractClock} {next : SequenceContract}
    (h : s.setContract cfg clock next = .ok s') : Keeps s s' ∧ Grows IsRegistration s s' := by
  unfold setContract at h
  split at h
  · cases h
  split at h
  · split at h
    · cases h
    · cases h
      exact ⟨Keeps.refl s, Grows.refl s⟩
  split at h
  · split at h
    · cases h
    · cases h
      exact ⟨⟨rfl, rfl, rfl, rfl, rfl, rfl⟩, [], rfl, by simp⟩
  · cases h
    refine ⟨⟨rfl, rfl, rfl, rfl, rfl, rfl⟩, (evictedContracts (s.openReceiveContracts ++ [next])
      cfg.maxOpenReceiveContract next.contractId).reverse.map .evicted ++ [.opened next], ?_, ?_⟩
    · simp [openNewContract]
    · intro e he
      simp only [List.mem_append, List.mem_map, List.mem_singleton] at he
      rcases he with ⟨c, -, rfl⟩ | rfl <;> trivial

lemma registerContracts_keeps (h : s.registerContracts cfg env item = .ok s') :
    Keeps s s' ∧ Grows IsRegistration s s' := by
  unfold registerContracts at h
  split at h
  · cases h
    exact ⟨Keeps.refl s, Grows.refl s⟩
  split at h
  · cases h
  split at h
  · cases h
  split at h
  · cases h
  split at h
  · cases h
  · obtain ⟨hk, hg⟩ := setContract_keeps h
    exact ⟨⟨hk.next, hk.hold, hk.maxHeld, hk.ackWindow, hk.exit, hk.panicked⟩, hg⟩

lemma debitContract_cases {contract : Option SequenceContract}
    (h : s.debitContract env item contract = some (s', item')) :
    (∃ c c', contract = some c ∧ c.update env.clock.debited item.messageByteCount = some c' ∧
      s' = (s.putContract c').log (.debited c' item.messageId item.messageByteCount) ∧
      item' = { item with contractId := some c.contractId }) ∨
    (env.receiveNoContract = true ∧ s' = s ∧ item' = item ∧
      ∀ c, contract = some c → c.update env.clock.debited item.messageByteCount = none) := by
  unfold debitContract withoutContract at h
  split at h
  · split at h
    · cases h
      exact Or.inr ⟨‹_›, rfl, rfl, by simp⟩
    · cases h
  · rename_i c
    split at h
    · cases h
    split at h
    · rename_i c' hc
      cases h
      exact Or.inl ⟨c, c', rfl, hc, rfl, rfl⟩
    · rename_i hc
      split at h
      · cases h
        refine Or.inr ⟨‹_›, rfl, rfl, ?_⟩
        rintro d hd
        cases hd
        exact hc
      · cases h

lemma updateContract_keeps (h : s.updateContract env item = some (s', item')) :
    Keeps s s' ∧ Grows IsLedger s s' ∧ ∃ id, item' = { item with contractId := id } := by
  rcases debitContract_cases h with ⟨c, c', -, -, rfl, rfl⟩ | ⟨-, rfl, rfl, -⟩
  · exact ⟨⟨rfl, rfl, rfl, rfl, rfl, rfl⟩, ⟨[_], rfl, by simp [IsLedger]⟩, _, rfl⟩
  · exact ⟨Keeps.refl s', Grows.refl s', item'.contractId, rfl⟩

lemma receiveHead_cases (s : ReceiveSequence) (env : ReceiveEnv) (item : ReceiveItem) :
    (∃ t mode, Keeps s t ∧ Grows IsLedger s t ∧ s.receiveHead env item = t.deliver env item mode) ∨
    ((s.receiveHead env item).panicked = true ∧
      (s.receiveHead env item).nextSequenceNumber = s.nextSequenceNumber ∧
      (s.receiveHead env item).hold = s.hold ∧ (s.receiveHead env item).ackWindow = s.ackWindow ∧
      (s.receiveHead env item).exit.isSome ∧ Grows IsLedger s (s.receiveHead env item)) := by
  unfold receiveHead
  split
  · exact Or.inl ⟨s, _, Keeps.refl s, Grows.refl s, rfl⟩
  · rename_i c _
    have hgrows : ∀ t : ReceiveSequence,
        t.history = .credited c item.messageId item.messageByteCount :: s.history → Grows IsLedger s t :=
      fun t ht => ⟨[.credited c item.messageId item.messageByteCount], ht, by simp [IsLedger]⟩
    dsimp only
    split
    · exact Or.inr ⟨rfl, rfl, rfl, rfl, rfl, hgrows _ rfl⟩
    · rename_i c' _
      exact Or.inl ⟨(s.log (.credited c item.messageId item.messageByteCount)).putContract c', _,
        ⟨rfl, rfl, rfl, rfl, rfl, rfl⟩, hgrows _ rfl, rfl⟩

def IsSelectiveAck : ReceiveEntry → Prop
  | .acked a => a.selective = true
  | _ => False

structure Commits (s s' : ReceiveSequence) : Prop where
  next : s'.nextSequenceNumber = s.nextSequenceNumber
  pool : s'.hold.pool = s.hold.pool
  maxHeld : s'.maxHeldByteCount = s.maxHeldByteCount
  contracts : s'.openReceiveContracts = s.openReceiveContracts
  receiveContract : s'.receiveContract = s.receiveContract
  nextLocalId : s'.nextLocalId = s.nextLocalId
  exit : s'.exit = s.exit
  panicked : s'.panicked = s.panicked
  grows : Grows IsSelectiveAck s s'

lemma Commits.refl (s : ReceiveSequence) : Commits s s :=
  ⟨rfl, rfl, rfl, rfl, rfl, rfl, rfl, rfl, Grows.refl s⟩

lemma Commits.trans (h : Commits s s') (h' : Commits s' s'') : Commits s s'' :=
  ⟨h'.next.trans h.next, h'.pool.trans h.pool, h'.maxHeld.trans h.maxHeld,
    h'.contracts.trans h.contracts, h'.receiveContract.trans h.receiveContract,
    h'.nextLocalId.trans h.nextLocalId, h'.exit.trans h.exit, h'.panicked.trans h.panicked,
    h.grows.trans h'.grows⟩

lemma commitHeldItem_commits (s : ReceiveSequence) (held : ReceiveItem) :
    Commits s (s.commitHeldItem held) :=
  ⟨rfl, rfl, rfl, rfl, rfl, rfl, rfl, rfl, [_], rfl, by simp [IsSelectiveAck]⟩

lemma commitHeldPrefix_commits (s : ReceiveSequence) (cfg : ReceiveBufferSettings) :
    Commits s (s.commitHeldPrefix cfg) := by
  unfold commitHeldPrefix
  generalize heldPrefix _ _ _ _ = items
  induction items generalizing s with
  | nil => exact Commits.refl s
  | cons held items ih =>
    rw [List.foldl_cons]
    refine Commits.trans ?_ (ih _)
    split
    · exact Commits.refl s
    · exact commitHeldItem_commits s held

end UrConnect.Transfer.ReceiveSequence
