import UrConnect.Transfer.ReceiveHeld

/-! What one step of a receive sequence does to its contracts: it may register one contract and
may then pay for one item, and leaves the rest of the books as they were. -/

namespace UrConnect.Transfer.ReceiveSequence

open TransferQueue Pooled

def IsRest : ReceiveEntry → Prop
  | .arrived _ _ _ => True
  | .delivered item _ _ => item.contractId = none
  | .acked _ => True
  | .wrote _ => True
  | _ => False

structure Rests (s s' : ReceiveSequence) : Prop where
  contracts : s'.openReceiveContracts = s.openReceiveContracts
  panicked : s'.panicked = s.panicked
  grows : Grows IsRest s s'

def frameContract (frame : Option ContractFrame) : Option Contract := frame.bind ContractFrame.contract

structure OpensNew (cfg : ReceiveBufferSettings) (frame : Option ContractFrame) (next : SequenceContract)
    (s s' : ReceiveSequence) : Prop where
  carried : ∃ contract, frameContract frame = some contract ∧
    newSequenceContract s.nextLocalId contract cfg.minMessageByteCount wholeFill = .ok next
  absent : s.openContract next.contractId = none
  contracts : ∀ c ∈ s'.openReceiveContracts, c ∈ s.openReceiveContracts ∨ c = next
  panicked : s'.panicked = s.panicked
  history : ∃ evicted : List SequenceContract,
    s'.history = evicted.map .evicted ++ .opened next :: s.history

def Registers (cfg : ReceiveBufferSettings) (frame : Option ContractFrame) (s s' : ReceiveSequence) : Prop :=
  Rests s s' ∨ ∃ next, OpensNew cfg frame next s s'

structure PaysFrom (c c' c'' : SequenceContract) (item : ReceiveItem) (s s' : ReceiveSequence) : Prop where
  mem : c ∈ s.openReceiveContracts
  named : item.contractId = some c.contractId
  debit : ∃ now, c.update now item.messageByteCount = some c'
  credit : c'.ack item.messageByteCount = some c''
  contracts : s'.openReceiveContracts =
    s.openReceiveContracts.map fun d => if d.contractId = c.contractId then c'' else d
  panicked : s'.panicked = s.panicked
  history : ∃ (acks : List SequenceAck) (frames : List Frame) (mode : ProvideMode),
    s'.history = acks.map .acked ++ .delivered item frames mode ::
      .credited c' item.messageId item.messageByteCount ::
      .debited c' item.messageId item.messageByteCount :: s.history

def Pays (s s' : ReceiveSequence) : Prop := ∃ c c' c'' item, PaysFrom c c' c'' item s s'

def Books (cfg : ReceiveBufferSettings) (frame : Option ContractFrame) (s s' : ReceiveSequence) : Prop :=
  ∃ s₁ s₂, Rests s s₁ ∧ Registers cfg frame s₁ s₂ ∧ (Rests s₂ s' ∨ Pays s₂ s')

variable {s s' s'' t : ReceiveSequence} {cfg : ReceiveBufferSettings} {env : ReceiveEnv}
  {item item' : ReceiveItem} {c c' : SequenceContract} {frame : Option ContractFrame} {id : Id}

lemma Rests.refl (s : ReceiveSequence) : Rests s s := ⟨rfl, rfl, Grows.refl s⟩

lemma Rests.trans (h : Rests s s') (h' : Rests s' s'') : Rests s s'' :=
  ⟨h'.contracts.trans h.contracts, h'.panicked.trans h.panicked, h.grows.trans h'.grows⟩

lemma Rests.books (h : Rests s s') : Books cfg frame s s' :=
  ⟨s', s', h, Or.inl (Rests.refl s'), Or.inl (Rests.refl s')⟩

lemma rests_of_eq (hc : s'.openReceiveContracts = s.openReceiveContracts)
    (hp : s'.panicked = s.panicked) (hh : s'.history = s.history) : Rests s s' :=
  ⟨hc, hp, [], hh, by simp⟩

lemma Commits.rests (h : Commits s s') : Rests s s' :=
  ⟨h.contracts, h.panicked, h.grows.mono fun e he => by cases e <;> trivial⟩

lemma openContract_mem (h : s.openContract id = some c) :
    c ∈ s.openReceiveContracts ∧ c.contractId = id :=
  ⟨List.mem_of_find?_eq_some h, by simpa using List.find?_some h⟩

lemma openContract_putContract (h : s.openContract id = some c) (hc : c'.contractId = c.contractId) :
    (s.putContract c').openContract id = some c' := by
  have hid := hc.trans (openContract_mem h).2
  have hsame : (fun d : SequenceContract => decide (d.contractId = id)) ∘
      (fun d => if d.contractId = c'.contractId then c' else d) = fun d => decide (d.contractId = id) := by
    funext d
    by_cases hd : d.contractId = id <;> simp [hd, hid]
  rw [openContract, putContract, List.find?_map, hsame]
  change (s.openContract id).map _ = _
  simp [h, hc]

lemma itemContract_mem (h : s.itemContract item = some c) :
    c ∈ s.openReceiveContracts ∧ s.openContract c.contractId = some c := by
  have key : ∀ id, s.openContract id = some c →
      c ∈ s.openReceiveContracts ∧ s.openContract c.contractId = some c := by
    intro id hid
    obtain ⟨hmem, rfl⟩ := openContract_mem hid
    exact ⟨hmem, hid⟩
  rw [itemContract] at h
  split at h
  · exact key _ h
  · obtain ⟨id, -, hid⟩ := Option.bind_eq_some_iff.mp h
    exact key id hid

lemma setContract_registers {clock : ContractClock} {next : SequenceContract}
    (h : s.setContract cfg clock next = .ok s') :
    Rests s s' ∨ s.openContract next.contractId = none ∧
      s' = s.openNewContract cfg.maxOpenReceiveContract next := by
  rw [setContract] at h
  split at h
  · cases h
  split at h
  · split at h
    · cases h
    · cases h
      exact Or.inl (Rests.refl s)
  split at h
  · split at h
    · cases h
    · cases h
      exact Or.inl (rests_of_eq rfl rfl rfl)
  · rename_i hnone
    cases h
    exact Or.inr ⟨hnone, rfl⟩

lemma openNewContract_mem {limit : ℕ} {next : SequenceContract}
    (h : c ∈ (s.openNewContract limit next).openReceiveContracts) :
    c ∈ s.openReceiveContracts ∨ c = next := by
  have hmem := (List.mem_filter.mp h).1
  simpa only [List.mem_append, List.mem_singleton] using hmem

lemma registerContracts_registers (h : s.registerContracts cfg env item = .ok s') :
    Registers cfg item.contractFrame s s' := by
  rw [registerContracts] at h
  split at h
  · cases h
    exact Or.inl (Rests.refl s)
  rename_i frame hframe
  split at h
  · cases h
  rename_i contract hcontract
  split at h
  · cases h
  split at h
  · cases h
  rename_i next hnext
  split at h
  · cases h
  rcases setContract_registers h with hrests | ⟨hnone, rfl⟩
  · exact Or.inl ⟨hrests.contracts, hrests.panicked, hrests.grows⟩
  · refine Or.inr ⟨next, ⟨contract, ?_, hnext⟩, hnone, fun c hc => openNewContract_mem hc, rfl, _, rfl⟩
    rw [hframe]
    exact hcontract

lemma deliver_books (s : ReceiveSequence) (env : ReceiveEnv) (item : ReceiveItem) (mode : ProvideMode) :
    (s.deliver env item mode).openReceiveContracts = s.openReceiveContracts ∧
      (s.deliver env item mode).panicked = s.panicked ∧
      ∃ acks : List SequenceAck, (s.deliver env item mode).history =
        acks.map .acked ++ .delivered item (appFrames env item) mode :: s.history := by
  rw [deliver]
  split
  · exact ⟨rfl, rfl, [_], rfl⟩
  · exact ⟨rfl, rfl, [], rfl⟩

lemma deliver_rests (s : ReceiveSequence) (env : ReceiveEnv) (mode : ProvideMode)
    (h : item.contractId = none) : Rests s (s.deliver env item mode) := by
  obtain ⟨hc, hp, acks, hh⟩ := deliver_books s env item mode
  refine ⟨hc, hp, acks.map .acked ++ [.delivered item (appFrames env item) mode], by simp [hh], ?_⟩
  intro e he
  simp only [List.mem_append, List.mem_map, List.mem_singleton] at he
  rcases he with ⟨a, -, rfl⟩ | rfl
  · trivial
  · exact h

lemma ack_of_update {now byteCount : ℤ} (h : c.update now byteCount = some c')
    (hc : 0 ≤ c.unackedByteCount) : ∃ c'', c'.ack byteCount = some c'' := by
  obtain ⟨rfl, -, -⟩ := SequenceContract.update_some h
  refine ⟨_, if_neg ?_⟩
  simp only [SequenceContract.effectiveByteCount]
  omega

lemma update_contractId {now byteCount : ℤ} (h : c.update now byteCount = some c') :
    c'.contractId = c.contractId := by
  rw [(SequenceContract.update_some h).1]

lemma ack_contractId {byteCount : ℤ} (h : c.ack byteCount = some c') :
    c'.contractId = c.contractId := by
  rw [(SequenceContract.ack_some h).1]

lemma receiveHead_pays {now : ℤ} (hfind : s.openContract c.contractId = some c)
    (hu : c.update now item.messageByteCount = some c') (hc : 0 ≤ c.unackedByteCount)
    (hname : item.contractId = some c.contractId)
    (hopen : t.openReceiveContracts = (s.putContract c').openReceiveContracts)
    (hpan : t.panicked = s.panicked)
    (hhist : t.history = .debited c' item.messageId item.messageByteCount :: s.history) :
    Pays s (t.receiveHead env item) := by
  obtain ⟨c'', hack⟩ := ack_of_update hu hc
  have hid := update_contractId hu
  have hid' := (ack_contractId hack).trans hid
  have hfind' : t.openContract c.contractId = some c' := by
    rw [openContract, hopen]
    exact openContract_putContract hfind hid
  have hhead : t.receiveHead env item =
      ((t.log (.credited c' item.messageId item.messageByteCount)).putContract c'').deliver env item
        c'.provideMode := by
    rw [receiveHead, hname]
    simp only [Option.bind_some, hfind', hack]
  obtain ⟨hcontracts, hpanicked, acks, hhistory⟩ := deliver_books
    ((t.log (.credited c' item.messageId item.messageByteCount)).putContract c'') env item c'.provideMode
  refine ⟨c, c', c'', item, (openContract_mem hfind).1, hname, ⟨now, hu⟩, hack, ?_, ?_, acks,
    appFrames env item, c'.provideMode, ?_⟩
  · rw [hhead, hcontracts]
    change t.openReceiveContracts.map _ = _
    rw [hopen, putContract, List.map_map, hid, hid']
    congr 1
    funext d
    by_cases hd : d.contractId = c.contractId <;> simp [hd, hid]
  · rw [hhead, hpanicked]
    exact hpan
  · have hlogged : ((t.log (.credited c' item.messageId item.messageByteCount)).putContract c'').history =
      .credited c' item.messageId item.messageByteCount :: t.history := rfl
    rw [hhead, hhistory, hlogged, hhist]

lemma accept_books (hu : s.updateContract env item = some (s', item'))
    (hidle : ∀ c ∈ s.openReceiveContracts, 0 ≤ c.unackedByteCount)
    (hnamed : ∀ id, item.contractId = some id → env.receiveNoContract = true →
      ∃ c, s.openContract id = some c ∧ c.update env.clock.debited item.messageByteCount ≠ none)
    (hopen : t.openReceiveContracts = s'.openReceiveContracts) (hpan : t.panicked = s'.panicked)
    (hhist : t.history = s'.history) :
    Rests s (t.receiveHead env item') ∨ Pays s (t.receiveHead env item') := by
  rcases debitContract_cases hu with ⟨c, c', hc, hupdate, rfl, rfl⟩ | ⟨hno, rfl, rfl, hrefused⟩
  · obtain ⟨hmem, hfind⟩ := itemContract_mem hc
    right
    apply receiveHead_pays hfind
    · exact hupdate
    · exact hidle c hmem
    · rfl
    · exact hopen
    · exact hpan
    · exact hhist
  · left
    cases hid : item'.contractId with
    | none =>
      have hrests : Rests s' t := rests_of_eq hopen hpan hhist
      apply hrests.trans
      rw [receiveHead, hid]
      exact deliver_rests t env .network hid
    | some id =>
      obtain ⟨c, hfind, hupdate⟩ := hnamed id hid hno
      refine absurd (hrefused c ?_) hupdate
      rw [itemContract, hid]
      exact hfind

def Idle (s : ReceiveSequence) : Prop := ∀ c ∈ s.openReceiveContracts, c.unackedByteCount = 0

lemma Rests.idle (h : Rests s s') (hi : Idle s) : Idle s' := by
  rw [Idle, h.contracts]
  exact hi

lemma Registers.idle (h : Registers cfg frame s s') (hi : Idle s) : Idle s' := by
  rcases h with h | ⟨next, h⟩
  · exact h.idle hi
  · intro c hc
    rcases h.contracts c hc with hc | rfl
    · exact hi c hc
    · obtain ⟨contract, -, hnew⟩ := h.carried
      obtain ⟨-, -, -, -, -, -, -, hunacked, -⟩ := newSequenceContract_ok hnew
      exact hunacked

lemma PaysFrom.idle {c'' : SequenceContract} (h : PaysFrom c c' c'' item s s') (hi : Idle s) : Idle s' := by
  obtain ⟨now, hu⟩ := h.debit
  have hzero : c''.unackedByteCount = 0 := by
    rw [(SequenceContract.ack_some h.credit).1, (SequenceContract.update_some hu).1]
    simp [SequenceContract.effectiveByteCount, hi c h.mem]
  intro d hd
  rw [h.contracts] at hd
  obtain ⟨x, hx, rfl⟩ := List.mem_map.mp hd
  split
  · exact hzero
  · exact hi x hx

lemma Books.idle (h : Books cfg frame s s') (hi : Idle s) : Idle s' := by
  obtain ⟨s₁, s₂, h₁, h₂, h₃⟩ := h
  have hi₂ := h₂.idle (h₁.idle hi)
  rcases h₃ with h₃ | ⟨c, c', c'', item, h₃⟩
  · exact h₃.idle hi₂
  · exact h₃.idle hi₂

lemma close_rests (s : ReceiveSequence) (fault : Fault) : Rests s (s.close fault) :=
  rests_of_eq rfl rfl rfl

lemma receiveNext_books (hidle : Idle s) (hplain : item.contractId = none) :
    Books cfg item.contractFrame s (s.receiveNext cfg env item) := by
  have hadvance : Rests s (s.advance cfg) := rests_of_eq rfl rfl rfl
  rw [receiveNext]
  split
  · exact (hadvance.trans (close_rests _ _)).books
  · rename_i registered hreg
    have hregisters := registerContracts_registers hreg
    have hidle' := hregisters.idle (hadvance.idle hidle)
    refine ⟨s.advance cfg, registered, hadvance, hregisters, ?_⟩
    split
    · rename_i updated item' hu
      exact accept_books hu (fun c hc => (hidle' c hc).ge) (by simp [hplain]) rfl rfl rfl
    · exact Or.inl (close_rests _ _)

lemma deliverHeld_books (hidle : Idle s) (hplain : item.contractId = none) :
    Books cfg item.contractFrame s (s.deliverHeld cfg env item) := by
  rw [deliverHeld]
  split
  · exact (close_rests _ _).books
  · rename_i registered hreg
    have hregisters := registerContracts_registers hreg
    have hidle' := hregisters.idle hidle
    refine ⟨s, registered, Rests.refl s, hregisters, ?_⟩
    split
    · rename_i updated item' hu
      exact accept_books hu (fun c hc => (hidle' c hc).ge) (by simp [hplain]) rfl rfl rfl
    · exact Or.inl (close_rests _ _)

/-- A nack names an open contract that refuses its bytes, while the source needs no contract. -/
def refusesNamed (cfg : ReceiveBufferSettings) (s : ReceiveSequence) : Event → Bool
  | .pack env receivePack => receivePack.pack.nack && env.receiveNoContract &&
    match idFromBytes receivePack.pack.messageId, receivePack.pack.contractId.mapM idFromBytes with
    | .ok messageId, .ok (some id) =>
      match s.registerContracts cfg env (newReceiveItem env receivePack messageId (some id)) with
      | .ok registered => (registered.openContract id).any fun c =>
          !c.expired env.clock.checked && (c.update env.clock.debited receivePack.messageByteCount).isNone
      | .error _ => false
    | _, _ => false
  | _ => false

lemma not_expired_of_update (hu : s.updateContract env item = some (s', item'))
    (hc : s.itemContract item = some c) : c.expired env.clock.checked = false := by
  rw [updateContract, hc, debitContract] at hu
  split at hu
  · cases hu
  · rename_i he
    simpa using he

lemma receiveNack_books {receivePack : ReceivePack} (hidle : Idle s) (hn : receivePack.pack.nack = true)
    (hok : refusesNamed cfg s (.pack env receivePack) = false) :
    Books cfg receivePack.pack.contractFrame s (s.receiveNack cfg env receivePack) := by
  rw [receiveNack]
  split
  · exact (close_rests _ _).books
  · exact (close_rests _ _).books
  rename_i messageId contractId hm hid
  split
  · exact (Rests.refl s).books
  dsimp only
  split
  · exact (close_rests _ _).books
  rename_i registered hreg
  have hregisters := registerContracts_registers hreg
  have hidle' := hregisters.idle hidle
  refine ⟨s, registered, Rests.refl s, hregisters, ?_⟩
  split
  · exact Or.inl (Rests.refl registered)
  rename_i hopen
  split
  · rename_i updated item' hu
    refine accept_books hu (fun c hc => (hidle' c hc).ge) ?_ rfl rfl rfl
    rintro id hname hno
    replace hname : contractId = some id := hname
    subst hname
    obtain ⟨c, hc⟩ : ∃ c, registered.openContract id = some c := by
      simpa [Option.isNone_iff_eq_none, ← Option.ne_none_iff_exists'] using hopen
    refine ⟨c, hc, fun hupdate => ?_⟩
    have hchecked := not_expired_of_update hu hc
    simp only [refusesNamed, hm, hid, hreg, hc, hn, hno] at hok
    change c.update _ receivePack.messageByteCount = none at hupdate
    simp [hchecked, hupdate] at hok
  · exact Or.inl (Rests.refl registered)

lemma arrive_rests (s : ReceiveSequence) (item : ReceiveItem) : Rests s (s.arrive item) := by
  have hlog : Rests s (s.log (.arrived item.head item.sequenceNumber s.nextSequenceNumber)) :=
    ⟨rfl, rfl, [_], rfl, by simp [IsRest]⟩
  rw [arrive, advanceToHead]
  split
  · exact hlog.trans (rests_of_eq rfl rfl rfl)
  · exact hlog

lemma ackPast_rests (s : ReceiveSequence) (item : ReceiveItem) : Rests s (s.ackPast item) := by
  rw [ackPast]
  split
  · exact ⟨rfl, rfl, [_], rfl, by simp [IsRest]⟩
  · exact Rests.refl s

lemma holdItem_rests (s : ReceiveSequence) (cfg : ReceiveBufferSettings) (item : ReceiveItem) :
    Rests s (s.holdItem cfg item) := by
  have hadmitted : Rests s (s.admitted cfg item) := rests_of_eq rfl rfl rfl
  rw [holdItem]
  split
  · split
    · exact hadmitted.trans (commitHeldPrefix_commits _ cfg).rests
    · exact hadmitted.trans (commitHeldItem_commits _ item).rests
  · exact rests_of_eq rfl rfl rfl

lemma Rests.andThen (h : Rests s s') (h' : Books cfg frame s' s'') : Books cfg frame s s'' := by
  obtain ⟨s₁, s₂, h₁, h₂⟩ := h'
  exact ⟨s₁, s₂, h.trans h₁, h₂⟩

def handledFrame (s : ReceiveSequence) : Event → Option ContractFrame
  | .pack _ receivePack =>
    if receivePack.pack.nack = true ∨ receivePack.pack.sequenceNumber = s.nextSequenceNumber ∨
        receivePack.pack.head = true ∧ s.nextSequenceNumber < receivePack.pack.sequenceNumber then
      receivePack.pack.contractFrame
    else none
  | .drain _ => s.hold.queue.peekFirst.bind fun item =>
      if item.sequenceNumber = s.nextSequenceNumber then item.contractFrame else none
  | _ => none

lemma arrive_here (h : (s.arrive item).nextSequenceNumber = item.sequenceNumber) :
    item.sequenceNumber = s.nextSequenceNumber ∨
      item.head = true ∧ s.nextSequenceNumber < item.sequenceNumber := by
  rw [arrive, advanceToHead] at h
  split at h
  · exact Or.inr ‹_›
  · exact Or.inl h.symm

lemma receive_books {receivePack : ReceivePack} (hidle : Idle s) :
    Books cfg (handledFrame s (.pack env receivePack)) s (s.receive cfg env receivePack) := by
  rw [receive]
  split
  · exact (close_rests _ _).books
  · rename_i messageId _
    dsimp only
    have hframe : (s.arrive (newReceiveItem env receivePack messageId none)).nextSequenceNumber =
        receivePack.pack.sequenceNumber →
        handledFrame s (.pack env receivePack) =
          (newReceiveItem env receivePack messageId none).contractFrame :=
      fun h => if_pos (Or.inr (arrive_here h))
    have hnum : (newReceiveItem env receivePack messageId none).sequenceNumber =
      receivePack.pack.sequenceNumber := rfl
    have hplain : (newReceiveItem env receivePack messageId none).contractId = none := rfl
    generalize newReceiveItem env receivePack messageId none = item at hframe hnum hplain ⊢
    have hreplaced : Rests s ((s.arrive item).replaceHeld item) :=
      (arrive_rests s item).trans (rests_of_eq rfl rfl rfl)
    split
    · split
      · rename_i heq
        rw [hframe (hnum ▸ heq)]
        exact hreplaced.andThen (receiveNext_books (hreplaced.idle hidle) hplain)
      · exact (hreplaced.trans (ackPast_rests _ item)).books
    · exact (hreplaced.trans (holdItem_rests _ cfg item)).books

lemma drain_books (hidle : Idle s) (hheld : Held s) :
    Books cfg (handledFrame s (.drain env)) s (s.drain cfg env) := by
  rw [drain]
  split
  · exact (Rests.refl s).books
  rename_i item hfirst
  have hremoved : Rests s (s.removeHeld item) := rests_of_eq rfl rfl rfl
  split
  · exact (close_rests _ _).books
  split
  · exact (Rests.refl s).books
  split
  · rename_i heq
    have hframe : handledFrame s (.drain env) = item.contractFrame := by
      simp only [handledFrame, hfirst, Option.bind_some, heq, if_true]
    rw [hframe]
    exact hremoved.andThen (deliverHeld_books (hremoved.idle hidle)
      (hheld.plain item (peekFirst_mem hfirst)).2)
  · exact (hremoved.trans (ackPast_rests _ item)).books

lemma writeAcks_rests (s : ReceiveSequence) : Rests s s.writeAcks := by
  refine ⟨rfl, rfl, _, rfl, fun e he => ?_⟩
  obtain ⟨a, -, rfl⟩ := List.mem_map.mp he
  trivial

lemma step_books {e : Event} (hidle : Idle s) (hheld : Held s) (hok : refusesNamed cfg s e = false) :
    Books cfg (handledFrame s e) s (step cfg s e) := by
  have hsame : Books cfg (handledFrame s e) s s := (Rests.refl s).books
  cases e with
  | writeAcks => exact (writeAcks_rests s).books
  | pool pool => exact (rests_of_eq rfl rfl rfl : Rests s (step cfg s (.pool pool))).books
  | exit =>
    simp only [step]
    split
    · exact hsame
    · exact (close_rests _ _).books
  | pack env receivePack =>
    simp only [step]
    split
    · exact hsame
    split
    · rename_i hn
      have hframe : handledFrame s (.pack env receivePack) = receivePack.pack.contractFrame :=
        if_pos (Or.inl hn)
      rw [hframe]
      exact receiveNack_books hidle hn hok
    · exact receive_books hidle
  | drain env =>
    simp only [step]
    split
    · exact hsame
    · exact drain_books hidle hheld
  | commitHeldPrefix =>
    simp only [step]
    split
    · exact hsame
    · exact (commitHeldPrefix_commits s cfg).rests.books

end UrConnect.Transfer.ReceiveSequence
