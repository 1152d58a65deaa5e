import UrConnect.Contracts.ContractManager

/-! Where every contract is that was added to a queue. -/

namespace UrConnect.Contracts

open Lib.Tally Lib.Runs ContractQueue

namespace ContractManager

variable {κ : Type} [DecidableEq κ] {s : ContractManager κ} {holds rest : List (κ × ℕ)} {k : κ} {q : ℕ}
  {queue : ContractQueue}

def holding (calls : List (Call κ)) : List (κ × ℕ) := calls.map fun c => (c.contractKey, c.queue)

def Balanced (s : ContractManager κ) : Prop :=
  ∀ contractId, s.added.countP (named contractId) =
    s.returned.countP (named contractId) + s.closed.countP (named contractId) + s.present contractId

structure Inv (s : ContractManager κ) (holds : List (κ × ℕ)) : Prop where
  injective : ∀ k k' q, s.destinationContracts.lookup k = some q → s.destinationContracts.lookup k' = some q → k = k'
  numbered : ∀ k q, s.destinationContracts.lookup k = some q → q < s.queueCount
  reached : ∀ k q, (k, q) ∈ holds → s.destinationContracts.lookup k = some q
  counted : ∀ k q, s.destinationContracts.lookup k = some q → (s.queues q).openCount = holds.countP (·.2 = q)
  keyed : ∀ q, (s.queues q).Keyed
  untracked : ∀ q, (s.queues q).trackUsedContracts = false
  balanced : s.Balanced

lemma inv_new : Inv (κ := κ) new [] where
  injective _ _ _ h := by cases h
  numbered _ _ h := by cases h
  reached _ _ h := by cases h
  counted _ _ h := by cases h
  keyed _ _ _ h := by cases h
  untracked _ := rfl
  balanced _ := rfl

lemma Inv.perm (h : Inv s holds) (hp : holds.Perm rest) : Inv s rest where
  injective := h.injective
  numbered := h.numbered
  reached k q hmem := h.reached k q (hp.mem_iff.mpr hmem)
  counted k q hq := by rw [h.counted k q hq, hp.countP_eq]
  keyed := h.keyed
  untracked := h.untracked
  balanced := h.balanced

lemma present_setQueue (queue : ContractQueue) (h : Inv s holds) (hq : s.destinationContracts.lookup k = some q) (contractId : Id) :
    (s.setQueue q queue).present contractId + (s.queues q).held contractId =
      s.present contractId + queue.held contractId := by
  have hself : Function.update s.queues q queue q = queue := Function.update_self ..
  have hoff := total_of_eq_off (f := fun p => (Function.update s.queues q queue p).held contractId)
    (g := fun p => (s.queues p).held contractId) hq ?_
  · rwa [hself] at hoff
  · intro k' p hne hp
    have : p ≠ q := by
      rintro rfl
      exact hne (h.injective _ _ _ hp hq)
    rw [Function.update_of_ne this]

lemma Inv.replace (h : Inv s holds) (hq : s.destinationContracts.lookup k = some q)
    (hreached : ∀ k q, (k, q) ∈ rest → s.destinationContracts.lookup k = some q)
    (hopen : queue.openCount = rest.countP (·.2 = q))
    (hothers : ∀ p ≠ q, rest.countP (·.2 = p) = holds.countP (·.2 = p))
    (hkeyed : queue.Keyed) (htrack : queue.trackUsedContracts = false) {added returned closed : List StoredContract}
    (hbooks : ∀ contractId, added.countP (named contractId) + s.returned.countP (named contractId) +
        s.closed.countP (named contractId) + (s.queues q).held contractId =
      s.added.countP (named contractId) + returned.countP (named contractId) + closed.countP (named contractId) +
        queue.held contractId) :
    Inv { s.setQueue q queue with added := added, returned := returned, closed := closed } rest where
  injective := h.injective
  numbered := h.numbered
  reached := hreached
  counted k' p hp := by
    by_cases hne : p = q
    · subst hne
      exact (congrArg ContractQueue.openCount (Function.update_self ..)).trans hopen
    · rw [hothers p hne, ← h.counted k' p hp]
      exact congrArg ContractQueue.openCount (Function.update_of_ne hne ..)
  keyed := Function.forall_update_iff s.queues (fun _ => ContractQueue.Keyed) |>.mpr ⟨hkeyed, fun p _ => h.keyed p⟩
  untracked := Function.forall_update_iff s.queues (fun _ queue => queue.trackUsedContracts = false) |>.mpr
    ⟨htrack, fun p _ => h.untracked p⟩
  balanced contractId := by
    have hpresent := present_setQueue queue h hq contractId
    have hbalanced := h.balanced contractId
    have := hbooks contractId
    change added.countP (named contractId) = returned.countP (named contractId) + closed.countP (named contractId) +
      (s.setQueue q queue).present contractId
    omega

lemma Inv.drain (h : Inv s holds) (hq : s.destinationContracts.lookup k = some q) (taken : List StoredContract)
    {expired : List StoredContract} (hdrains : (s.queues q).Drains queue (taken ++ expired)) :
    Inv { s.setQueue q queue with returned := s.returned ++ taken, closed := s.closed ++ expired } holds := by
  apply h.replace hq h.reached (hdrains.openCount.trans (h.counted k q hq)) (fun _ _ => rfl) (hdrains.keyed (h.keyed q))
    (hdrains.track.trans (h.untracked q))
  intro contractId
  have := hdrains.conserves contractId
  rw [List.countP_append] at this ⊢
  rw [List.countP_append]
  dsimp only [setQueue]
  omega

lemma Inv.recount (h : Inv s holds) (hq : s.destinationContracts.lookup k = some q)
    (hcontracts : queue.contracts = (s.queues q).contracts)
    (htrack : queue.trackUsedContracts = (s.queues q).trackUsedContracts)
    (hreached : ∀ k q, (k, q) ∈ rest → s.destinationContracts.lookup k = some q)
    (hopen : queue.openCount = rest.countP (·.2 = q))
    (hothers : ∀ p ≠ q, rest.countP (·.2 = p) = holds.countP (·.2 = p)) : Inv (s.setQueue q queue) rest := by
  apply h.replace hq hreached hopen hothers
  · rw [Keyed, hcontracts]
    exact h.keyed q
  · rw [htrack, h.untracked q]
  · intro contractId
    rw [held, held, hcontracts]

lemma Inv.remove (h : Inv s holds) (hq : s.destinationContracts.lookup k = some q)
    (hfree : ∀ p, (k, p) ∉ holds) (hempty : (s.queues q).contracts.entries = []) :
    Inv { s with destinationContracts := s.destinationContracts.erase k } holds := by
  have hlookup : ∀ k' p, (s.destinationContracts.erase k).lookup k' = some p →
      s.destinationContracts.lookup k' = some p := by
    intro k' p hp
    by_cases hne : k' = k
    · subst hne
      rw [AList.lookup_erase] at hp
      cases hp
    · rwa [AList.lookup_erase_ne hne] at hp
  refine ⟨?_, ?_, ?_, ?_, h.keyed, h.untracked, ?_⟩
  · exact fun k₁ k₂ p h₁ h₂ => h.injective k₁ k₂ p (hlookup _ _ h₁) (hlookup _ _ h₂)
  · exact fun k' p hp => h.numbered k' p (hlookup _ _ hp)
  · intro k' p hmem
    have hne : k' ≠ k := by
      rintro rfl
      exact hfree p hmem
    exact (AList.lookup_erase_ne hne).trans (h.reached k' p hmem)
  · exact fun k' p hp => h.counted k' p (hlookup _ _ hp)
  · intro contractId
    have hheld : (s.queues q).held contractId = 0 := by rw [held, listed, hempty]; rfl
    have hpresent := total_erase (f := fun p => (s.queues p).held contractId) hq
    rw [hheld, Nat.zero_add] at hpresent
    change s.added.countP (named contractId) = s.returned.countP (named contractId) +
      s.closed.countP (named contractId) + total _ (s.destinationContracts.erase k)
    rw [hpresent]
    exact h.balanced contractId

lemma Inv.remove_of_isDone (h : Inv s holds) (hq : s.destinationContracts.lookup k = some q)
    (hdone : (s.queues q).isDone) : Inv { s with destinationContracts := s.destinationContracts.erase k } holds := by
  rw [isDone, Bool.and_eq_true, Bool.and_eq_true, decide_eq_true_eq, List.isEmpty_iff] at hdone
  obtain ⟨⟨hopen, hempty⟩, -⟩ := hdone
  refine h.remove hq ?_ hempty
  intro p hmem
  cases (h.reached k p hmem).symm.trans hq
  rw [h.counted k q hq] at hopen
  have : 0 < holds.countP (·.2 = q) := List.countP_pos_iff.mpr ⟨(k, q), hmem, by simp⟩
  omega

lemma Inv.create (h : Inv s holds) (hk : k ∉ s.destinationContracts) :
    Inv { s.setQueue s.queueCount (newContractQueue false).opened with
        destinationContracts := s.destinationContracts.insert k s.queueCount
        queueCount := s.queueCount + 1 } (holds ++ [(k, s.queueCount)]) := by
  have hnew : ∀ k' p, s.destinationContracts.lookup k' = some p → p ≠ s.queueCount :=
    fun k' p hp => (h.numbered k' p hp).ne
  have hlookup : ∀ k' p, (s.destinationContracts.insert k s.queueCount).lookup k' = some p →
      k' = k ∧ p = s.queueCount ∨ s.destinationContracts.lookup k' = some p := by
    intro k' p hp
    by_cases hne : k' = k
    · subst hne
      rw [AList.lookup_insert] at hp
      cases hp
      exact .inl ⟨rfl, rfl⟩
    · rw [AList.lookup_insert_ne hne] at hp
      exact .inr hp
  refine ⟨?_, ?_, ?_, ?_, ?_, ?_, ?_⟩
  · intro k₁ k₂ p h₁ h₂
    rcases hlookup _ _ h₁ with ⟨hk₁, hp₁⟩ | hold₁ <;> rcases hlookup _ _ h₂ with ⟨hk₂, hp₂⟩ | hold₂
    · rw [hk₁, hk₂]
    · exact absurd hp₁ (hnew _ _ hold₂)
    · exact absurd hp₂ (hnew _ _ hold₁)
    · exact h.injective _ _ _ hold₁ hold₂
  · intro k' p hp
    rcases hlookup _ _ hp with ⟨-, rfl⟩ | hp
    · exact Nat.lt_succ_self _
    · exact (h.numbered k' p hp).trans (Nat.lt_succ_self _)
  · intro k' p hmem
    rcases List.mem_append.mp hmem with hmem | hmem
    · have hp := h.reached k' p hmem
      have hne : k' ≠ k := by
        rintro rfl
        rw [AList.lookup_eq_none.mpr hk] at hp
        cases hp
      exact (AList.lookup_insert_ne hne).trans hp
    · cases List.mem_singleton.mp hmem
      exact AList.lookup_insert _
  · intro k' p hp
    rw [List.countP_append, List.countP_singleton]
    rcases hlookup _ _ hp with ⟨-, rfl⟩ | hp
    · have hnone : holds.countP (·.2 = s.queueCount) = 0 := by
        rw [List.countP_eq_zero]
        intro e he
        simpa using hnew _ _ (h.reached e.1 e.2 he)
      rw [hnone, if_pos (by simp)]
      dsimp only [setQueue]
      rw [Function.update_self]
      rfl
    · rw [if_neg (by simpa using (hnew _ _ hp).symm), Nat.add_zero]
      dsimp only [setQueue]
      rw [Function.update_of_ne (hnew _ _ hp)]
      exact h.counted k' p hp
  · exact (Function.forall_update_iff s.queues fun _ => ContractQueue.Keyed).mpr ⟨nofun, fun p _ => h.keyed p⟩
  · exact (Function.forall_update_iff s.queues fun _ queue => queue.trackUsedContracts = false).mpr
      ⟨rfl, fun p _ => h.untracked p⟩
  · intro contractId
    change s.added.countP (named contractId) = s.returned.countP (named contractId) +
      s.closed.countP (named contractId) + total (fun p => (Function.update s.queues s.queueCount _ p).held contractId)
        (s.destinationContracts.insert k s.queueCount)
    rw [h.balanced contractId, total_insert_of_notMem hk, Function.update_self]
    have hsame : total (fun p => (Function.update s.queues s.queueCount (newContractQueue false).opened p).held contractId)
        s.destinationContracts = s.present contractId := by
      apply total_congr
      intro k' p hp
      rw [Function.update_of_ne (hnew k' p hp)]
    rw [hsame]
    exact congrArg _ (Nat.zero_add _).symm

lemma Inv.openContractQueue (h : Inv s holds) (k : κ) :
    Inv (s.openContractQueue k).1 (holds ++ [(k, (s.openContractQueue k).2)]) := by
  rw [ContractManager.openContractQueue]
  split
  · rename_i q hq
    refine h.recount hq rfl rfl ?_ ?_ ?_
    · intro k' p hmem
      rcases List.mem_append.mp hmem with hmem | hmem
      · exact h.reached k' p hmem
      · cases List.mem_singleton.mp hmem
        exact hq
    · rw [opened, h.counted k q hq, List.countP_append, List.countP_singleton, if_pos (by simp)]
      rfl
    · intro p hne
      rw [List.countP_append, List.countP_singleton, if_neg (by simpa using hne.symm), Nat.add_zero]
  · rename_i hnone
    exact h.create (AList.lookup_eq_none.mp hnone)

lemma Inv.body (h : Inv s holds) {call : Call κ} (hmem : (call.contractKey, call.queue) ∈ holds) (env : Env) :
    Inv (s.body call env).1 holds := by
  have hq := h.reached _ _ hmem
  rw [ContractManager.body]
  cases hbody : call.body with
  | takeContract => exact h.drain hq _ ((s.queues call.queue).poll_drains env.minEnqueueTime env.nowMilli env.pick)
  | addContract contract =>
    cases hid : idFromBytes contract.contractId with
    | error e =>
      have hadd : (s.queues call.queue).add env.now contract = .error e := by rw [add, hid]; rfl
      simp only [hadd]
      exact h
    | ok contractId =>
      obtain ⟨queue, hadd, hopen, htrack, hkeyed, hheld⟩ := add_spec env.now (h.keyed _) (h.untracked call.queue) hid
      simp only [hadd, hid]
      apply h.replace hq h.reached (hopen.trans (h.counted _ _ hq)) (fun _ _ => rfl) hkeyed htrack
      intro id
      rw [hheld id]
      split
      · rfl
      · rw [List.countP_append]
        dsimp only [setQueue]
        omega
  | createContract => exact h
  | flushContractQueue reset =>
    have hdrains := (s.queues call.queue).flush_drains reset
    have := h.drain hq [] hdrains
    rwa [List.append_nil] at this
  | removeUsedContract id =>
    exact h.recount hq rfl rfl h.reached (h.counted _ _ hq) fun _ _ => rfl

lemma Inv.close (h : Inv s ((k, q) :: rest)) {forceRemove : Bool}
    (hquiet : forceRemove → (∀ p, (k, p) ∉ rest) ∧ (s.queues q).contracts.entries = []) :
    Inv (s.closeContractQueueWithForceRemove k forceRemove) rest := by
  have hq := h.reached k q List.mem_cons_self
  have hclosed : Inv (s.setQueue q (s.queues q).closed) rest := by
    refine h.recount hq rfl rfl ?_ ?_ ?_
    · exact fun k' p hmem => h.reached k' p (List.mem_cons_of_mem _ hmem)
    · rw [ContractQueue.closed, h.counted k q hq, List.countP_cons, if_pos (by simp)]
      simp
    · intro p hne
      rw [List.countP_cons, if_neg (by simpa using hne.symm), Nat.add_zero]
  rw [closeContractQueueWithForceRemove, hq]
  dsimp only
  split
  · rename_i hremove
    have hself : (s.setQueue q (s.queues q).closed).queues q = (s.queues q).closed := Function.update_self ..
    rw [Bool.or_eq_true] at hremove
    rcases hremove with hdone | hforce
    · apply hclosed.remove_of_isDone hq
      rwa [hself]
    · obtain ⟨hfree, hempty⟩ := hquiet hforce
      apply hclosed.remove hq hfree
      rwa [hself]
  · exact hclosed

lemma Inv.visit (h : Inv s holds) {drain : κ → ContractQueue → ContractQueue × List StoredContract}
    (hdrain : ∀ k queue, Drains queue (drain k queue).1 (drain k queue).2)
    (hq : s.destinationContracts.lookup k = some q) : Inv (s.visit drain ⟨k, q⟩) holds := by
  have hdrained := h.drain hq [] (hdrain k (s.queues q))
  rw [List.append_nil] at hdrained
  rw [ContractManager.visit]
  dsimp only
  split
  · rename_i hdone
    apply hdrained.remove_of_isDone hq
    dsimp only [setQueue]
    rwa [Function.update_self]
  · exact hdrained

lemma lookup_visit {drain : κ → ContractQueue → ContractQueue × List StoredContract} {k' : κ} (hne : k' ≠ k) :
    (s.visit drain ⟨k, q⟩).destinationContracts.lookup k' = s.destinationContracts.lookup k' := by
  rw [ContractManager.visit]
  dsimp only
  split
  · exact AList.lookup_erase_ne hne
  · rfl

lemma Inv.sweepOver {drain : κ → ContractQueue → ContractQueue × List StoredContract}
    (hdrain : ∀ k queue, Drains queue (drain k queue).1 (drain k queue).2) (entries : List ((_ : κ) × ℕ))
    (hnodup : entries.NodupKeys) (h : Inv s holds)
    (hentries : ∀ k q, ⟨k, q⟩ ∈ entries → s.destinationContracts.lookup k = some q) :
    Inv (entries.foldl (fun s e => s.visit drain e) s) holds := by
  induction entries generalizing s with
  | nil => exact h
  | cons e entries ih =>
    obtain ⟨k, q⟩ := e
    obtain ⟨hfirst, hrest⟩ := List.nodupKeys_cons.mp hnodup
    apply ih hrest (h.visit hdrain (hentries k q List.mem_cons_self))
    intro k' p hmem
    have hkey : k' ∈ entries.keys := List.mem_keys_of_mem hmem
    rw [lookup_visit, hentries k' p (List.mem_cons_of_mem _ hmem)]
    rintro rfl
    exact hfirst hkey

lemma Inv.sweep (h : Inv s holds) {drain : κ → ContractQueue → ContractQueue × List StoredContract}
    (hdrain : ∀ k queue, Drains queue (drain k queue).1 (drain k queue).2) : Inv (s.sweep drain) holds :=
  Inv.sweepOver hdrain _ s.destinationContracts.nodupKeys h fun _ _ hmem => AList.mem_lookup_iff.mpr hmem

lemma calls_openContractQueue : (s.openContractQueue k).1.calls = s.calls := by
  rw [ContractManager.openContractQueue]
  split <;> rfl

lemma calls_close {forceRemove : Bool} : (s.closeContractQueueWithForceRemove k forceRemove).calls = s.calls := by
  rw [closeContractQueueWithForceRemove]
  split
  · dsimp only
    split <;> rfl
  · rfl

omit [DecidableEq κ] in
lemma calls_body {call : Call κ} {env : Env} : (s.body call env).1.calls = s.calls := by
  rw [ContractManager.body]
  cases call.body with
  | addContract contract =>
    dsimp only
    split <;> rfl
  | _ => rfl

lemma calls_sweep {drain : κ → ContractQueue → ContractQueue × List StoredContract} : (s.sweep drain).calls = s.calls := by
  rw [ContractManager.sweep]
  induction s.destinationContracts.entries generalizing s with
  | nil => rfl
  | cons e entries ih =>
    rw [List.foldl_cons, ih, ContractManager.visit]
    dsimp only
    split <;> rfl

/-- When the exit-flush of a key leaves, no other call on the key is under way and nothing was queued since. -/
def Quiet (s : ContractManager κ) : Event κ → Prop
  | .leave i => ∀ call ∈ s.calls[i]?, forceRemoves call.body →
      (∀ other ∈ s.calls.eraseIdx i, other.contractKey ≠ call.contractKey) ∧
        ∀ q ∈ s.destinationContracts.lookup call.contractKey, (s.queues q).contracts.entries = []
  | _ => True

instance (s : ContractManager κ) (e : Event κ) : Decidable (s.Quiet e) :=
  match e with
  | .leave i => inferInstanceAs (Decidable (∀ call ∈ s.calls[i]?, forceRemoves call.body →
      (∀ other ∈ s.calls.eraseIdx i, other.contractKey ≠ call.contractKey) ∧
        ∀ q ∈ s.destinationContracts.lookup call.contractKey, (s.queues q).contracts.entries = []))
  | .enter _ _ => inferInstanceAs (Decidable True)
  | .act _ _ => inferInstanceAs (Decidable True)
  | .flush _ => inferInstanceAs (Decidable True)
  | .expire _ _ => inferInstanceAs (Decidable True)

lemma Inv.withCalls (h : Inv s holds) (calls : List (Call κ)) : Inv { s with calls := calls } holds :=
  ⟨h.injective, h.numbered, h.reached, h.counted, h.keyed, h.untracked, h.balanced⟩

omit [DecidableEq κ] in
lemma holding_set {calls : List (Call κ)} {i : ℕ} {call : Call κ} (hcall : calls[i]? = some call) (stage : Stage) :
    holding (calls.set i { call with stage := stage }) = holding calls := by
  obtain ⟨hi, hcall⟩ := List.getElem?_eq_some_iff.mp hcall
  subst hcall
  rw [holding, List.map_set]
  change (calls.map _).set i ((fun c : Call κ => (c.contractKey, c.queue)) calls[i]) = _
  rw [← List.map_set, List.set_getElem_self, holding]

omit [DecidableEq κ] in
lemma holding_eraseIdx {calls : List (Call κ)} {i : ℕ} {call : Call κ} (hcall : calls[i]? = some call) :
    (holding calls).Perm ((call.contractKey, call.queue) :: holding (calls.eraseIdx i)) := by
  obtain ⟨hi, hcall⟩ := List.getElem?_eq_some_iff.mp hcall
  have hperm := (List.getElem_cons_eraseIdx_perm hi).symm.map fun c : Call κ => (c.contractKey, c.queue)
  rwa [hcall] at hperm

lemma Inv.step {e : Event κ} (h : Inv s (holding s.calls)) (hquiet : s.Quiet e) :
    Inv (s.step e) (holding (s.step e).calls) := by
  cases e with
  | enter contractKey body =>
    have hopened := h.openContractQueue contractKey
    have hholding : holding (s.step (.enter contractKey body)).calls =
        holding s.calls ++ [(contractKey, (s.openContractQueue contractKey).2)] := by
      rw [ContractManager.step]
      dsimp only
      rw [calls_openContractQueue, holding, List.map_append]
      rfl
    rw [hholding]
    exact hopened.withCalls _
  | act i env =>
    rw [ContractManager.step]
    split
    · rename_i call hcall
      split
      · exact h
      · dsimp only
        rw [calls_body, holding_set hcall]
        exact (h.body (List.mem_map_of_mem (List.mem_of_getElem? hcall)) env).withCalls _
    · exact h
  | leave i =>
    rw [ContractManager.step]
    split
    · rename_i call hcall
      split
      · exact h
      · dsimp only
        rw [calls_close]
        refine (Inv.close (h.perm (holding_eraseIdx hcall)) ?_).withCalls _
        intro hforce
        obtain ⟨hfree, hempty⟩ := hquiet call hcall hforce
        refine ⟨?_, hempty _ (h.reached _ _ (List.mem_map_of_mem (List.mem_of_getElem? hcall)))⟩
        intro p hmem
        obtain ⟨other, hother, heq⟩ := List.mem_map.mp hmem
        exact hfree other hother (congrArg Prod.fst heq)
    · exact h
  | flush reset =>
    rw [ContractManager.step, ContractManager.flush, calls_sweep]
    exact h.sweep fun _ _ => flush_drains reset
  | expire minEnqueueTime nowMilli =>
    rw [ContractManager.step, expireQueuedContracts, calls_sweep]
    exact h.sweep fun k _ => expireWithLockAt_drains minEnqueueTime (nowMilli k)

def InOnePlace (s : ContractManager κ) (contractId : Id) : Prop :=
  (s.returned.countP (named contractId), s.closed.countP (named contractId), s.present contractId) ∈
    [(1, 0, 0), (0, 1, 0), (0, 0, 1)]

/-- As many contracts with an id were returned, closed or are present as were added, so that one that was added once
is in one place; and the count of a queue is that of the calls that hold it. -/
theorem contracts_conserved (es : List (Event κ)) (h : Meets Quiet step new es) (contractId : Id) (contractKey : κ)
    (q : ℕ) :
    let s := run step new es
    s.added.countP (named contractId) =
        s.returned.countP (named contractId) + s.closed.countP (named contractId) + s.present contractId ∧
      (s.added.countP (named contractId) = 1 → s.InOnePlace contractId) ∧
      (s.destinationContracts.lookup contractKey = some q →
        (s.queues q).openCount = s.calls.countP (·.queue = q)) := by
  have hinv : Inv (run step new es) (holding (run step new es).calls) :=
    meets_invariant (I := fun s => Inv s (holding s.calls)) (fun _ _ => Inv.step) inv_new h
  refine ⟨hinv.balanced contractId, ?_, ?_⟩
  · intro honce
    have hbalanced := hinv.balanced contractId
    rw [honce] at hbalanced
    simp only [InOnePlace, List.mem_cons, Prod.mk.injEq, List.not_mem_nil, or_false]
    omega
  · intro hq
    rw [hinv.counted contractKey q hq, holding, List.countP_map]
    rfl

def sampleContract (b : UInt8) : StoredContract := ⟨(Id.ofByte b).bytes, none⟩

def sampleEnv : Env := ⟨0, 0, none, 0⟩

def orderlyRun : List (Event ℕ) :=
  [.enter 0 (.addContract (sampleContract 1)), .act 0 sampleEnv, .leave 0,
    .enter 0 (.addContract (sampleContract 2)), .act 0 sampleEnv, .leave 0,
    .enter 0 .takeContract, .act 0 sampleEnv, .leave 0,
    .enter 0 (.flushContractQueue true), .act 0 sampleEnv, .leave 0]

theorem contracts_conserved_orderly :
    InOnePlace (run step new orderlyRun) (Id.ofByte 1) :=
  (contracts_conserved orderlyRun (by decide +kernel) (Id.ofByte 1) 0 0).2.1 (by decide +kernel)

def overtakenRun : List (Event ℕ) :=
  [.enter 0 (.addContract (sampleContract 1)), .enter 0 (.flushContractQueue true), .act 1 sampleEnv, .leave 1,
    .act 0 sampleEnv, .leave 0]

def misclosedRun : List (Event ℕ) :=
  [.enter 0 .takeContract, .act 0 sampleEnv, .enter 0 (.flushContractQueue true), .act 1 sampleEnv, .leave 1,
    .enter 0 (.addContract (sampleContract 1)), .act 1 sampleEnv, .leave 0, .leave 0]

theorem overtaken_contract_lost :
    (run step new overtakenRun).added.countP (named (Id.ofByte 1)) = 1 ∧
      (run step new overtakenRun).returned.countP (named (Id.ofByte 1)) = 0 ∧
      (run step new overtakenRun).closed.countP (named (Id.ofByte 1)) = 0 ∧
      (run step new overtakenRun).present (Id.ofByte 1) = 0 ∧
      (run step new misclosedRun).destinationContracts.lookup 0 = some 1 ∧
      ((run step new misclosedRun).queues 1).openCount = -1 ∧ (run step new misclosedRun).calls = [] := by
  decide +kernel

end ContractManager

end UrConnect.Contracts
