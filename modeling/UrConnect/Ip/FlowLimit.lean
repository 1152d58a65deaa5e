import Mathlib.Data.List.Sort
import Mathlib.Data.List.Perm.Subperm
import UrConnect.Lib.Table
import UrConnect.Lib.Runs

/-! The flows of a TCP or UDP buffer, filed by their buffer id and by the source they belong to, and the limit on
the flows of one source. -/

namespace UrConnect.Ip.FlowLimit

open UrConnect.Lib

structure Flow (β : Type) where
  bufferId : β
  lastActivityTime : ℤ
  cancelled : Bool
deriving DecidableEq

/-- A flow is known by its place in `flows`, as by its address. A user limit of zero is none. -/
structure FlowBuffer (β σ : Type) where
  userLimit : ℕ
  flows : List (Flow β)
  sequences : Table β ℕ
  sourceSequences : Table σ (Table β ℕ)

/-- How the values of a map end up when they are sorted by a time: the order of the values and the order among
equal times are not determined. -/
structure Sorting where
  sort : (ℕ → ℤ) → List ℕ → List ℕ
  perm : ∀ time l, (sort time l).Perm l
  sorted : ∀ time l, (sort time l).Pairwise fun a b => time a ≤ time b

namespace FlowBuffer

variable {β σ : Type}

def new (userLimit : ℕ) : FlowBuffer β σ := ⟨userLimit, [], ∅, ∅⟩

def lastActivityTime (b : FlowBuffer β σ) (f : ℕ) : ℤ := (b.flows[f]?.map Flow.lastActivityTime).getD 0

def cancel (b : FlowBuffer β σ) (f : ℕ) : FlowBuffer β σ :=
  { b with flows := b.flows.modify f fun flow => { flow with cancelled := true } }

def updateLastActivityTime (b : FlowBuffer β σ) (f : ℕ) (now : ℤ) : FlowBuffer β σ :=
  { b with flows := b.flows.modify f fun flow => { flow with lastActivityTime := now } }

def applyLruUserLimit (b : FlowBuffer β σ) (sorting : Sorting) (resources : List ℕ) (ulimit : ℕ) : FlowBuffer β σ :=
  ((sorting.sort b.lastActivityTime resources).take (resources.length - ulimit)).foldl cancel b

variable [DecidableEq β] [DecidableEq σ] (source : β → σ)

def sourceEntries (b : FlowBuffer β σ) (s : σ) : Table β ℕ := (b.sourceSequences.lookup s).getD ∅

def owned (b : FlowBuffer β σ) (s : σ) : List ℕ := (b.sourceEntries s).entries.map Sigma.snd

def delete (b : FlowBuffer β σ) (bufferId : β) : FlowBuffer β σ :=
  let rest := (b.sourceEntries (source bufferId)).erase bufferId
  { b with
    sequences := b.sequences.erase bufferId
    sourceSequences :=
      if rest.entries.length = 0 then b.sourceSequences.erase (source bufferId)
      else b.sourceSequences.insert (source bufferId) rest }

def limit (b : FlowBuffer β σ) (sorting : Sorting) (s : σ) : FlowBuffer β σ :=
  if 0 < b.userLimit ∧ b.userLimit < (b.owned s).length then b.applyLruUserLimit sorting (b.owned s) b.userLimit
  else b

def insert (b : FlowBuffer β σ) (bufferId : β) (now : ℤ) : FlowBuffer β σ :=
  { b with
    flows := b.flows ++ [⟨bufferId, now, false⟩]
    sequences := b.sequences.insert bufferId b.flows.length
    sourceSequences := b.sourceSequences.insert (source bufferId)
      ((b.sourceEntries (source bufferId)).insert bufferId b.flows.length) }

def limitThenInsert (b : FlowBuffer β σ) (bufferId : β) (now : ℤ) (sorting : Sorting) : FlowBuffer β σ :=
  (b.limit sorting (source bufferId)).insert source bufferId now

def tcpInitSequence (b : FlowBuffer β σ) (bufferId : β) (syn rst : Bool) (now : ℤ) (sorting : Sorting) :
    FlowBuffer β σ :=
  match b.sequences.lookup bufferId with
  | some f => if rst then (b.cancel f).delete source bufferId else b
  | none => if syn then b.limitThenInsert source bufferId now sorting else b

/-- What `udpSend` does to the flows under its lock; `skip` is the flow that it has found closed. -/
def udpInitSequence (b : FlowBuffer β σ) (bufferId : β) (skip : Option ℕ) (now : ℤ) (sorting : Sorting) :
    FlowBuffer β σ :=
  match b.sequences.lookup bufferId with
  | some f =>
    if skip = some f then ((b.cancel f).delete source bufferId).limitThenInsert source bufferId now sorting else b
  | none => b.limitThenInsert source bufferId now sorting

def exit (b : FlowBuffer β σ) (f : ℕ) : FlowBuffer β σ :=
  match b.flows[f]? with
  | none => b
  | some flow =>
    if b.sequences.lookup flow.bufferId = some f then (b.cancel f).delete source flow.bufferId else b.cancel f

end FlowBuffer

/-- A flow can be cancelled at any time for reasons of its own, and exits at any time. -/
inductive FlowEvent (β : Type)
  | tcpInitSequence (bufferId : β) (syn rst : Bool) (now : ℤ) (sorting : Sorting)
  | udpInitSequence (bufferId : β) (skip : Option ℕ) (now : ℤ) (sorting : Sorting)
  | updateLastActivityTime (f : ℕ) (now : ℤ)
  | cancel (f : ℕ)
  | exit (f : ℕ)

def FlowBuffer.step {β σ : Type} [DecidableEq β] [DecidableEq σ] (source : β → σ) (b : FlowBuffer β σ) :
    FlowEvent β → FlowBuffer β σ
  | .tcpInitSequence bufferId syn rst now sorting => b.tcpInitSequence source bufferId syn rst now sorting
  | .udpInitSequence bufferId skip now sorting => b.udpInitSequence source bufferId skip now sorting
  | .updateLastActivityTime f now => b.updateLastActivityTime f now
  | .cancel f => b.cancel f
  | .exit f => b.exit source f

end UrConnect.Ip.FlowLimit

/-! How many flows of a source can be open at a time, and which of them the limit cancels. -/

namespace UrConnect.Ip.FlowLimit

open UrConnect.Lib

variable {β σ : Type} {source : β → σ}

namespace FlowBuffer

variable {b c : FlowBuffer β σ} {s : σ} {k : β} {f g : ℕ} {now : ℤ} {sorting : Sorting}

def live (b : FlowBuffer β σ) (f : ℕ) : Bool := b.flows[f]?.any fun flow => !flow.cancelled

structure Touches (b c : FlowBuffer β σ) : Prop where
  userLimit : c.userLimit = b.userLimit
  sequences : c.sequences = b.sequences
  sourceSequences : c.sourceSequences = b.sourceSequences
  length : c.flows.length = b.flows.length
  flows : ∀ (f : ℕ) (flow : Flow β), c.flows[f]? = some flow → ∃ old : Flow β, b.flows[f]? = some old ∧
    flow.bufferId = old.bufferId ∧ (flow.cancelled = false → old.cancelled = false)

lemma touches_modify (b : FlowBuffer β σ) (f : ℕ) {change : Flow β → Flow β}
    (hid : ∀ flow, (change flow).bufferId = flow.bufferId)
    (hcancelled : ∀ flow, (change flow).cancelled = false → flow.cancelled = false) :
    Touches b { b with flows := b.flows.modify f change } where
  userLimit := rfl
  sequences := rfl
  sourceSequences := rfl
  length := List.length_modify _ _ _
  flows := by
    intro g flow hflow
    rw [List.getElem?_modify, Option.map_eq_map, Option.map_eq_some_iff] at hflow
    obtain ⟨old, hold, rfl⟩ := hflow
    refine ⟨old, hold, ?_⟩
    split
    · exact ⟨hid old, hcancelled old⟩
    · exact ⟨rfl, fun h => h⟩

lemma touches_cancel (b : FlowBuffer β σ) (f : ℕ) : Touches b (b.cancel f) :=
  touches_modify b f (fun _ => rfl) (fun _ h => Bool.noConfusion h)

lemma Touches.trans {d : FlowBuffer β σ} (h : Touches b c) (h' : Touches c d) : Touches b d where
  userLimit := h'.userLimit.trans h.userLimit
  sequences := h'.sequences.trans h.sequences
  sourceSequences := h'.sourceSequences.trans h.sourceSequences
  length := h'.length.trans h.length
  flows := by
    intro f flow hflow
    obtain ⟨mid, hmid, hid, hlive⟩ := h'.flows f flow hflow
    obtain ⟨old, hold, hid', hlive'⟩ := h.flows f mid hmid
    exact ⟨old, hold, hid.trans hid', fun hc => hlive' (hlive hc)⟩

lemma live_cancel_self (b : FlowBuffer β σ) (f : ℕ) : (b.cancel f).live f = false := by
  rw [FlowBuffer.live, cancel, List.getElem?_modify]
  cases b.flows[f]? with
  | none => rfl
  | some flow => simp

lemma touches_foldl_cancel (fs : List ℕ) (b : FlowBuffer β σ) : Touches b (fs.foldl cancel b) := by
  induction fs generalizing b with
  | nil => exact ⟨rfl, rfl, rfl, rfl, fun f flow hflow => ⟨flow, hflow, rfl, fun h => h⟩⟩
  | cons f fs ih => exact (touches_cancel b f).trans (ih _)

lemma Touches.dead (h : Touches b c) (hf : b.live f = false) : c.live f = false := by
  rw [Bool.eq_false_iff] at hf ⊢
  intro hc
  obtain ⟨flow, hflow, hlive⟩ := (Option.any_eq_true _ _).mp hc
  obtain ⟨old, hold, -, hkeeps⟩ := h.flows f flow hflow
  apply hf
  rw [live, hold, Option.any_some, hkeeps (by simpa using hlive)]
  rfl

lemma foldl_cancel_of_mem {fs : List ℕ} (hf : f ∈ fs) (b : FlowBuffer β σ) : (fs.foldl cancel b).live f = false := by
  induction fs generalizing b with
  | nil => exact absurd hf List.not_mem_nil
  | cons g fs ih =>
    rcases List.mem_cons.mp hf with rfl | hf
    · exact (touches_foldl_cancel fs _).dead (live_cancel_self b f)
    · exact ih hf _

lemma foldl_cancel_of_not_mem {fs : List ℕ} (hf : f ∉ fs) (b : FlowBuffer β σ) :
    (fs.foldl cancel b).flows[f]? = b.flows[f]? := by
  induction fs generalizing b with
  | nil => rfl
  | cons g fs ih =>
    rw [List.mem_cons, not_or] at hf
    rw [List.foldl_cons, ih hf.2, cancel, List.getElem?_modify]
    simp [Ne.symm hf.1]

variable [DecidableEq σ]

def liveFlows (source : β → σ) (b : FlowBuffer β σ) (s : σ) : List ℕ :=
  (List.range b.flows.length).filter fun f =>
    b.flows[f]?.any fun flow => !flow.cancelled && decide (source flow.bufferId = s)

lemma mem_liveFlows : f ∈ liveFlows source b s ↔
    ∃ flow, b.flows[f]? = some flow ∧ flow.cancelled = false ∧ source flow.bufferId = s := by
  rw [liveFlows, List.mem_filter, List.mem_range, Option.any_eq_true]
  constructor
  · rintro ⟨-, flow, hflow, hlive⟩
    rw [Bool.and_eq_true, Bool.not_eq_true', decide_eq_true_eq] at hlive
    exact ⟨flow, hflow, hlive⟩
  · rintro ⟨flow, hflow, hlive, hs⟩
    refine ⟨(List.getElem?_eq_some_iff.mp hflow).1, flow, hflow, ?_⟩
    rw [hlive, decide_eq_true hs]
    rfl

lemma liveFlows_nodup (b : FlowBuffer β σ) (s : σ) : (liveFlows source b s).Nodup := List.nodup_range.filter _

lemma Touches.liveFlows_subset (h : Touches b c) : liveFlows source c s ⊆ liveFlows source b s := by
  intro f hf
  obtain ⟨flow, hflow, hlive, hs⟩ := mem_liveFlows.mp hf
  obtain ⟨old, hold, hid, hold_live⟩ := h.flows f flow hflow
  exact mem_liveFlows.mpr ⟨old, hold, hold_live hlive, by rw [← hid]; exact hs⟩

lemma liveFlows_length_le (h : liveFlows source c s ⊆ liveFlows source b s) :
    (liveFlows source c s).length ≤ (liveFlows source b s).length :=
  (List.subperm_of_subset (liveFlows_nodup c s) h).length_le

def lru (b : FlowBuffer β σ) (sorting : Sorting) (s : σ) : List ℕ := sorting.sort b.lastActivityTime (b.owned s)

def evicted (b : FlowBuffer β σ) (sorting : Sorting) (s : σ) : List ℕ :=
  (b.lru sorting s).take ((b.owned s).length - b.userLimit)

def kept (b : FlowBuffer β σ) (sorting : Sorting) (s : σ) : List ℕ :=
  (b.lru sorting s).drop ((b.owned s).length - b.userLimit)

lemma limit_eq (hlimit : 0 < b.userLimit) (sorting : Sorting) (s : σ) :
    b.limit sorting s = (b.evicted sorting s).foldl cancel b := by
  rw [limit, evicted]
  split
  · rfl
  · next hle =>
    have hzero : (b.owned s).length - b.userLimit = 0 := by omega
    rw [hzero]
    rfl

lemma kept_length_le (b : FlowBuffer β σ) (sorting : Sorting) (s : σ) : (b.kept sorting s).length ≤ b.userLimit := by
  rw [kept, List.length_drop, lru, (sorting.perm _ _).length_eq]
  omega

lemma mem_lru (sorting : Sorting) : f ∈ b.lru sorting s ↔ f ∈ b.owned s := (sorting.perm _ _).mem_iff

lemma mem_liveFlows_evict (hlimit : 0 < b.userLimit) {t : σ} : f ∈ liveFlows source (b.limit sorting s) t ↔
    f ∈ liveFlows source b t ∧ f ∉ b.evicted sorting s := by
  rw [limit_eq hlimit]
  constructor
  · intro hf
    refine ⟨(touches_foldl_cancel _ b).liveFlows_subset hf, ?_⟩
    intro hevicted
    obtain ⟨flow, hflow, hlive, -⟩ := mem_liveFlows.mp hf
    have hdead := foldl_cancel_of_mem hevicted b
    rw [FlowBuffer.live, hflow, Option.any_some, hlive] at hdead
    exact Bool.noConfusion hdead
  · rintro ⟨hf, hnot⟩
    rw [mem_liveFlows, foldl_cancel_of_not_mem hnot]
    exact mem_liveFlows.mp hf

variable [DecidableEq β]

structure Filed (source : β → σ) (b : FlowBuffer β σ) : Prop where
  agree : ∀ k f, (b.sourceEntries (source k)).lookup k = some f ↔ b.sequences.lookup k = some f
  own : ∀ s k f, (b.sourceEntries s).lookup k = some f → source k = s
  known : ∀ k f, b.sequences.lookup k = some f → ∃ flow, b.flows[f]? = some flow ∧ flow.bufferId = k
  live : ∀ f flow, b.flows[f]? = some flow → flow.cancelled = false → b.sequences.lookup flow.bufferId = some f

lemma mem_owned : f ∈ b.owned s ↔ ∃ k, (b.sourceEntries s).lookup k = some f := by
  rw [owned, List.mem_map]
  constructor
  · rintro ⟨⟨k, f⟩, hmem, rfl⟩
    exact ⟨k, AList.mem_lookup_iff.mpr hmem⟩
  · rintro ⟨k, hk⟩
    exact ⟨⟨k, f⟩, AList.mem_lookup_iff.mp hk, rfl⟩

lemma Filed.flow_of_entry (hb : Filed source b) (hk : (b.sourceEntries s).lookup k = some f) :
    ∃ flow, b.flows[f]? = some flow ∧ flow.bufferId = k := by
  have hs := hb.own s k f hk
  rw [← hs] at hk
  exact hb.known k f ((hb.agree k f).mp hk)

lemma Filed.owned_nodup (hb : Filed source b) (s : σ) : (b.owned s).Nodup := by
  apply List.Nodup.map_on _ (b.sourceEntries s).nodupKeys.nodup
  rintro ⟨k, f⟩ hk ⟨k', f'⟩ hk' heq
  obtain rfl : f = f' := heq
  obtain ⟨flow, hflow, rfl⟩ := hb.flow_of_entry (AList.mem_lookup_iff.mpr hk)
  obtain ⟨flow', hflow', rfl⟩ := hb.flow_of_entry (AList.mem_lookup_iff.mpr hk')
  rw [Option.some.inj (hflow.symm.trans hflow')]

lemma Filed.mem_liveFlows_iff (hb : Filed source b) : f ∈ liveFlows source b s ↔ f ∈ b.owned s ∧ b.live f = true := by
  rw [mem_liveFlows, mem_owned, FlowBuffer.live, Option.any_eq_true]
  constructor
  · rintro ⟨flow, hflow, hlive, rfl⟩
    exact ⟨⟨_, (hb.agree _ f).mpr (hb.live f flow hflow hlive)⟩, flow, hflow, by rw [hlive]; rfl⟩
  · rintro ⟨⟨k, hk⟩, flow, hflow, hlive⟩
    obtain ⟨flow', hflow', rfl⟩ := hb.flow_of_entry hk
    obtain rfl : flow = flow' := Option.some.inj (hflow.symm.trans hflow')
    exact ⟨flow, hflow, Bool.not_eq_true' _ ▸ hlive, hb.own s _ f hk⟩

lemma Touches.filed (h : Touches b c) (hb : Filed source b) : Filed source c := by
  have hentries : ∀ s, c.sourceEntries s = b.sourceEntries s := by
    intro s
    rw [sourceEntries, h.sourceSequences, sourceEntries]
  constructor
  · intro k f
    rw [hentries, h.sequences]
    exact hb.agree k f
  · intro s k f hk
    rw [hentries] at hk
    exact hb.own s k f hk
  · intro k f hk
    rw [h.sequences] at hk
    obtain ⟨old, hold, rfl⟩ := hb.known k f hk
    have hlt := (List.getElem?_eq_some_iff.mp hold).1
    have hflow := List.getElem?_eq_getElem (l := c.flows) (i := f) (by rw [h.length]; exact hlt)
    obtain ⟨old', hold', hid, -⟩ := h.flows f _ hflow
    exact ⟨_, hflow, by rw [hid, Option.some.inj (hold.symm.trans hold')]⟩
  · intro f flow hflow hlive
    obtain ⟨old, hold, hid, hold_live⟩ := h.flows f flow hflow
    rw [h.sequences, hid]
    exact hb.live f old hold (hold_live hlive)

lemma lookup_sourceEntries_delete (b : FlowBuffer β σ) (k j : β) (s : σ) :
    ((b.delete source k).sourceEntries s).lookup j =
      if s = source k ∧ j = k then none else (b.sourceEntries s).lookup j := by
  by_cases hs : s = source k
  · subst hs
    have hself : (b.delete source k).sourceEntries (source k) = (b.sourceEntries (source k)).erase k := by
      rw [sourceEntries, delete]
      dsimp only
      split
      · next hzero =>
        rw [AList.lookup_erase]
        apply AList.ext
        exact (List.length_eq_zero_iff.mp hzero).symm
      · rw [AList.lookup_insert]
        rfl
    rw [hself, Table.lookup_erase_eq]
    simp only [true_and]
  · have hother : (b.delete source k).sourceEntries s = b.sourceEntries s := by
      rw [sourceEntries, delete]
      dsimp only
      split
      · rw [AList.lookup_erase_ne hs, sourceEntries]
      · rw [AList.lookup_insert_ne hs, sourceEntries]
    rw [hother, if_neg (fun h => hs h.1)]

lemma Filed.delete (hb : Filed source b) (hk : ∀ f, b.sequences.lookup k = some f → b.live f = false) :
    Filed source (b.delete source k) := by
  constructor
  · intro j f
    rw [lookup_sourceEntries_delete]
    change _ ↔ (b.sequences.erase k).lookup j = some f
    rw [Table.lookup_erase_eq]
    by_cases hj : j = k
    · subst hj
      simp
    · rw [if_neg (fun h => hj h.2), if_neg hj]
      exact hb.agree j f
  · intro s j f hj
    rw [lookup_sourceEntries_delete] at hj
    split at hj
    · exact absurd hj (by simp)
    · exact hb.own s j f hj
  · intro j f hj
    change (b.sequences.erase k).lookup j = some f at hj
    rw [Table.lookup_erase_eq] at hj
    split at hj
    · exact absurd hj (by simp)
    · exact hb.known j f hj
  · intro f flow hflow hlive
    change (b.sequences.erase k).lookup flow.bufferId = some f
    change b.flows[f]? = some flow at hflow
    have hfiled := hb.live f flow hflow hlive
    rw [Table.lookup_erase_eq]
    split
    · next hid =>
      have hdead := hk f (hid ▸ hfiled)
      rw [FlowBuffer.live, hflow, Option.any_some, hlive] at hdead
      exact Bool.noConfusion hdead
    · exact hfiled

lemma Filed.cancel_delete (hb : Filed source b) (hf : b.sequences.lookup k = some f) :
    Filed source ((b.cancel f).delete source k) := by
  apply ((touches_cancel b f).filed hb).delete
  intro g hg
  change b.sequences.lookup k = some g at hg
  obtain rfl : f = g := Option.some.inj (hf.symm.trans hg)
  exact live_cancel_self b f

lemma Filed.lru_nodup (hb : Filed source b) (sorting : Sorting) (s : σ) : (b.lru sorting s).Nodup :=
  (sorting.perm _ _).nodup_iff.mpr (hb.owned_nodup s)

lemma Filed.mem_kept_iff (hb : Filed source b) : f ∈ b.kept sorting s ↔ f ∈ b.owned s ∧ f ∉ b.evicted sorting s := by
  rw [← mem_lru sorting]
  constructor
  · intro hf
    refine ⟨List.mem_of_mem_drop hf, ?_⟩
    intro hevicted
    exact List.disjoint_take_drop (hb.lru_nodup sorting s) le_rfl hevicted hf
  · rintro ⟨hf, hnot⟩
    rw [← List.take_append_drop ((b.owned s).length - b.userLimit) (b.lru sorting s)] at hf
    exact (List.mem_append.mp hf).resolve_left hnot

lemma mem_liveFlows_insert {t : σ} : f ∈ liveFlows source (b.insert source k now) t ↔
    f ∈ liveFlows source b t ∨ (f = b.flows.length ∧ source k = t) := by
  rw [mem_liveFlows, mem_liveFlows]
  change (∃ flow, (b.flows ++ [⟨k, now, false⟩])[f]? = some flow ∧ _) ↔ _
  constructor
  · rintro ⟨flow, hflow, hlive, hs⟩
    rw [List.getElem?_append] at hflow
    split at hflow
    · exact .inl ⟨flow, hflow, hlive, hs⟩
    · next hlt =>
      obtain ⟨hone, rfl⟩ := List.getElem?_eq_some_iff.mp hflow
      rw [List.length_singleton] at hone
      rw [List.getElem_singleton] at hs
      exact .inr ⟨by omega, hs⟩
  · rintro (⟨flow, hflow, hlive, hs⟩ | ⟨rfl, hs⟩)
    · have hlt := (List.getElem?_eq_some_iff.mp hflow).1
      exact ⟨flow, by rw [List.getElem?_append_left hlt]; exact hflow, hlive, hs⟩
    · exact ⟨⟨k, now, false⟩, by simp, rfl, hs⟩

lemma Filed.insert (hb : Filed source b) (hk : b.sequences.lookup k = none) : Filed source (b.insert source k now) := by
  have hentries : ∀ t j, ((b.insert source k now).sourceEntries t).lookup j =
      if t = source k ∧ j = k then some b.flows.length else (b.sourceEntries t).lookup j := by
    intro t j
    by_cases ht : t = source k
    · subst ht
      rw [sourceEntries, FlowBuffer.insert, AList.lookup_insert, Option.getD_some, Table.lookup_insert_eq]
      simp only [true_and]
    · rw [sourceEntries, FlowBuffer.insert, AList.lookup_insert_ne ht, if_neg (fun h => ht h.1), sourceEntries]
  have hsequences : ∀ j, (b.insert source k now).sequences.lookup j =
      if j = k then some b.flows.length else b.sequences.lookup j := fun j => Table.lookup_insert_eq _ _ _ _
  have hflows : (b.insert source k now).flows = b.flows ++ [⟨k, now, false⟩] := rfl
  constructor
  · intro j f
    rw [hentries, hsequences]
    by_cases hj : j = k
    · subst hj
      simp
    · rw [if_neg (fun h => hj h.2), if_neg hj]
      exact hb.agree j f
  · intro t j f hj
    rw [hentries] at hj
    split at hj
    · next h => rw [h.2, h.1]
    · exact hb.own t j f hj
  · intro j f hj
    rw [hsequences] at hj
    rw [hflows]
    split at hj
    · next hjk =>
      obtain rfl := Option.some.inj hj
      exact ⟨⟨k, now, false⟩, by simp, hjk.symm⟩
    · obtain ⟨flow, hflow, hid⟩ := hb.known j f hj
      have hlt := (List.getElem?_eq_some_iff.mp hflow).1
      exact ⟨flow, by rw [List.getElem?_append_left hlt]; exact hflow, hid⟩
  · intro f flow hflow hlive
    rw [hflows, List.getElem?_append] at hflow
    rw [hsequences]
    split at hflow
    · have hfiled := hb.live f flow hflow hlive
      split
      · next hid =>
        rw [hid, hk] at hfiled
        exact absurd hfiled (by simp)
      · exact hfiled
    · next hlt =>
      obtain ⟨hone, rfl⟩ := List.getElem?_eq_some_iff.mp hflow
      rw [List.length_singleton] at hone
      rw [List.getElem_singleton, if_pos rfl]
      congr 1
      omega

lemma Filed.liveFlows_limitThenInsert (hb : Filed source b) (hlimit : 0 < b.userLimit) :
    (liveFlows source (b.limitThenInsert source k now sorting) (source k)).Perm
      (b.flows.length :: (b.kept sorting (source k)).filter b.live) := by
  have hlength : (b.limit sorting (source k)).flows.length = b.flows.length := by
    rw [limit_eq hlimit]
    exact (touches_foldl_cancel _ b).length
  have hnew : b.flows.length ∉ (b.kept sorting (source k)).filter b.live := by
    intro hmem
    have hlive := (List.mem_filter.mp hmem).2
    rw [FlowBuffer.live, List.getElem?_eq_none le_rfl] at hlive
    exact absurd hlive (by simp)
  have hkept : ((b.kept sorting (source k)).filter b.live).Nodup :=
    ((hb.lru_nodup sorting (source k)).sublist (List.drop_sublist _ _)).filter _
  apply (List.perm_ext_iff_of_nodup (liveFlows_nodup _ _) (List.nodup_cons.mpr ⟨hnew, hkept⟩)).mpr
  intro f
  rw [limitThenInsert, mem_liveFlows_insert, mem_liveFlows_evict hlimit, hlength, List.mem_cons, List.mem_filter,
    hb.mem_kept_iff, hb.mem_liveFlows_iff]
  tauto

lemma Filed.limitThenInsert (hb : Filed source b) (hlimit : 0 < b.userLimit) (hk : b.sequences.lookup k = none) :
    Filed source (b.limitThenInsert source k now sorting) := by
  have htouch := touches_foldl_cancel (b.evicted sorting (source k)) b
  rw [← limit_eq hlimit] at htouch
  apply (htouch.filed hb).insert
  rw [htouch.sequences]
  exact hk

lemma liveFlows_limitThenInsert_ne (hlimit : 0 < b.userLimit) {t : σ} (ht : t ≠ source k) :
    liveFlows source (b.limitThenInsert source k now sorting) t ⊆ liveFlows source b t := by
  intro f hf
  rw [FlowBuffer.limitThenInsert, mem_liveFlows_insert, mem_liveFlows_evict hlimit] at hf
  rcases hf with hf | ⟨-, hs⟩
  · exact hf.1
  · exact absurd hs.symm ht

structure Opening (β σ : Type) where
  buffer : FlowBuffer β σ
  bufferId : β
  now : ℤ
  sorting : Sorting

def opening (source : β → σ) (b : FlowBuffer β σ) : FlowEvent β → Option (Opening β σ)
  | .tcpInitSequence k syn _ now sorting =>
    match b.sequences.lookup k with
    | some _ => none
    | none => if syn then some ⟨b, k, now, sorting⟩ else none
  | .udpInitSequence k skip now sorting =>
    match b.sequences.lookup k with
    | some f => if skip = some f then some ⟨(b.cancel f).delete source k, k, now, sorting⟩ else none
    | none => some ⟨b, k, now, sorting⟩
  | _ => none

lemma Filed.step_cases (hb : Filed source b) (e : FlowEvent β) :
    (b.opening source e = none ∧ Filed source (b.step source e) ∧ (b.step source e).userLimit = b.userLimit ∧
      ∀ s, liveFlows source (b.step source e) s ⊆ liveFlows source b s) ∨
    ∃ o, b.opening source e = some o ∧
      b.step source e = o.buffer.limitThenInsert source o.bufferId o.now o.sorting ∧ Filed source o.buffer ∧
      o.buffer.sequences.lookup o.bufferId = none ∧ o.buffer.userLimit = b.userLimit ∧
      ∀ s, liveFlows source o.buffer s ⊆ liveFlows source b s := by
  have hsame : Filed source b ∧ b.userLimit = b.userLimit ∧ ∀ s, liveFlows source b s ⊆ liveFlows source b s :=
    ⟨hb, rfl, fun s => List.Subset.refl _⟩
  cases e with
  | tcpInitSequence k syn rst now sorting =>
    simp only [opening, FlowBuffer.step, tcpInitSequence]
    cases hk : b.sequences.lookup k with
    | some f =>
      refine .inl ⟨rfl, ?_⟩
      cases rst with
      | true => exact ⟨hb.cancel_delete hk, rfl, fun s => (touches_cancel b f).liveFlows_subset⟩
      | false => exact hsame
    | none =>
      cases syn with
      | true => exact .inr ⟨⟨b, k, now, sorting⟩, rfl, rfl, hb, hk, rfl, fun s => List.Subset.refl _⟩
      | false => exact .inl ⟨rfl, hsame⟩
  | udpInitSequence k skip now sorting =>
    simp only [opening, FlowBuffer.step, udpInitSequence]
    cases hk : b.sequences.lookup k with
    | some f =>
      by_cases hskip : skip = some f
      · simp only [if_pos hskip]
        refine .inr ⟨_, rfl, rfl, hb.cancel_delete hk, ?_, rfl, fun s => (touches_cancel b f).liveFlows_subset⟩
        exact AList.lookup_erase _ _
      · simp only [if_neg hskip]
        exact .inl ⟨trivial, hb, trivial, hsame.2.2⟩
    | none => exact .inr ⟨⟨b, k, now, sorting⟩, rfl, rfl, hb, hk, rfl, fun s => List.Subset.refl _⟩
  | updateLastActivityTime f now =>
    have htouch : Touches b (b.updateLastActivityTime f now) := touches_modify b f (fun _ => rfl) (fun _ h => h)
    exact .inl ⟨rfl, htouch.filed hb, htouch.userLimit, fun s => htouch.liveFlows_subset⟩
  | cancel f =>
    have htouch := touches_cancel b f
    exact .inl ⟨rfl, htouch.filed hb, htouch.userLimit, fun s => htouch.liveFlows_subset⟩
  | exit f =>
    have htouch := touches_cancel b f
    refine .inl ⟨rfl, ?_⟩
    simp only [FlowBuffer.step, FlowBuffer.exit]
    cases b.flows[f]? with
    | none => exact hsame
    | some flow =>
      dsimp only
      split
      · next hfiled => exact ⟨hb.cancel_delete hfiled, rfl, fun s => htouch.liveFlows_subset⟩
      · exact ⟨htouch.filed hb, rfl, fun s => htouch.liveFlows_subset⟩

def Room (source : β → σ) (b : FlowBuffer β σ) (e : FlowEvent β) : Prop :=
  ∀ o, b.opening source e = some o →
    (o.buffer.kept o.sorting (source o.bufferId)).countP o.buffer.live < b.userLimit

lemma Filed.length_limitThenInsert (hb : Filed source b) (hlimit : 0 < b.userLimit) :
    (liveFlows source (b.limitThenInsert source k now sorting) (source k)).length =
      (b.kept sorting (source k)).countP b.live + 1 := by
  rw [(hb.liveFlows_limitThenInsert hlimit).length_eq, List.length_cons, List.countP_eq_length_filter]

structure Bounded (source : β → σ) (limit bound : ℕ) (b : FlowBuffer β σ) : Prop where
  filed : Filed source b
  userLimit : b.userLimit = limit
  count : ∀ s, (liveFlows source b s).length ≤ bound

variable {limit bound : ℕ}

lemma bounded_new (source : β → σ) (limit bound : ℕ) : Bounded source limit bound (new limit) where
  filed := by
    constructor
    · intro k f
      simp [sourceEntries, new]
    · intro s k f hk
      simp [sourceEntries, new] at hk
    · intro k f hk
      simp [new] at hk
    · intro f flow hflow
      simp [new] at hflow
  userLimit := rfl
  count := by
    intro s
    exact Nat.zero_le _

lemma Bounded.step (hb : Bounded source limit bound b) (hlimit : 0 < limit) {e : FlowEvent β}
    (hroom : ∀ o, b.opening source e = some o →
      (o.buffer.kept o.sorting (source o.bufferId)).countP o.buffer.live < bound) :
    Bounded source limit bound (b.step source e) := by
  rcases hb.filed.step_cases e with ⟨-, hfiled, huser, hsub⟩ | ⟨o, ho, hstep, hfiled, hlookup, huser, hsub⟩
  · exact ⟨hfiled, huser.trans hb.userLimit, fun s => (liveFlows_length_le (hsub s)).trans (hb.count s)⟩
  · have hpos : 0 < o.buffer.userLimit := by rw [huser, hb.userLimit]; exact hlimit
    rw [hstep]
    refine ⟨hfiled.limitThenInsert hpos hlookup, ?_, ?_⟩
    · rw [FlowBuffer.limitThenInsert]
      change (o.buffer.limit o.sorting (source o.bufferId)).userLimit = limit
      rw [limit_eq hpos, (touches_foldl_cancel _ _).userLimit, huser, hb.userLimit]
    · intro s
      by_cases hs : s = source o.bufferId
      · subst hs
        rw [hfiled.length_limitThenInsert hpos]
        exact hroom o ho
      · exact ((liveFlows_length_le (liveFlows_limitThenInsert_ne hpos hs)).trans
          (liveFlows_length_le (hsub s))).trans (hb.count s)

lemma Bounded.step_succ (hb : Bounded source limit (limit + 1) b) (hlimit : 0 < limit) (e : FlowEvent β) :
    Bounded source limit (limit + 1) (b.step source e) := by
  apply hb.step hlimit
  intro o ho
  rcases hb.filed.step_cases e with ⟨hnone, -⟩ | ⟨o', ho', -, -, -, huser, -⟩
  · rw [hnone] at ho
    exact absurd ho (by simp)
  · obtain rfl : o = o' := Option.some.inj (ho.symm.trans ho')
    have hle := List.countP_le_length (p := o.buffer.live) (l := o.buffer.kept o.sorting (source o.bufferId))
    have hkept := kept_length_le o.buffer o.sorting (source o.bufferId)
    rw [huser, hb.userLimit] at hkept
    omega

lemma Filed.evicts_oldest (hb : Filed source b) (hlimit : 0 < b.userLimit)
    (hf : f ∈ liveFlows source b (source k))
    (hcancelled : f ∉ liveFlows source (b.limitThenInsert source k now sorting) (source k))
    (hg : g ∈ liveFlows source b (source k))
    (hkept : g ∈ liveFlows source (b.limitThenInsert source k now sorting) (source k)) :
    b.lastActivityTime f ≤ b.lastActivityTime g := by
  rw [FlowBuffer.limitThenInsert, mem_liveFlows_insert, mem_liveFlows_evict hlimit, not_or, not_and, not_not]
    at hcancelled
  have hevicted := hcancelled.1 hf
  have hg' : g ∈ b.kept sorting (source k) := by
    rw [(hb.liveFlows_limitThenInsert hlimit).mem_iff, List.mem_cons] at hkept
    rcases hkept with rfl | hkept
    · obtain ⟨flow, hflow, -⟩ := mem_liveFlows.mp hg
      rw [List.getElem?_eq_none le_rfl] at hflow
      exact absurd hflow (by simp)
    · exact (List.mem_filter.mp hkept).1
  have hsorted := sorting.sorted b.lastActivityTime (b.owned (source k))
  rw [← List.take_append_drop ((b.owned (source k)).length - b.userLimit) (sorting.sort _ _)] at hsorted
  exact (List.pairwise_append.mp hsorted).2.2 f hevicted g hg'

theorem user_limit_holds (source : β → σ) (limit : ℕ) (hlimit : 0 < limit) (es : List (FlowEvent β)) :
    (Runs.Meets (Room source) (step source) (new limit) es →
      ∀ s, (liveFlows source (Runs.run (step source) (new limit) es) s).length ≤ limit) ∧
    (∀ s, (liveFlows source (Runs.run (step source) (new limit) es) s).length ≤ limit + 1) ∧
    ∀ e o, (Runs.run (step source) (new limit) es).opening source e = some o →
      let after := (Runs.run (step source) (new limit) es).step source e
      ∀ f ∈ liveFlows source o.buffer (source o.bufferId), f ∉ liveFlows source after (source o.bufferId) →
        ∀ g ∈ liveFlows source o.buffer (source o.bufferId), g ∈ liveFlows source after (source o.bufferId) →
          o.buffer.lastActivityTime f ≤ o.buffer.lastActivityTime g := by
  have hb : Bounded source limit (limit + 1) (Runs.run (step source) (new limit) es) :=
    Runs.run_invariant (fun b e hb => hb.step_succ hlimit e) (bounded_new source limit (limit + 1)) es
  refine ⟨?_, hb.count, ?_⟩
  · intro hroom
    have hexact : Bounded source limit limit (Runs.run (step source) (new limit) es) := by
      apply Runs.meets_invariant _ (bounded_new source limit limit) hroom
      intro b e hb hroom
      apply hb.step hlimit
      intro o ho
      rw [← hb.userLimit]
      exact hroom o ho
    exact hexact.count
  · intro e o ho
    dsimp only
    rcases hb.filed.step_cases e with ⟨hnone, -⟩ | ⟨o', ho', hstep, hfiled, -, huser, -⟩
    · rw [hnone] at ho
      exact absurd ho (by simp)
    · obtain rfl : o = o' := Option.some.inj (ho.symm.trans ho')
      have hpos : 0 < o.buffer.userLimit := by rw [huser, hb.userLimit]; exact hlimit
      rw [hstep]
      intro f hf hcancelled g hg hkept
      exact hfiled.evicts_oldest hpos hf hcancelled hg hkept

def insertionSorting : Sorting where
  sort time l := l.insertionSort fun a b => time a ≤ time b
  perm time l := List.perm_insertionSort _ l
  sorted time l := by
    have : Std.Total fun a b => time a ≤ time b := ⟨fun a b => le_total _ _⟩
    have : IsTrans ℕ fun a b => time a ≤ time b := ⟨fun a b c => le_trans⟩
    exact List.pairwise_insertionSort _ l

def connects (ports : List ℕ) : List (FlowEvent ℕ) :=
  ports.map fun port => .tcpInitSequence port true false port insertionSorting

def oneClient : ℕ → Unit := fun _ => ()

instance (source : β → σ) (b : FlowBuffer β σ) (e : FlowEvent β) : Decidable (Room source b e) :=
  match h : b.opening source e with
  | none => isTrue fun o ho => by rw [h] at ho; exact absurd ho (by simp)
  | some o =>
    decidable_of_iff ((o.buffer.kept o.sorting (source o.bufferId)).countP o.buffer.live < b.userLimit)
      ⟨fun hroom o' ho' => by rw [h] at ho'; exact Option.some.inj ho' ▸ hroom, fun hroom => hroom o h⟩

theorem user_limit_holds_two : (liveFlows oneClient
    (Runs.run (step oneClient) (new 2) (connects [1, 2] ++ [.cancel 0] ++ connects [3])) ()).length ≤ 2 := by
  apply (user_limit_holds oneClient 2 (by decide) _).1
  decide +kernel

theorem user_limit_exceeded :
    liveFlows oneClient (Runs.run (step oneClient) (new 1) (connects [1, 2])) () = [0, 1] := by
  decide +kernel

end FlowBuffer

end UrConnect.Ip.FlowLimit
