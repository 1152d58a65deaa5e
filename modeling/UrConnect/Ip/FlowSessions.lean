import Mathlib
import UrConnect.Ip.FlowLimit

/-! The sources that the flows of a buffer belong to, as they are counted in the clients of a proxy and reported to
its sessions. -/

namespace UrConnect.Ip.FlowLimit

open UrConnect.Lib

variable {β σ ι : Type}

inductive SessionCall (σ : Type)
  | addSession (source : σ)
  | removeSession (source : σ)

structure SessionBuffer (β σ : Type) where
  buffer : FlowBuffer β σ
  clients : ℤ
  calls : List (SessionCall σ)

inductive SessionEvent (β ι : Type)
  | flow (event : FlowEvent β)
  | cancelSource (sourceId : ι)

namespace SessionBuffer

def new (userLimit : ℕ) : SessionBuffer β σ := ⟨.new userLimit, 0, []⟩

def cancel (m : SessionBuffer β σ) (f : ℕ) : SessionBuffer β σ := { m with buffer := m.buffer.cancel f }

variable [DecidableEq β] [DecidableEq σ] [DecidableEq ι] (source : β → σ) (sourceId : σ → ι)

def delete (m : SessionBuffer β σ) (bufferId : β) : SessionBuffer β σ :=
  let deleted := { m with buffer := m.buffer.delete source bufferId }
  if ((m.buffer.sourceEntries (source bufferId)).erase bufferId).entries.length = 0 then
    { deleted with clients := m.clients - 1, calls := m.calls ++ [SessionCall.removeSession (source bufferId)] }
  else deleted

def limitThenInsert (m : SessionBuffer β σ) (bufferId : β) (now : ℤ) (sorting : Sorting) : SessionBuffer β σ :=
  let inserted := { m with buffer := m.buffer.limitThenInsert source bufferId now sorting }
  match m.buffer.sourceSequences.lookup (source bufferId) with
  | some _ => inserted
  | none => { inserted with clients := m.clients + 1, calls := m.calls ++ [SessionCall.addSession (source bufferId)] }

def tcpInitSequence (m : SessionBuffer β σ) (bufferId : β) (syn rst : Bool) (now : ℤ) (sorting : Sorting) :
    SessionBuffer β σ :=
  match m.buffer.sequences.lookup bufferId with
  | some f => if rst then (m.cancel f).delete source bufferId else m
  | none => if syn then m.limitThenInsert source bufferId now sorting else m

def udpInitSequence (m : SessionBuffer β σ) (bufferId : β) (skip : Option ℕ) (now : ℤ) (sorting : Sorting) :
    SessionBuffer β σ :=
  match m.buffer.sequences.lookup bufferId with
  | some f =>
    if skip = some f then ((m.cancel f).delete source bufferId).limitThenInsert source bufferId now sorting else m
  | none => m.limitThenInsert source bufferId now sorting

def exit (m : SessionBuffer β σ) (f : ℕ) : SessionBuffer β σ :=
  match m.buffer.flows[f]? with
  | none => m
  | some flow =>
    if m.buffer.sequences.lookup flow.bufferId = some f then (m.cancel f).delete source flow.bufferId
    else m.cancel f

/-- Cancels the flows of the sources of one client. The flows stay filed until they exit. -/
def cancelSource (m : SessionBuffer β σ) (id : ι) : SessionBuffer β σ :=
  ((m.buffer.sourceSequences.keys.filter fun s => decide (sourceId s = id)).flatMap m.buffer.owned).foldl cancel m

def step (m : SessionBuffer β σ) : SessionEvent β ι → SessionBuffer β σ
  | .flow (.tcpInitSequence bufferId syn rst now sorting) => m.tcpInitSequence source bufferId syn rst now sorting
  | .flow (.udpInitSequence bufferId skip now sorting) => m.udpInitSequence source bufferId skip now sorting
  | .flow (.updateLastActivityTime f now) => { m with buffer := m.buffer.updateLastActivityTime f now }
  | .flow (.cancel f) => m.cancel f
  | .flow (.exit f) => m.exit source f
  | .cancelSource id => m.cancelSource sourceId id

def callsOf (m : SessionBuffer β σ) (s : σ) : List Bool :=
  m.calls.filterMap fun
    | .addSession t => if t = s then some true else none
    | .removeSession t => if t = s then some false else none

def Alternates (calls : List Bool) : Prop := (false :: calls).IsChain (· ≠ ·)

structure Counted (source : β → σ) (m : SessionBuffer β σ) : Prop where
  filed : FlowBuffer.Filed source m.buffer
  inhabited : ∀ s entries, m.buffer.sourceSequences.lookup s = some entries → entries.entries.length ≠ 0
  clients : m.clients = m.buffer.sourceSequences.keys.length
  alternates : ∀ s, Alternates (m.callsOf s)
  last : ∀ s, (false :: m.callsOf s).getLast? = some (m.buffer.sourceSequences.lookup s).isSome

variable {source : β → σ} {sourceId : σ → ι} {m : SessionBuffer β σ} {k : β} {f g : ℕ} {now : ℤ} {sorting : Sorting}

lemma counted_new (userLimit : ℕ) : Counted source (new userLimit) where
  filed := (FlowBuffer.bounded_new source userLimit 0).filed
  inhabited := by
    intro s entries h
    exact absurd h (by simp [new, FlowBuffer.new])
  clients := rfl
  alternates := fun _ => List.isChain_singleton _
  last := fun _ => rfl

lemma Counted.touches (h : Counted source m) {c : FlowBuffer β σ} (hc : FlowBuffer.Touches m.buffer c) :
    Counted source { m with buffer := c } := by
  refine ⟨hc.filed h.filed, ?_, ?_, h.alternates, ?_⟩
  · rw [hc.sourceSequences]
    exact h.inhabited
  · rw [hc.sourceSequences]
    exact h.clients
  · rw [hc.sourceSequences]
    exact h.last

lemma Counted.turn (h : Counted source m) (s : σ) (up : Bool) {c : FlowBuffer β σ} {call : SessionCall σ} {change : ℤ}
    (hcall : call = if up then .addSession s else .removeSession s) (hfiled : FlowBuffer.Filed source c)
    (hinhabited : ∀ t entries, c.sourceSequences.lookup t = some entries → entries.entries.length ≠ 0)
    (hclients : m.clients + change = c.sourceSequences.keys.length)
    (hother : ∀ t, t ≠ s → c.sourceSequences.lookup t = m.buffer.sourceSequences.lookup t)
    (hbefore : (m.buffer.sourceSequences.lookup s).isSome = !up) (hafter : (c.sourceSequences.lookup s).isSome = up) :
    Counted source ⟨c, m.clients + change, m.calls ++ [call]⟩ := by
  have hcalls : ∀ t, callsOf ⟨c, m.clients + change, m.calls ++ [call]⟩ t =
      m.callsOf t ++ if t = s then [up] else [] := by
    intro t
    rw [callsOf, List.filterMap_append, callsOf, hcall]
    by_cases ht : t = s
    · cases up <;> simp [ht]
    · cases up <;> simp [ht, Ne.symm ht]
  refine ⟨hfiled, hinhabited, hclients, fun t => ?_, fun t => ?_⟩
  · rw [Alternates, hcalls]
    by_cases ht : t = s
    · subst ht
      rw [if_pos rfl, ← List.cons_append]
      apply List.isChain_append.mpr
      refine ⟨h.alternates t, List.isChain_singleton _, ?_⟩
      intro x hx y hy
      have hlast := h.last t
      rw [Option.mem_def] at hx
      rw [hx, hbefore, Option.some.injEq] at hlast
      rw [List.head?_cons, Option.mem_def, Option.some.injEq] at hy
      rw [hlast, ← hy]
      exact Bool.not_ne_self up
    · rw [if_neg ht, List.append_nil]
      exact h.alternates t
  · rw [hcalls]
    by_cases ht : t = s
    · subst ht
      rw [if_pos rfl, ← List.cons_append, List.getLast?_append_of_ne_nil _ (List.cons_ne_nil _ _),
        List.getLast?_singleton, hafter]
    · rw [if_neg ht, List.append_nil, hother t ht]
      exact h.last t

lemma lookup_group {b : FlowBuffer β σ} (hb : FlowBuffer.Filed source b) (hk : b.sequences.lookup k = some f) :
    b.sourceSequences.lookup (source k) = some (b.sourceEntries (source k)) := by
  have hentry := (hb.agree k f).mpr hk
  rw [FlowBuffer.sourceEntries] at hentry ⊢
  cases hgroup : b.sourceSequences.lookup (source k) with
  | none => simp [hgroup] at hentry
  | some entries => rfl

lemma Counted.delete (h : Counted source m) (hk : m.buffer.sequences.lookup k = some f)
    (hdead : m.buffer.live f = false) : Counted source (m.delete source k) := by
  have hfiled : FlowBuffer.Filed source (m.buffer.delete source k) := by
    apply h.filed.delete
    intro g hg
    rw [hk, Option.some.injEq] at hg
    rw [← hg]
    exact hdead
  have hgroup := lookup_group h.filed hk
  have hmem : source k ∈ m.buffer.sourceSequences.keys := Table.mem_keys_iff.mpr ⟨_, hgroup⟩
  rw [SessionBuffer.delete]
  split
  · next hempty =>
    have hgroups : (m.buffer.delete source k).sourceSequences = m.buffer.sourceSequences.erase (source k) :=
      if_pos hempty
    apply h.turn (source k) false rfl hfiled
    · intro t entries ht
      rw [hgroups, Table.lookup_erase_eq] at ht
      split at ht
      · exact absurd ht (by simp)
      · exact h.inhabited t entries ht
    · have hpos := List.length_pos_of_mem hmem
      rw [hgroups, AList.keys_erase, List.length_erase_of_mem hmem, h.clients]
      omega
    · intro t ht
      rw [hgroups, AList.lookup_erase_ne ht]
    · rw [hgroup]
      rfl
    · rw [hgroups, AList.lookup_erase]
      rfl
  · next hrest =>
    have hgroups : (m.buffer.delete source k).sourceSequences = m.buffer.sourceSequences.insert (source k)
        ((m.buffer.sourceEntries (source k)).erase k) := if_neg hrest
    refine ⟨hfiled, ?_, ?_, h.alternates, ?_⟩
    · intro t entries ht
      rw [hgroups, Table.lookup_insert_eq] at ht
      split at ht
      · rw [← Option.some.inj ht]
        exact hrest
      · exact h.inhabited t entries ht
    · have hpos := List.length_pos_of_mem hmem
      rw [hgroups, AList.keys_insert, List.length_cons, List.length_erase_of_mem hmem, h.clients]
      omega
    · intro t
      rw [hgroups, Table.lookup_insert_eq]
      by_cases ht : t = source k
      · have hlast := h.last t
        rw [ht, hgroup] at hlast
        rw [if_pos ht, ht]
        exact hlast
      · rw [if_neg ht]
        exact h.last t

omit [DecidableEq β] in
lemma touches_limit (b : FlowBuffer β σ) (sorting : Sorting) (s : σ) : FlowBuffer.Touches b (b.limit sorting s) := by
  rw [FlowBuffer.limit]
  split
  · exact FlowBuffer.touches_foldl_cancel _ b
  · exact FlowBuffer.touches_foldl_cancel [] b

lemma Counted.limitThenInsert (h : Counted source m) (hk : m.buffer.sequences.lookup k = none) :
    Counted source (m.limitThenInsert source k now sorting) := by
  have htouch := touches_limit m.buffer sorting (source k)
  have hfiled : FlowBuffer.Filed source (m.buffer.limitThenInsert source k now sorting) := by
    apply (htouch.filed h.filed).insert
    rw [htouch.sequences]
    exact hk
  obtain ⟨entries, hne, hgroups⟩ : ∃ entries : Table β ℕ, entries.entries.length ≠ 0 ∧
      (m.buffer.limitThenInsert source k now sorting).sourceSequences =
        m.buffer.sourceSequences.insert (source k) entries := by
    refine ⟨((m.buffer.limit sorting (source k)).sourceEntries (source k)).insert k
      (m.buffer.limit sorting (source k)).flows.length, ?_, ?_⟩
    · rw [AList.entries_insert, List.length_cons]
      exact Nat.succ_ne_zero _
    · rw [← htouch.sourceSequences]
      rfl
  have hinhabited : ∀ t group, (m.buffer.limitThenInsert source k now sorting).sourceSequences.lookup t = some group →
      group.entries.length ≠ 0 := by
    intro t group ht
    rw [hgroups, Table.lookup_insert_eq] at ht
    split at ht
    · rw [← Option.some.inj ht]
      exact hne
    · exact h.inhabited t group ht
  rw [SessionBuffer.limitThenInsert]
  cases hgroup : m.buffer.sourceSequences.lookup (source k) with
  | some group =>
    have hmem : source k ∈ m.buffer.sourceSequences.keys := Table.mem_keys_iff.mpr ⟨_, hgroup⟩
    refine ⟨hfiled, hinhabited, ?_, h.alternates, ?_⟩
    · have hpos := List.length_pos_of_mem hmem
      rw [hgroups, AList.keys_insert, List.length_cons, List.length_erase_of_mem hmem, h.clients]
      omega
    · intro t
      dsimp only
      rw [hgroups, Table.lookup_insert_eq]
      by_cases ht : t = source k
      · have hlast := h.last t
        rw [ht, hgroup] at hlast
        rw [if_pos ht, ht]
        exact hlast
      · rw [if_neg ht]
        exact h.last t
  | none =>
    have hmem : source k ∉ m.buffer.sourceSequences.keys := fun hmem => by
      obtain ⟨group, hgroup'⟩ := Table.mem_keys_iff.mp hmem
      rw [hgroup] at hgroup'
      exact absurd hgroup' (by simp)
    apply h.turn (source k) true rfl hfiled hinhabited
    · rw [hgroups, AList.keys_insert, List.length_cons, List.erase_of_not_mem hmem, h.clients]
      omega
    · intro t ht
      rw [hgroups, AList.lookup_insert_ne ht]
    · rw [hgroup]
      rfl
    · rw [hgroups, AList.lookup_insert]
      rfl

lemma Counted.cancel (h : Counted source m) (f : ℕ) : Counted source (m.cancel f) :=
  h.touches (FlowBuffer.touches_cancel m.buffer f)

lemma Counted.cancel_delete (h : Counted source m) (hk : m.buffer.sequences.lookup k = some f) :
    Counted source ((m.cancel f).delete source k) :=
  (h.cancel f).delete hk (FlowBuffer.live_cancel_self m.buffer f)

lemma Counted.foldl_cancel (fs : List ℕ) (h : Counted source m) :
    Counted source (fs.foldl SessionBuffer.cancel m) := by
  induction fs generalizing m with
  | nil => exact h
  | cons f fs ih => exact ih (h.cancel f)

lemma Counted.step (h : Counted source m) (sourceId : σ → ι) (e : SessionEvent β ι) : Counted source (m.step source sourceId e) := by
  cases e with
  | cancelSource id => exact h.foldl_cancel _
  | flow e =>
    cases e with
    | tcpInitSequence k syn rst now sorting =>
      rw [SessionBuffer.step, SessionBuffer.tcpInitSequence]
      cases hk : m.buffer.sequences.lookup k with
      | some f =>
        cases rst with
        | true => exact h.cancel_delete hk
        | false => exact h
      | none =>
        cases syn with
        | true => exact h.limitThenInsert hk
        | false => exact h
    | udpInitSequence k skip now sorting =>
      rw [SessionBuffer.step, SessionBuffer.udpInitSequence]
      cases hk : m.buffer.sequences.lookup k with
      | some f =>
        dsimp only
        split
        · apply (h.cancel_delete hk).limitThenInsert
          rw [SessionBuffer.delete]
          split <;> exact AList.lookup_erase _ _
        · exact h
      | none => exact h.limitThenInsert hk
    | updateLastActivityTime f now =>
      exact h.touches (FlowBuffer.touches_modify m.buffer f (fun _ => rfl) (fun _ h => h))
    | cancel f => exact h.cancel f
    | exit f =>
      rw [SessionBuffer.step, SessionBuffer.exit]
      cases m.buffer.flows[f]? with
      | none => exact h
      | some flow =>
        dsimp only
        split
        · next hfiled => exact h.cancel_delete hfiled
        · exact h.cancel f

lemma counted_run (userLimit : ℕ) (es : List (SessionEvent β ι)) :
    Counted source (Runs.run (step source sourceId) (new userLimit) es) :=
  Runs.run_invariant (I := Counted source) (fun _ e h => h.step sourceId e) (counted_new userLimit) es

lemma lookup_exit (source : β → σ) (hfg : g ≠ f) (hk : m.buffer.sequences.lookup k = some g) :
    (m.exit source f).buffer.sequences.lookup k = some g := by
  rw [SessionBuffer.exit]
  cases m.buffer.flows[f]? with
  | none => exact hk
  | some flow =>
    dsimp only
    split
    · next hfiled =>
      have hne : k ≠ flow.bufferId := by
        rintro rfl
        rw [hfiled, Option.some.injEq] at hk
        exact hfg hk.symm
      rw [SessionBuffer.delete]
      split <;> exact (AList.lookup_erase_ne hne).trans hk
    · exact hk

theorem flow_tables_agree (source : β → σ) (sourceId : σ → ι) (userLimit : ℕ) (es : List (SessionEvent β ι)) :
    let m := Runs.run (step source sourceId) (new userLimit) es
    (∀ s k f, (m.buffer.sourceEntries s).lookup k = some f ↔ m.buffer.sequences.lookup k = some f ∧ source k = s) ∧
    (∀ k f, m.buffer.sequences.lookup k = some f → ∃ flow, m.buffer.flows[f]? = some flow ∧ flow.bufferId = k) ∧
    (∀ s entries, m.buffer.sourceSequences.lookup s = some entries → entries.entries.length ≠ 0) ∧
    m.clients = m.buffer.sourceSequences.keys.length ∧
    (∀ s, Alternates (m.callsOf s)) ∧
    ∀ f g k, g ≠ f → m.buffer.sequences.lookup k = some g →
      (m.exit source f).buffer.sequences.lookup k = some g ∧
      ((m.exit source f).buffer.sourceEntries (source k)).lookup k = some g ∧
      (false :: (m.exit source f).callsOf (source k)).getLast? = some true := by
  intro m
  have h : Counted source m := counted_run userLimit es
  refine ⟨fun s k f => ⟨fun hk => ?_, ?_⟩, h.filed.known, h.inhabited, h.clients, h.alternates, ?_⟩
  · have hs := h.filed.own s k f hk
    rw [← hs] at hk
    exact ⟨(h.filed.agree k f).mp hk, hs⟩
  · rintro ⟨hk, rfl⟩
    exact (h.filed.agree k f).mpr hk
  · intro f g k hfg hk
    have hexit : Counted source (m.exit source f) := h.step sourceId (.flow (.exit f))
    have hkept := lookup_exit source hfg hk
    refine ⟨hkept, (hexit.filed.agree k g).mpr hkept, ?_⟩
    rw [hexit.last, lookup_group hexit.filed hkept]
    rfl

end SessionBuffer

end UrConnect.Ip.FlowLimit
