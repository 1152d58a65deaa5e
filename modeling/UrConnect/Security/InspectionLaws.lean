import Mathlib
import UrConnect.Lib.Runs
import UrConnect.Security.Inspection

/-! What the packets of a flow can make of its verdict: it is decided within the budget and stays, the BitTorrent
checks come before every admission, and a drop needs an observed start and enough encrypted payloads. -/

namespace UrConnect.Security.FlowState

open UrConnect.Lib

variable {κ : Type} {s : DmcaSettings} {d : Detectors κ} {st st' : FlowState κ} {p : Packet} {b : Bytes}
  {r : FlowState κ × Answer} {reason : SecurityPolicyReason}

structure Judged (s : DmcaSettings) (d : Detectors κ) (b : Bytes) (st : FlowState κ) (r : FlowState κ × Answer) :
    Prop where
  inspected : r.1.inspectedPackets = st.inspectedPackets
  observed : r.1.sawObservation = st.sawObservation
  start : r.1.sawFlowStart = st.sawFlowStart
  decides : (r.2.verdict ≠ .inspecting ∧ r.1.terminal = r.2.verdict ∧ r.1.terminalReason = r.2.reason) ∨
    (r.1.terminal = st.terminal ∧ st.inspectedPackets < s.inspectionPacketBudget ∧
      (r.2.verdict = .allow → r.1.appReason ≠ .unknown) ∧ r.2.verdict ≠ .dropEncrypted)
  admits : r.2.verdict = .allow → isDpiAppAdmitReason r.2.reason = true → anyOffsetBittorrentMarker b = false
  keeps : st.appReason ≠ .unknown → r.1.appReason ≠ .unknown
  encrypted : r.1.encryptedPackets ≤ st.encryptedPackets + if payloadLooksEncrypted s d b then 1 else 0
  drops : r.2.verdict = .dropEncrypted → s.dropUnsanctionedEncrypted = true ∧ r.1.sawFlowStart = true ∧
    min s.encryptedDecisionPackets s.inspectionPacketBudget ≤ r.1.encryptedPackets ∧ r.1.sawPlaintext = false

structure Same (st st' : FlowState κ) : Prop where
  terminal : st'.terminal = st.terminal
  inspected : st'.inspectedPackets = st.inspectedPackets
  encrypted : st'.encryptedPackets = st.encryptedPackets
  observed : st'.sawObservation = st.sawObservation
  start : st'.sawFlowStart = st.sawFlowStart
  appReason : st'.appReason = st.appReason

lemma Judged.of_same (h : Judged s d b st' r) (hs : Same st st') : Judged s d b st r where
  inspected := h.inspected.trans hs.inspected
  observed := h.observed.trans hs.observed
  start := h.start.trans hs.start
  decides := by
    rw [← hs.terminal, ← hs.inspected]
    exact h.decides
  admits := h.admits
  keeps := by
    rw [← hs.appReason]
    exact h.keeps
  encrypted := by
    rw [← hs.encrypted]
    exact h.encrypted
  drops := h.drops

lemma judged_setTerminal {v : Verdict} (hv : v ≠ .inspecting) (hdrop : v ≠ .dropEncrypted)
    (hadmits : v = .allow → isDpiAppAdmitReason reason = true → anyOffsetBittorrentMarker b = false) :
    Judged s d b st (st.setTerminal v reason) where
  inspected := rfl
  observed := rfl
  start := rfl
  decides := .inl ⟨hv, rfl, rfl⟩
  admits := hadmits
  keeps := fun h => h
  encrypted := Nat.le_add_right _ _
  drops := fun h => absurd h hdrop

lemma judged_bittorrent : Judged s d b st (st.setTerminal .bittorrent .bittorrent) :=
  judged_setTerminal nofun nofun nofun

lemma judged_allow (hreason : isDpiAppAdmitReason reason = false) :
    Judged s d b st (st.setTerminal .allow reason) :=
  judged_setTerminal nofun nofun (fun _ h => Bool.noConfusion (hreason.symm.trans h))

lemma judged_waiting (st : FlowState κ) (hbudget : st.inspectedPackets < s.inspectionPacketBudget) :
    Judged s d b st (st, ⟨.inspecting, .inspecting, false⟩) where
  inspected := rfl
  observed := rfl
  start := rfl
  decides := .inr ⟨rfl, hbudget, nofun, nofun⟩
  admits := nofun
  keeps := fun h => h
  encrypted := Nat.le_add_right _ _
  drops := nofun

lemma judged_allowAppStandard (hreason : reason ≠ .unknown) :
    Judged s d b st (st.allowAppStandard s b reason) := by
  unfold allowAppStandard
  split
  · exact judged_bittorrent
  · next hmarker =>
    rw [Bool.not_eq_true] at hmarker
    dsimp only
    split
    · exact {
        inspected := rfl
        observed := rfl
        start := rfl
        decides := .inl ⟨nofun, rfl, rfl⟩
        admits := fun _ _ => hmarker
        keeps := fun _ => hreason
        encrypted := Nat.le_add_right _ _
        drops := nofun }
    · next hbudget =>
      exact {
        inspected := rfl
        observed := rfl
        start := rfl
        decides := .inr ⟨rfl, Nat.lt_of_not_le hbudget, fun _ => hreason, nofun⟩
        admits := fun _ _ => hmarker
        keeps := fun _ => hreason
        encrypted := Nat.le_add_right _ _
        drops := nofun }

lemma judged_holdAppCandidate (candidate : κ) : Judged s d b st (st.holdAppCandidate s candidate) := by
  have hsame : Same st { st with appCandidate := some candidate } := ⟨rfl, rfl, rfl, rfl, rfl, rfl⟩
  unfold holdAppCandidate
  dsimp only
  split
  · exact (judged_allow rfl).of_same hsame
  · next hbudget =>
    apply Judged.of_same _ hsame
    exact judged_waiting _ (Nat.lt_of_not_le hbudget)

lemma judged_judgeEntropy : Judged s d b st (st.judgeEntropy s d b) := by
  unfold judgeEntropy
  dsimp only
  -- The bookkeeping changes the two counters of the entropy check only.
  obtain ⟨c, hc, hinspected, hobserved, hstart, hterminal, happ, hencrypted⟩ : ∃ c : FlowState κ,
      (if payloadLooksEncrypted s d b then { st with encryptedPackets := st.encryptedPackets + 1 }
        else if s.minEncryptedPayload ≤ b.length then { st with sawPlaintext := true } else st) = c ∧
      c.inspectedPackets = st.inspectedPackets ∧ c.sawObservation = st.sawObservation ∧
      c.sawFlowStart = st.sawFlowStart ∧ c.terminal = st.terminal ∧ c.appReason = st.appReason ∧
      c.encryptedPackets ≤ st.encryptedPackets + if payloadLooksEncrypted s d b then 1 else 0 := by
    refine ⟨_, rfl, ?_⟩
    split
    · exact ⟨rfl, rfl, rfl, rfl, rfl, Nat.le_refl _⟩
    · split
      · exact ⟨rfl, rfl, rfl, rfl, rfl, Nat.le_add_right _ _⟩
      · exact ⟨rfl, rfl, rfl, rfl, rfl, Nat.le_add_right _ _⟩
  rw [hc]
  have hkeeps : st.appReason ≠ .unknown → c.appReason ≠ .unknown := by rw [happ]; exact fun h => h
  split
  · exact ⟨hinspected, hobserved, hstart, .inl ⟨nofun, rfl, rfl⟩, fun _ => nofun, hkeeps, hencrypted,
      nofun⟩
  · next hplain =>
    split
    · next hdrop =>
      refine ⟨hinspected, hobserved, hstart, .inl ⟨nofun, rfl, rfl⟩, nofun, hkeeps, hencrypted, ?_⟩
      intro _
      exact ⟨hdrop.1, hdrop.2.1, hdrop.2.2, Bool.not_eq_true _ ▸ hplain⟩
    · split
      · exact ⟨hinspected, hobserved, hstart, .inl ⟨nofun, rfl, rfl⟩, fun _ => nofun, hkeeps, hencrypted,
          nofun⟩
      · next hbudget =>
        rw [hinspected] at hbudget
        exact ⟨hinspected, hobserved, hstart,
          .inr ⟨hterminal, Nat.lt_of_not_le hbudget, nofun, nofun⟩, nofun, hkeeps,
          hencrypted, nofun⟩

lemma same_judgeRtp : Same st (st.judgeRtp d p).1 := by
  unfold judgeRtp
  split
  · unfold observeRtp
    dsimp only
    split <;> (try split) <;> (try split) <;> (try split) <;> exact ⟨rfl, rfl, rfl, rfl, rfl, rfl⟩
  · exact ⟨rfl, rfl, rfl, rfl, rfl, rfl⟩

lemma judged_judgeUnidentified : Judged s d b st (st.judgeUnidentified s d p b) := by
  unfold judgeUnidentified
  split
  · exact judged_allowAppStandard nofun
  · dsimp only
    split
    · exact (judged_allow rfl).of_same same_judgeRtp
    · split
      · exact (judged_allow rfl).of_same same_judgeRtp
      · exact judged_judgeEntropy.of_same same_judgeRtp

lemma judged_openCandidate : Judged s d b st (st.openCandidate s d p b) := by
  unfold openCandidate
  split
  · split
    · exact judged_bittorrent
    · exact judged_holdAppCandidate _
  · exact judged_judgeUnidentified

lemma judged_judgeCandidate : Judged s d b st (st.judgeCandidate s d p b) := by
  have hsame : Same st { st with appCandidate := none } := ⟨rfl, rfl, rfl, rfl, rfl, rfl⟩
  unfold judgeCandidate
  split
  · dsimp only
    split
    · apply Judged.of_same _ hsame
      exact judged_allowAppStandard (by rintro ⟨⟩)
    · exact (judged_holdAppCandidate _).of_same hsame
    · exact judged_openCandidate.of_same hsame
  · exact judged_openCandidate

lemma judged_judgeStandards : Judged s d b st (st.judgeStandards s d p b) := by
  unfold judgeStandards
  split
  · exact judged_allow rfl
  · split
    · split
      · exact judged_bittorrent
      · exact judged_allowAppStandard nofun
    · exact judged_judgeCandidate

lemma judged_inspect (st : FlowState κ) (p : Packet) : Judged s d (p.payload.take s.maxInspectionPayload) st (st.inspect s d p) := by
  unfold inspect
  dsimp only
  split
  · exact judged_bittorrent
  · split
    · next happ =>
      split
      · exact judged_bittorrent
      · next hmarker =>
        rw [Bool.not_eq_true] at hmarker
        split
        · exact judged_setTerminal nofun nofun (fun _ _ => hmarker)
        · next hbudget =>
          exact {
            inspected := rfl
            observed := rfl
            start := rfl
            decides := .inr ⟨rfl, Nat.lt_of_not_le hbudget, fun _ => happ, nofun⟩
            admits := fun _ _ => hmarker
            keeps := fun h => h
            encrypted := Nat.le_add_right _ _
            drops := nofun }
    · split
      · exact judged_allowAppStandard nofun
      · exact judged_judgeStandards

def counted (st : FlowState κ) (p : Packet) : FlowState κ :=
  { st.observe p.path with inspectedPackets := (st.observe p.path).inspectedPackets + 1 }

lemma advance_decided (h : st.terminal ≠ .inspecting) :
    st.advance s d p = (st, ⟨st.terminal, st.terminalReason, false⟩) := by
  rw [advance, if_pos h, terminalVerdict, if_neg h]

lemma advance_empty (h : st.terminal = .inspecting) (hp : p.payload = []) :
    st.advance s d p = (st.observe p.path, ⟨.inspecting, .inspecting, false⟩) := by
  rw [advance, if_neg (not_not_intro h), hp]
  rfl

lemma advance_payload (h : st.terminal = .inspecting) (hp : p.payload ≠ []) :
    st.advance s d p = (st.counted p).inspect s d p := by
  rw [advance, if_neg (not_not_intro h)]
  exact if_neg (mt List.length_eq_zero_iff.mp hp)

@[simp] lemma observe_terminal (path : IpPath) : (st.observe path).terminal = st.terminal := by
  unfold observe
  split <;> rfl

@[simp] lemma observe_inspectedPackets (path : IpPath) : (st.observe path).inspectedPackets = st.inspectedPackets := by
  unfold observe
  split <;> rfl

@[simp] lemma observe_encryptedPackets (path : IpPath) : (st.observe path).encryptedPackets = st.encryptedPackets := by
  unfold observe
  split <;> rfl

@[simp] lemma observe_appReason (path : IpPath) : (st.observe path).appReason = st.appReason := by
  unfold observe
  split <;> rfl

def startObserved (st : FlowState κ) (ps : List Packet) : Bool :=
  if st.sawObservation then st.sawFlowStart else ps.head?.any fun p => startsFlow p.path

lemma startObserved_observe (st : FlowState κ) (p : Packet) (ps : List Packet) :
    (st.observe p.path).sawObservation = true ∧ (st.observe p.path).sawFlowStart = st.startObserved (p :: ps) := by
  unfold observe startObserved
  split
  · next h => exact ⟨h, rfl⟩
  · exact ⟨rfl, rfl⟩

def carries (p : Packet) : Bool := decide (p.payload ≠ [])

def looksEncrypted (s : DmcaSettings) (d : Detectors κ) (p : Packet) : Bool :=
  payloadLooksEncrypted s d (p.payload.take s.maxInspectionPayload)

def run (s : DmcaSettings) (d : Detectors κ) (st : FlowState κ) (ps : List Packet) : FlowState κ :=
  Runs.run (fun st p => (st.advance s d p).1) st ps

structure Tracks (s : DmcaSettings) (d : Detectors κ) (st : FlowState κ) (ps : List Packet) (u : FlowState κ) :
    Prop where
  inspected : u.inspectedPackets = st.inspectedPackets + ps.countP carries
  budget : 0 < ps.countP carries → u.inspectedPackets < s.inspectionPacketBudget
  start : ∀ qs, u.startObserved qs = st.startObserved (ps ++ qs)
  encrypted : u.encryptedPackets ≤ st.encryptedPackets + ps.countP (looksEncrypted s d)
  keeps : st.appReason ≠ .unknown → u.appReason ≠ .unknown

lemma tracks_nil : Tracks s d st [] st where
  inspected := rfl
  budget := fun h => absurd h (Nat.lt_irrefl 0)
  start := fun _ => rfl
  encrypted := Nat.le_refl _
  keeps := fun h => h

lemma tracks_advance (h : st.terminal = .inspecting) (hafter : (st.advance s d p).1.terminal = .inspecting) :
    Tracks s d st [p] (st.advance s d p).1 := by
  have hstart : ∀ u : FlowState κ, u.sawObservation = (st.observe p.path).sawObservation →
      u.sawFlowStart = (st.observe p.path).sawFlowStart → ∀ qs, u.startObserved qs = st.startObserved ([p] ++ qs) := by
    intro u hobserved hflow qs
    obtain ⟨hsaw, hstarts⟩ := startObserved_observe st p qs
    rw [startObserved, hobserved, hsaw, if_pos rfl, hflow, hstarts]
    rfl
  by_cases hp : p.payload = []
  · rw [advance_empty h hp]
    have hcarries : carries p = false := decide_eq_false (not_not_intro hp)
    exact {
      inspected := by simp [hcarries]
      budget := by simp [hcarries]
      start := hstart _ rfl rfl
      encrypted := by simp
      keeps := by simp }
  · rw [advance_payload h hp] at hafter ⊢
    have hcarries : carries p = true := decide_eq_true hp
    have hj : Judged s d (p.payload.take s.maxInspectionPayload) (st.counted p) _ := judged_inspect (st.counted p) p
    have hundecided : (st.counted p).inspectedPackets < s.inspectionPacketBudget := by
      rcases hj.decides with ⟨hne, hterminal, -⟩ | ⟨-, hlt, -⟩
      · exact absurd (hterminal.symm.trans hafter) hne
      · exact hlt
    exact {
      inspected := by
        rw [hj.inspected]
        simp [hcarries, counted]
      budget := by
        intro _
        rw [hj.inspected]
        exact hundecided
      start := hstart _ hj.observed hj.start
      encrypted := by
        rw [List.countP_singleton]
        have hle := hj.encrypted
        rw [show (st.counted p).encryptedPackets = st.encryptedPackets from observe_encryptedPackets p.path] at hle
        exact hle
      keeps := by
        intro happ
        apply hj.keeps
        simpa [counted] using happ }

lemma Tracks.trans {ps qs : List Packet} {u v : FlowState κ} (h : Tracks s d st ps u) (h' : Tracks s d u qs v) :
    Tracks s d st (ps ++ qs) v where
  inspected := by rw [h'.inspected, h.inspected, List.countP_append, Nat.add_assoc]
  budget := by
    intro hpos
    rw [List.countP_append] at hpos
    by_cases hqs : 0 < qs.countP carries
    · exact h'.budget hqs
    · have hps : 0 < ps.countP carries := by omega
      have hlt := h.budget hps
      rw [h'.inspected]
      omega
  start := by
    intro rest
    rw [h'.start, h.start, List.append_assoc]
  encrypted := by
    have hu := h.encrypted
    have hv := h'.encrypted
    rw [List.countP_append]
    omega
  keeps := fun happ => h'.keeps (h.keeps happ)

lemma run_decided (h : st.terminal ≠ .inspecting) (ps : List Packet) : run s d st ps = st := by
  induction ps with
  | nil => rfl
  | cons p ps ih =>
    rw [run, Runs.run_cons, advance_decided h]
    exact ih

lemma run_append (ps qs : List Packet) : run s d st (ps ++ qs) = run s d (run s d st ps) qs := Runs.run_append _ _ _

lemma run_cons (p : Packet) (ps : List Packet) : run s d st (p :: ps) = run s d (st.advance s d p).1 ps := rfl

lemma undecided_of_run {ps : List Packet} (h : (run s d st ps).terminal = .inspecting) : st.terminal = .inspecting := by
  by_contra hne
  rw [run_decided hne] at h
  exact hne h

lemma tracks_run {ps : List Packet} (h : (run s d st ps).terminal = .inspecting) :
    Tracks s d st ps (run s d st ps) := by
  induction ps generalizing st with
  | nil => exact tracks_nil
  | cons p ps ih =>
    have hstart := undecided_of_run h
    rw [run_cons] at h ⊢
    exact (tracks_advance hstart (undecided_of_run h)).trans (ih h)

lemma detectBittorrentSignature_nil (path : IpPath) : detectBittorrentSignature path [] = false := by
  unfold detectBittorrentSignature
  cases path.protocol <;> decide +kernel

lemma anyOffsetBittorrentMarker_nil : anyOffsetBittorrentMarker [] = false := by decide +kernel

lemma payload_ne_nil {check : Bytes → Bool} (hnil : check [] = false)
    (h : check (p.payload.take s.maxInspectionPayload) = true) : p.payload ≠ [] := by
  intro hp
  rw [hp, List.take_nil, hnil] at h
  exact Bool.noConfusion h

lemma inspect_signature (h : detectBittorrentSignature p.path (p.payload.take s.maxInspectionPayload) = true) :
    st.inspect s d p = st.setTerminal .bittorrent .bittorrent := if_pos h

lemma inspect_marker (happ : st.appReason ≠ .unknown)
    (h : anyOffsetBittorrentMarker (p.payload.take s.maxInspectionPayload) = true) :
    st.inspect s d p = st.setTerminal .bittorrent .bittorrent := by
  unfold inspect
  dsimp only
  split
  · rfl
  · rfl

lemma appReason_of_allowed (h : st.terminal = .inspecting) (hafter : (st.advance s d p).1.terminal = .inspecting)
    (hallow : (st.advance s d p).2.verdict = .allow) : (st.advance s d p).1.appReason ≠ .unknown := by
  by_cases hp : p.payload = []
  · rw [advance_empty h hp] at hallow
    cases hallow
  · rw [advance_payload h hp] at hafter hallow ⊢
    rcases (judged_inspect (st.counted p) p).decides with ⟨hne, hterminal, -⟩ | ⟨-, -, hreason, -⟩
    · exact absurd (hterminal.symm.trans hafter) hne
    · exact hreason hallow

def Admitted (s : DmcaSettings) (d : Detectors κ) (st : FlowState κ) (ps : List Packet) : Prop :=
  ∃ before p after, ps = before ++ p :: after ∧ ((run s d st before).advance s d p).2.verdict = .allow ∧
    isDpiAppAdmitReason ((run s d st before).advance s d p).2.reason = true

lemma appReason_of_admitted {ps : List Packet} (h : (run s d st ps).terminal = .inspecting)
    (hadmitted : Admitted s d st ps) : (run s d st ps).appReason ≠ .unknown := by
  obtain ⟨before, p, after, rfl, hallow, -⟩ := hadmitted
  rw [run_append, run_cons] at h ⊢
  have hmid := undecided_of_run h
  have hbefore : (run s d st before).terminal = .inspecting := by
    by_contra hne
    rw [advance_decided hne] at hmid
    exact hne hmid
  exact (tracks_run h).keeps (appReason_of_allowed hbefore hmid hallow)

theorem inspection_decides (d : Detectors κ) (s : DmcaSettings) (hbudget : 1 ≤ s.inspectionPacketBudget)
    (st : FlowState κ) (ps : List Packet) :
    (s.inspectionPacketBudget ≤ ps.countP carries → (run s d st ps).terminal ≠ .inspecting) ∧
    ((run s d st ps).terminal ≠ .inspecting → ∀ qs, run s d st (ps ++ qs) = run s d st ps) ∧
    ∀ p, let u := run s d st ps
      let r := u.advance s d p
      (u.terminal ≠ .inspecting → r = (u, ⟨u.terminal, u.terminalReason, false⟩)) ∧
      (u.terminal = .inspecting →
        (detectBittorrentSignature p.path (p.payload.take s.maxInspectionPayload) = true →
          r.1.terminal = .bittorrent ∧ r.2.verdict = .bittorrent) ∧
        (p.payload ≠ [] → r.2.verdict = .allow → isDpiAppAdmitReason r.2.reason = true →
          anyOffsetBittorrentMarker (p.payload.take s.maxInspectionPayload) = false) ∧
        (Admitted s d st ps → anyOffsetBittorrentMarker (p.payload.take s.maxInspectionPayload) = true →
          r.1.terminal = .bittorrent ∧ r.2.verdict = .bittorrent) ∧
        (r.1.terminal = .dropEncrypted → s.dropUnsanctionedEncrypted = true ∧ st.startObserved (ps ++ [p]) = true ∧
          min s.encryptedDecisionPackets s.inspectionPacketBudget ≤
            st.encryptedPackets + (ps ++ [p]).countP (looksEncrypted s d) ∧ r.1.sawPlaintext = false)) := by
  refine ⟨?_, fun h qs => by rw [run_append, run_decided h], ?_⟩
  · intro hcount hundecided
    have htracks := tracks_run hundecided
    have hlt := htracks.budget (by omega)
    rw [htracks.inspected] at hlt
    omega
  intro p
  dsimp only
  refine ⟨fun h => advance_decided h, ?_⟩
  intro h
  refine ⟨?_, ?_, ?_, ?_⟩
  · intro hsignature
    rw [advance_payload h (payload_ne_nil (detectBittorrentSignature_nil p.path) hsignature),
      inspect_signature hsignature]
    exact ⟨rfl, rfl⟩
  · intro hp
    rw [advance_payload h hp]
    exact (judged_inspect _ p).admits
  · intro hadmitted hmarker
    have happ : ((run s d st ps).counted p).appReason ≠ .unknown := by
      rw [show ((run s d st ps).counted p).appReason = (run s d st ps).appReason from observe_appReason p.path]
      exact appReason_of_admitted h hadmitted
    rw [advance_payload h (payload_ne_nil anyOffsetBittorrentMarker_nil hmarker), inspect_marker happ hmarker]
    exact ⟨rfl, rfl⟩
  · intro hdrop
    have htracks := tracks_run h
    by_cases hp : p.payload = []
    · rw [advance_empty h hp] at hdrop
      rw [observe_terminal, h] at hdrop
      cases hdrop
    · rw [advance_payload h hp] at hdrop ⊢
      have hj : Judged s d (p.payload.take s.maxInspectionPayload) ((run s d st ps).counted p) _ := judged_inspect _ p
      have hverdict : (((run s d st ps).counted p).inspect s d p).2.verdict = .dropEncrypted := by
        rcases hj.decides with ⟨-, hterminal, -⟩ | ⟨hterminal, -⟩
        · exact hterminal.symm.trans hdrop
        · rw [hterminal, counted] at hdrop
          change ((run s d st ps).observe p.path).terminal = _ at hdrop
          rw [observe_terminal, h] at hdrop
          cases hdrop
      obtain ⟨hsetting, hstart, hcount, hplain⟩ := hj.drops hverdict
      refine ⟨hsetting, ?_, ?_, hplain⟩
      · rw [← htracks.start [p], ← (startObserved_observe (run s d st ps) p []).2]
        exact hj.start.symm.trans hstart
      · have hencrypted := hj.encrypted
        have hrun := htracks.encrypted
        rw [show ((run s d st ps).counted p).encryptedPackets = (run s d st ps).encryptedPackets from
          observe_encryptedPackets p.path] at hencrypted
        rw [List.countP_append, List.countP_singleton, looksEncrypted]
        omega

def blindDetectors : Detectors Unit where
  isSanctionedGamingEndpoint _ := false
  isSanctionedMessagingEndpoint _ := false
  matchReason _ _ := none
  rtpHeader _ _ := none
  appMatch _ _ _ := none
  appConfirm _ _ _ := none
  appOpen _ _ _ := none
  looksRandom _ := true

def strictSettings : DmcaSettings where
  dropUnsanctionedEncrypted := true
  inspectionPacketBudget := 8
  encryptedDecisionPackets := 2
  maxInspectionPayload := 512
  minEncryptedPayload := 4

def datagram (payload : Bytes) : Packet := ⟨⟨.udp, [], 5000, [], 6000, false⟩, payload⟩

theorem inspection_decides_drop :
    ((run strictSettings blindDetectors new [datagram [1, 2, 3, 4]]).advance strictSettings blindDetectors
        (datagram [5, 6, 7, 8])).1.terminal = .dropEncrypted ∧
      (new : FlowState Unit).startObserved [datagram [1, 2, 3, 4], datagram [5, 6, 7, 8]] = true ∧
      2 ≤ [datagram [1, 2, 3, 4], datagram [5, 6, 7, 8]].countP (looksEncrypted strictSettings blindDetectors) := by
  have hdrop : ((run strictSettings blindDetectors new [datagram [1, 2, 3, 4]]).advance strictSettings blindDetectors
      (datagram [5, 6, 7, 8])).1.terminal = .dropEncrypted := by decide +kernel
  obtain ⟨-, -, hpacket⟩ := inspection_decides blindDetectors strictSettings (by decide) new [datagram [1, 2, 3, 4]]
  obtain ⟨-, hstart, hcount, -⟩ := ((hpacket (datagram [5, 6, 7, 8])).2 (by decide +kernel)).2.2.2 hdrop
  refine ⟨hdrop, hstart, ?_⟩
  change 2 ≤ 0 + _ at hcount
  rwa [Nat.zero_add] at hcount

end UrConnect.Security.FlowState
