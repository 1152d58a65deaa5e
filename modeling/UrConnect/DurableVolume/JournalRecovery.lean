import UrConnect.DurableVolume.JournalCapacity

/-! What a control holds after any sequence of applications, as its own reader reads it. -/

namespace UrConnect.DurableVolume.Journal

open Lib.JsonLines Lib.Runs

section Reading

variable (hash : Bytes → Fin 64 → Fin 16) (l : Limits)

lemma readRecord_resized (s : Session) (n : ℕ) (record : Record) :
    readRecord hash l { s with size := n } record =
      (readRecord hash l s record).map fun s => { s with size := n } := by
  unfold readRecord
  dsimp only
  cases record.phase <;> cases s.pending <;> dsimp only <;> split_ifs <;> rfl

lemma readRecords_resized (records : List Record) (s : Session) (n : ℕ) :
    records.foldlM (readRecord hash l) { s with size := n } =
      (records.foldlM (readRecord hash l) s).map fun s => { s with size := n } := by
  induction records generalizing s with
  | nil => rfl
  | cons record records ih =>
    rw [List.foldlM_cons, List.foldlM_cons, readRecord_resized]
    cases readRecord hash l s record with
    | error f => rfl
    | ok s' => exact ih s'

structure Reads (c : Control) (s : Session) : Prop where
  tail : c.tail = []
  read : c.records.foldlM (readRecord hash l) (startSession hash c.header.json 0) =
    .ok { s with position := 0, size := 0 }

variable {hash l} {c : Control} {s : Session}

lemma reopen_eq (c : Control) (htail : c.tail = []) : c.reopen hash l =
    (c.records.foldlM (readRecord hash l) (startSession hash c.header.json 0)).map
      fun s => { s with size := c.bytes.length } := by
  rw [Control.reopen, if_neg (not_not_intro htail), ← readRecords_resized]
  rfl

lemma Reads.reopen (h : Reads hash l c s) :
    c.reopen hash l = .ok { s with position := 0, size := c.bytes.length } := by
  rw [reopen_eq c h.tail, h.read]
  rfl

lemma reads_of_reopen (hs : c.reopen hash l = .ok s) : Reads hash l c s := by
  have htail : c.tail = [] := by
    by_contra htail
    rw [Control.reopen, if_pos htail] at hs
    cases hs
  refine ⟨htail, ?_⟩
  rw [reopen_eq c htail] at hs
  cases hread : c.records.foldlM (readRecord hash l) (startSession hash c.header.json 0) with
  | error f =>
    rw [hread] at hs
    cases hs
  | ok r =>
    rw [hread] at hs
    obtain ⟨-, hposition, hsize⟩ := readRecords_counted hash (counted_startSession hash _ _) hread
    cases hs
    cases r
    cases hposition
    cases hsize
    rfl

structure Taken (l : Limits) (s : Session) (phase : Phase) (step : Step) (identity : Identity) : Prop where
  room : s.sequence < recordLimit l
  phase : phase = .pending ∧ s.pending = none ∧ identity = .zero ∨
    phase = .complete ∧ (∃ intent, s.pending = some intent ∧ intent.step = step) ∧ identity.inode ≠ 0

lemma Reads.appended (h : Reads hash l c s) {phase : Phase} {step : Step} {identity : Identity}
    (ht : Taken l s phase step identity) :
    Reads hash l { c with records := c.records ++ [nextRecord hash s phase step identity] }
      (s.appended (nextRecord hash s phase step identity)) := by
  refine ⟨h.tail, ?_⟩
  rw [List.foldlM_append, h.read]
  show readRecord hash l _ _ >>= pure = _
  rw [bind_pure, readRecord, if_neg (Nat.not_le.mpr ht.room), if_neg (by simp [nextRecord])]
  rcases ht.phase with ⟨rfl, hpending, rfl⟩ | ⟨rfl, ⟨intent, hpending, rfl⟩, hinode⟩
  · simp [nextRecord, Session.appended, hpending]
  · simp [nextRecord, Session.appended, hpending, hinode]

lemma append_reads (h : Reads hash l c s) {phase : Phase} {step : Step} {identity : Identity}
    (ht : Taken l s phase step identity) (written : Written) :
    ((append hash written phase step identity c s).1 = c ∨ (append hash written phase step identity c s).1.tail ≠ [] ∨
        Reads hash l (append hash written phase step identity c s).1
          (s.appended (nextRecord hash s phase step identity))) ∧
      ∀ s', (append hash written phase step identity c s).2 = .ok s' →
        s' = s.appended (nextRecord hash s phase step identity) ∧
          Reads hash l (append hash written phase step identity c s).1 s' := by
  have happended := h.appended ht
  unfold append
  dsimp only
  split_ifs with hfull
  · exact ⟨.inl rfl, by rintro s' ⟨⟩⟩
  · cases written with
    | lost => exact ⟨.inr (.inr happended), by rintro s' ⟨⟩⟩
    | acknowledged =>
      refine ⟨.inr (.inr happended), ?_⟩
      rintro s' ⟨⟩
      exact ⟨rfl, happended⟩
    | torn count =>
      dsimp only
      split_ifs
      · refine ⟨?_, by rintro s' ⟨⟩⟩
        rcases eq_or_ne ((nextRecord hash s phase step identity).json ++ [10] |>.take count) [] with hnone | hsome
        · left
          have htail := h.tail
          cases c
          cases htail
          rw [hnone]
        · exact .inr (.inl hsome)
      · exact ⟨.inr (.inr happended), by rintro s' ⟨⟩⟩

def Session.steps (s : Session) : List Step := (s.completed ++ s.pending.toList).map Record.step

def Follows (hash : Bytes → Fin 64 → Fin 16) (l : Limits) (steps : List Step) (c : Control) : Prop :=
  c.tail ≠ [] ∨ ∃ s, Reads hash l c s ∧ s.steps <+: steps

structure Extends (hash : Bytes → Fin 64 → Fin 16) (l : Limits) (c : Control) (steps : List Step)
    (out : Control × Except Fault Session) : Prop where
  control : out.1 = c ∨ Follows hash l steps out.1
  session : ∀ s, out.2 = .ok s → Reads hash l out.1 s ∧ (s.completed.take s.position).map Record.step = steps

lemma complete_extends (h : Reads hash l c s) {intent : Record} (hpending : s.pending = some intent)
    (hposition : s.position = s.completed.length) (hroom : s.sequence < recordLimit l) {reply : Reply}
    (hseen : ∀ identity, reply.observed = some identity → identity.inode ≠ 0) :
    Extends hash l c (s.completed.map Record.step ++ [intent.step]) (complete hash reply intent.step c s) := by
  unfold complete
  cases hobserved : reply.observed with
  | none => exact ⟨.inl rfl, by rintro s' ⟨⟩⟩
  | some identity =>
    have htaken : Taken l s .complete intent.step identity :=
      ⟨hroom, .inr ⟨rfl, ⟨intent, hpending, rfl⟩, hseen identity hobserved⟩⟩
    obtain ⟨hcontrol, hsession⟩ := append_reads h htaken reply.completeWrite
    have hfollows : (append hash reply.completeWrite .complete intent.step identity c s).1 = c ∨
        Follows hash l (s.completed.map Record.step ++ [intent.step])
          (append hash reply.completeWrite .complete intent.step identity c s).1 := by
      refine hcontrol.imp_right (Or.imp_right fun hreads => ⟨_, hreads, ?_⟩)
      simp [Session.steps, Session.appended, nextRecord]
    dsimp only
    generalize append hash reply.completeWrite .complete intent.step identity c s = out at hfollows hsession
    obtain ⟨c', f | s'⟩ := out
    · exact ⟨hfollows, by rintro s'' ⟨⟩⟩
    · refine ⟨hfollows, ?_⟩
      rintro s'' ⟨⟩
      obtain ⟨rfl, hreads⟩ := hsession s' rfl
      refine ⟨⟨hreads.tail, hreads.read⟩, ?_⟩
      rw [List.take_of_length_le]
      · simp [Session.appended, nextRecord]
      · simp [Session.appended, nextRecord, hposition]

lemma step_extends (h : Reads hash l c s) (hcounted : Counted c.records.length s)
    (hroom : 2 * s.position + 2 ≤ recordLimit l) {reply : Reply} (st : Step)
    (hseen : ∀ identity, reply.observed = some identity → identity.inode ≠ 0) :
    Extends hash l c ((s.completed.take s.position).map Record.step ++ [st]) (step hash reply st c s) := by
  have hsequence := hcounted.sequence
  have hcompleted := hcounted.completed
  have hparity := hcounted.pending
  unfold step
  by_cases hchecked : reply.checked = false
  · rw [if_pos hchecked]
    exact ⟨.inl rfl, by rintro s' ⟨⟩⟩
  · rw [if_neg hchecked]
    cases hget : s.completed[s.position]? with
    | some completed =>
      dsimp only
      split_ifs with hother
      · exact ⟨.inl rfl, by rintro s' ⟨⟩⟩
      · refine ⟨.inl rfl, ?_⟩
        rintro s' ⟨⟩
        obtain ⟨hsame, -⟩ := not_or.mp hother
        refine ⟨⟨h.tail, h.read⟩, ?_⟩
        rw [List.take_add_one, hget, List.map_append]
        simp [not_not.mp hsame]
    | none =>
      have hposition : s.position = s.completed.length :=
        le_antisymm hcounted.position (List.getElem?_eq_none_iff.mp hget)
      rw [hposition, List.take_length]
      cases hpending : s.pending with
      | some pending =>
        dsimp only
        split_ifs with hother
        · exact ⟨.inl rfl, by rintro s' ⟨⟩⟩
        · rw [hpending] at hparity
          have hodd := hparity.mp rfl
          rw [← not_not.mp hother]
          exact complete_extends h hpending hposition (by omega) hseen
      | none =>
        dsimp only
        by_cases habsent : reply.absent = false
        · rw [if_pos habsent]
          exact ⟨.inl rfl, by rintro s' ⟨⟩⟩
        rw [if_neg habsent]
        rw [hpending] at hparity
        have heven : c.records.length % 2 = 0 := by
          rcases Nat.mod_two_eq_zero_or_one c.records.length with heven | hodd
          · exact heven
          · exact absurd (hparity.mpr hodd) Bool.false_ne_true
        have htaken : Taken l s .pending st .zero := ⟨by omega, .inl ⟨rfl, hpending, rfl⟩⟩
        obtain ⟨hcontrol, hsession⟩ := append_reads h htaken reply.pendingWrite
        have hsteps : (s.appended (nextRecord hash s .pending st .zero)).steps =
            s.completed.map Record.step ++ [st] := by
          simp [Session.steps, Session.appended, nextRecord]
        have hfollows : (append hash reply.pendingWrite .pending st .zero c s).1 = c ∨
            Follows hash l (s.completed.map Record.step ++ [st])
              (append hash reply.pendingWrite .pending st .zero c s).1 :=
          hcontrol.imp_right (Or.imp_right fun hreads => ⟨_, hreads, hsteps ▸ List.prefix_rfl⟩)
        generalize append hash reply.pendingWrite .pending st .zero c s = out at hfollows hsession
        obtain ⟨c', f | s'⟩ := out
        · exact ⟨hfollows, by rintro s'' ⟨⟩⟩
        · obtain ⟨rfl, hreads⟩ := hsession _ rfl
          have hintent : (s.appended (nextRecord hash s .pending st .zero)).pending =
              some (nextRecord hash s .pending st .zero) := by simp [Session.appended, nextRecord]
          have hdone := complete_extends hreads hintent (by simpa [Session.appended, nextRecord] using hposition)
            (by
              have hlt : recordLimit l < 2 ^ 64 := Nat.mod_lt _ (by decide)
              simp only [Session.appended, nextRecord, if_true]
              omega) hseen
          have hcompleted' : (s.appended (nextRecord hash s .pending st .zero)).completed = s.completed := rfl
          rw [hcompleted'] at hdone
          have hfirst : Follows hash l (s.completed.map Record.step ++ [st]) c' :=
            .inr ⟨_, hreads, hsteps ▸ List.prefix_rfl⟩
          exact ⟨.inr (hdone.control.elim (fun hsame => (congrArg _ hsame).mpr hfirst) id), hdone.session⟩

end Reading

section Runs

variable {hash : Bytes → Fin 64 → Fin 16} {l : Limits} {rs : List Step} {c : Control} {s : Session}

def planned (ms : List Move) : List Step := ms.flatMap fun
  | .step s => [s]
  | .check => []
  | .stop => []

lemma Follows.mono {steps more : List Step} (h : Follows hash l steps c) (hle : steps <+: more) :
    Follows hash l more c :=
  h.imp_right fun ⟨s, hreads, hs⟩ => ⟨s, hreads, hs.trans hle⟩

lemma Covered.peel {st : Step} {ms : List Move} {p : ℕ} (h : Covered (.step st :: ms) (rs.drop p)) :
    ∃ r, rs[p]? = some r ∧ Fits st r ∧ Covered ms (rs.drop (p + 1)) := by
  cases hdrop : rs.drop p with
  | nil =>
    rw [hdrop] at h
    cases h
  | cons r rest =>
    rw [hdrop] at h
    cases h with
    | step hf hrest =>
      refine ⟨r, ?_, hf, ?_⟩
      · rw [← List.head?_drop, hdrop]
        rfl
      · rw [← List.drop_drop, hdrop]
        exact hrest

lemma execute_follows (hlimit : 2 * rs.length ≤ recordLimit l) {replies : ℕ → Reply}
    (hseen : ∀ n identity, (replies n).observed = some identity → identity.inode ≠ 0) {ms : List Move}
    (h : Tracks rs c s) (hroom : Roomy rs c.header) (hcover : Covered ms (rs.drop s.position))
    (hreads : Reads hash l c s) :
    (execute hash replies ms c s).1 = c ∨
      Follows hash l ((s.completed.take s.position).map Record.step ++ planned ms) (execute hash replies ms c s).1 := by
  induction ms generalizing c s with
  | nil => exact .inl rfl
  | cons m ms ih =>
    cases m with
    | stop => exact .inl rfl
    | check =>
      cases hcover with
      | check hrest =>
        rw [execute]
        split
        · exact .inl rfl
        · exact ih h hroom hrest hreads
    | step st =>
      obtain ⟨r, hr, hf, hrest⟩ := hcover.peel
      have hlt := (List.getElem?_eq_some_iff.1 hr).1
      have htracks := h.step hash hroom hr hf (replies ms.length)
      have hextends := step_extends hreads h.counted (by omega) st (hseen ms.length)
      rw [execute]
      generalize step hash (replies ms.length) st c s = out at htracks hextends
      obtain ⟨c', f | s'⟩ := out
      · exact hextends.control.imp_right fun hfollows => hfollows.mono (by simp [planned])
      · obtain ⟨hnext, hposition⟩ := htracks.goes s' rfl
        obtain ⟨hreads', hsteps⟩ := hextends.session s' rfl
        have hdone := ih hnext (htracks.header ▸ hroom) (hposition ▸ hrest) hreads'
        rw [hsteps, List.append_assoc] at hdone
        rcases hdone with hsame | hfollows
        · rw [hsame]
          exact hextends.control.imp_right fun hfollows => hfollows.mono (by simp [planned])
        · exact .inr hfollows

variable {paths : Paths} {request : Request} {plan : Plan}

def Planned (hash : Bytes → Fin 64 → Fin 16) (paths : Paths) (request : Request) (plan : Plan) (c : Control) : Prop :=
  ∃ inspect, Follows hash request.limits (planned (runMoves hash paths request plan inspect)) c

lemma invoke_runs (hs : c.reopen hash request.limits = .ok s) (i : Invocation) :
    (invoke hash paths request plan c i).1 =
        (execute hash i.replies (runMoves hash paths request plan i.inspect) c s).1 ∧
      ∀ s', (invoke hash paths request plan c i).2 = .ok s' →
        (execute hash i.replies (runMoves hash paths request plan i.inspect) c s).2 = .ok s' := by
  unfold invoke
  rw [hs]
  dsimp only
  generalize execute hash i.replies (runMoves hash paths request plan i.inspect) c s = out
  obtain ⟨c', f | s'⟩ := out
  · exact ⟨rfl, by rintro s'' ⟨⟩⟩
  · dsimp only
    split_ifs
    · exact ⟨rfl, by rintro s'' ⟨⟩⟩
    · exact ⟨rfl, fun _ h => h⟩

lemma Kept.starts (h : Kept (reservedSteps paths request plan) c) (hs : c.reopen hash request.limits = .ok s)
    (inspect : ℕ → OwnerPlan → Option (List PreparedAttribute)) :
    Tracks (reservedSteps paths request plan) c s ∧ s.position = 0 ∧
      Covered (runMoves hash paths request plan inspect) ((reservedSteps paths request plan).drop s.position) := by
  obtain ⟨htracks, hposition⟩ := h.reopen hash hs
  refine ⟨htracks, hposition, ?_⟩
  rw [hposition]
  exact covered_runMoves hash paths request plan inspect

lemma invoke_planned (hlimit : 2 * (reservedSteps paths request plan).length ≤ recordLimit request.limits)
    (hkept : Kept (reservedSteps paths request plan) c) (hroom : Roomy (reservedSteps paths request plan) c.header)
    {i : Invocation} (hseen : ∀ n identity, (i.replies n).observed = some identity → identity.inode ≠ 0)
    (h : Planned hash paths request plan c) : Planned hash paths request plan (invoke hash paths request plan c i).1 := by
  cases hs : c.reopen hash request.limits with
  | error f =>
    rw [invoke, hs]
    exact h
  | ok s =>
    obtain ⟨htracks, hposition, hcover⟩ := hkept.starts hs i.inspect
    have hrun := execute_follows hlimit hseen htracks hroom hcover (reads_of_reopen hs)
    rw [hposition, List.take_zero] at hrun
    rw [(invoke_runs hs i).1]
    rcases hrun with hsame | hfollows
    · rwa [hsame]
    · exact ⟨i.inspect, hfollows⟩

variable (hash) in
lemma created_room {reader : PlanReader} (accepted : readPreparationPlan paths reader = some (plan, request))
    (planRaw : Bytes) (cohortRaw : Option Bytes)
    (cohort : cohortRaw.isSome → (preparationControlCapacity paths request plan true).isSome) (identity : Identity) :
    Kept (reservedSteps paths request plan) (createdControl hash plan planRaw cohortRaw identity) ∧
      Roomy (reservedSteps paths request plan) (createdControl hash plan planRaw cohortRaw identity).header := by
  have hcapacity : (preparationControlCapacity paths request plan cohortRaw.isSome).isSome := by
    cases hc : cohortRaw.isSome with
    | false => exact (readPreparationPlan_accepts accepted).2.2
    | true => exact cohort hc
  obtain ⟨used, hused⟩ := Option.isSome_iff_exists.mp hcapacity
  have hwidest := widestHeader_fits cohortRaw.isSome
  obtain ⟨hsum, hmax, hrecord⟩ := foldlM_reserve (hwidest.trans (by decide)) hused
  have hcreated := length_createdControl_header hash plan planRaw cohortRaw identity
  exact ⟨⟨.nil, Nat.zero_le _, oneLine_nil⟩, hrecord, by omega, (reservedSteps_count accepted).2⟩

/-- However the applications of an accepted plan end, the control is torn or its reader accepts all of it, as records
of a beginning of the steps of the plan, each completed once and in order. -/
theorem control_follows_plan (hash : Bytes → Fin 64 → Fin 16) {reader : PlanReader}
    (accepted : readPreparationPlan paths reader = some (plan, request)) (planRaw : Bytes) (cohortRaw : Option Bytes)
    (cohort : cohortRaw.isSome → (preparationControlCapacity paths request plan true).isSome) (identity : Identity)
    (invocations : List Invocation)
    (hseen : ∀ i ∈ invocations, ∀ n seen, (i.replies n).observed = some seen → seen.inode ≠ 0) :
    (controlAfter hash paths request plan (createdControl hash plan planRaw cohortRaw identity) invocations).tail ≠ [] ∨
      ∃ s inspect, (controlAfter hash paths request plan (createdControl hash plan planRaw cohortRaw identity)
          invocations).reopen hash request.limits = .ok s ∧
        s.steps <+: planned (runMoves hash paths request plan inspect) := by
  obtain ⟨hkept, hroom⟩ := created_room hash accepted planRaw cohortRaw cohort identity
  have hcreated : Planned hash paths request plan (createdControl hash plan planRaw cohortRaw identity) :=
    ⟨fun _ _ => none, .inr ⟨startSession hash _ 0, ⟨rfl, rfl⟩, List.nil_prefix⟩⟩
  have hafter : Planned hash paths request plan
      (controlAfter hash paths request plan (createdControl hash plan planRaw cohortRaw identity) invocations) := by
    generalize createdControl hash plan planRaw cohortRaw identity = c at hkept hroom hcreated
    induction invocations generalizing c with
    | nil => exact hcreated
    | cons i invocations ih =>
      obtain ⟨hnext, hheader, -⟩ := hkept.invoke hash hroom i
      rw [List.forall_mem_cons] at hseen
      exact ih hseen.2 _ hnext (hheader ▸ hroom)
        (invoke_planned (reservedSteps_count accepted).1 hkept hroom hseen.1 hcreated)
  obtain ⟨inspect, htorn | ⟨s, hreads, hsteps⟩⟩ := hafter
  · exact .inl htorn
  · exact .inr ⟨_, inspect, hreads.reopen, hsteps⟩

def sampleControl : Control := createdControl (fun _ _ => 7) samplePlan [0] none ⟨1, 9, 0o600, 0, 0⟩

def sampleInvocation (written : Written) : Invocation :=
  ⟨fun _ _ => some [], fun _ => ⟨true, true, some ⟨1, 2, 0o700, 0, 0⟩, .acknowledged, written⟩⟩

theorem control_follows_plan_sample :
    (controlAfter (fun _ _ => 7) samplePaths sampleRequest samplePlan sampleControl [sampleInvocation .lost]).tail ≠ [] ∨
      ∃ s inspect, (controlAfter (fun _ _ => 7) samplePaths sampleRequest samplePlan sampleControl
          [sampleInvocation .lost]).reopen (fun _ _ => 7) sampleRequest.limits = .ok s ∧
        s.steps <+: planned (runMoves (fun _ _ => 7) samplePaths sampleRequest samplePlan inspect) := by
  refine control_follows_plan _ sampleReader_accepts [0] none (by simp) _ _ ?_
  simp [sampleInvocation]

lemma execute_end {replies : ℕ → Reply} {ms : List Move} {s' : Session} (h : Tracks rs c s)
    (hroom : Roomy rs c.header) (hcover : Covered ms (rs.drop s.position))
    (hdone : (execute hash replies ms c s).2 = .ok s') : rs.length ≤ s'.position := by
  induction ms generalizing c s with
  | nil =>
    generalize hdrop : rs.drop s.position = rest at hcover
    cases hcover
    cases hdone
    exact List.drop_eq_nil_iff.mp hdrop
  | cons m ms ih =>
    cases m with
    | stop => cases hdone
    | check =>
      cases hcover with
      | check hrest =>
        rw [execute] at hdone
        split at hdone
        · cases hdone
        · exact ih h hroom hrest hdone
    | step st =>
      obtain ⟨r, hr, hf, hrest⟩ := hcover.peel
      have htracks := h.step hash hroom hr hf (replies ms.length)
      rw [execute] at hdone
      generalize step hash (replies ms.length) st c s = out at htracks hdone
      obtain ⟨c', f | s''⟩ := out
      · cases hdone
      · obtain ⟨hnext, hposition⟩ := htracks.goes s'' rfl
        exact ih hnext (htracks.header ▸ hroom) (hposition ▸ hrest) hdone

lemma execute_idle {replies : ℕ → Reply} {ms : List Move} (hfull : rs.length ≤ s.completed.length)
    (hcover : Covered ms (rs.drop s.position)) : (execute hash replies ms c s).1 = c := by
  induction ms generalizing s with
  | nil => rfl
  | cons m ms ih =>
    cases m with
    | stop => rfl
    | check =>
      cases hcover with
      | check hrest =>
        rw [execute]
        split
        · rfl
        · exact ih hfull hrest
    | step st =>
      obtain ⟨r, hr, -, hrest⟩ := hcover.peel
      have hlt := (List.getElem?_eq_some_iff.1 hr).1
      have hget := List.getElem?_eq_getElem (hlt.trans_le hfull)
      rw [execute, step, hget]
      dsimp only
      split_ifs
      · rfl
      · rfl
      · exact ih hfull hrest

lemma invoke_end (hkept : Kept (reservedSteps paths request plan) c)
    (hroom : Roomy (reservedSteps paths request plan) c.header) {i : Invocation} {s : Session}
    (hdone : (invoke hash paths request plan c i).2 = .ok s) :
    2 * (reservedSteps paths request plan).length ≤ (invoke hash paths request plan c i).1.records.length := by
  cases hs : c.reopen hash request.limits with
  | error f =>
    rw [invoke, hs] at hdone
    cases hdone
  | ok s₀ =>
    obtain ⟨htracks, -, hcover⟩ := hkept.starts hs i.inspect
    obtain ⟨hcontrol, hok⟩ := invoke_runs hs i
    have hend := execute_end htracks hroom hcover (hok s hdone)
    obtain ⟨hcounted, -⟩ := (htracks.execute hash i.replies hroom hcover).goes s (hok s hdone)
    have hle := hcounted.counted.position
    have hcompleted := hcounted.counted.completed
    rw [hcontrol]
    omega

/-- An application that has succeeded is the last that writes: whatever later applications of the plan meet, they
leave the control as it is. -/
theorem finished_control_stays (hash : Bytes → Fin 64 → Fin 16) {reader : PlanReader}
    (accepted : readPreparationPlan paths reader = some (plan, request)) (planRaw : Bytes) (cohortRaw : Option Bytes)
    (cohort : cohortRaw.isSome → (preparationControlCapacity paths request plan true).isSome) (identity : Identity)
    (before : List Invocation) (i : Invocation) (s : Session)
    (hdone : (invoke hash paths request plan (controlAfter hash paths request plan
      (createdControl hash plan planRaw cohortRaw identity) before) i).2 = .ok s) (later : List Invocation) :
    controlAfter hash paths request plan (createdControl hash plan planRaw cohortRaw identity) (before ++ i :: later) =
      controlAfter hash paths request plan (createdControl hash plan planRaw cohortRaw identity) (before ++ [i]) := by
  obtain ⟨hkept, hroom⟩ := created_room hash accepted planRaw cohortRaw cohort identity
  obtain ⟨hbefore, hheader⟩ := hkept.controlAfter hash hroom before
  rw [← hheader] at hroom
  have hfull := invoke_end hbefore hroom hdone
  obtain ⟨hafter, -, -⟩ := hbefore.invoke hash hroom i
  unfold controlAfter at *
  rw [run_append, run_append, run_cons, run_cons, run_nil]
  generalize (invoke hash paths request plan (run _ _ before) i).1 = c at hfull hafter
  induction later with
  | nil => rfl
  | cons j later ih =>
    have hidle : (invoke hash paths request plan c j).1 = c := by
      cases hs : c.reopen hash request.limits with
      | error f => rw [invoke, hs]
      | ok s' =>
        obtain ⟨htracks, -, hcover⟩ := hafter.starts hs j.inspect
        have hcompleted := htracks.counted.completed
        rw [(invoke_runs hs j).1]
        exact execute_idle (by omega) hcover
    rw [run_cons, hidle]
    exact ih

theorem finished_control_stays_sample :
    controlAfter (fun _ _ => 7) samplePaths sampleRequest samplePlan sampleControl
        [sampleInvocation .acknowledged, sampleInvocation .acknowledged, sampleInvocation .lost] =
      controlAfter (fun _ _ => 7) samplePaths sampleRequest samplePlan sampleControl
        [sampleInvocation .acknowledged] := by
  have hdone : (invoke (fun _ _ => 7) samplePaths sampleRequest samplePlan sampleControl
      (sampleInvocation .acknowledged)).2.isOk = true := by
    decide +kernel
  cases hs : (invoke (fun _ _ => 7) samplePaths sampleRequest samplePlan sampleControl
      (sampleInvocation .acknowledged)).2 with
  | error f =>
    rw [hs] at hdone
    cases hdone
  | ok s => exact finished_control_stays _ sampleReader_accepts [0] none (by simp) _ [] _ s hs _

end Runs

end UrConnect.DurableVolume.Journal
