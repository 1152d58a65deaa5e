import UrConnect.Lib.Runs
import UrConnect.Lib.Word
import UrConnect.Transfer.DestinationYield

/-! The silence of a destination runs from its first unanswered write, as long as no reading of the yields drops a
record that is still in use. -/

namespace UrConnect.Transfer.Yield

open UrConnect.Extender (Time Duration)
open UrConnect.Lib

structure Contact where
  unanswered : Option ℤ
  lastWrite : Option ℤ
deriving DecidableEq

def Contact.note (id : Id) (c : Contact) : YieldEvent → Contact
  | .noteSend d _ nowNano =>
    if d = id then ⟨some (c.unanswered.getD nowNano.toInt), some nowNano.toInt⟩ else c
  | .noteAck d _ _ | .noteLive d _ | .markDestinationReleased d _ _ =>
    if d = id then { c with unanswered := none } else c
  | .destinationYields _ => c

def contactOf (id : Id) (es : List YieldEvent) : Contact := es.foldl (Contact.note id) ⟨none, none⟩

def nanoOf (now : Time) : ℤ := now.wall - Time.unixEpoch

structure Follows (id : Id) (y : DestinationYield) (c : Contact) (latest : ℤ) : Prop where
  destinationId : y.destinationId = id
  silent : y.silentSinceNano.toInt = c.unanswered.getD 0
  unanswered : ∀ t, c.unanswered = some t → 0 < t ∧ t ≤ latest
  written : y.lastSendNano ≠ 0 → c.lastWrite = some y.lastSendNano.toInt
  lastWrite : ∀ t, c.lastWrite = some t → 0 < t ∧ t ≤ latest
  idle : y.lastSendNano = 0 → ∀ t, c.lastWrite = some t → t + yieldRetention < latest
  acked : 0 ≤ y.lastAckNano.toInt ∧ y.lastAckNano.toInt ≤ latest

variable {id d : Id} {y : DestinationYield} {c : Contact} {latest latest' : ℤ} {b : SendBuffer} {now : Time}
  {nano : Int64} {h : Histograms}

lemma age_eq (hpos : 0 < nano.toInt) (hle : nano.toInt ≤ nanoOf now) (hnow : nanoOf now < 2 ^ 63) :
    age now nano = nanoOf now - nano.toInt := by
  have hne : nano ≠ 0 := by
    rintro rfl
    exact absurd hpos (by decide)
  have hsince : now.sinceBoth (ofUnixNano nano) = nanoOf now - nano.toInt := by
    unfold Time.sinceBoth ofUnixNano nanoOf
    cases now.monotonic <;> dsimp only <;> omega
  have hnonneg : 0 ≤ nanoOf now - nano.toInt := by omega
  have hhigh : nanoOf now - nano.toInt ≤ 2 ^ 63 - 1 := by omega
  have hlow : -2 ^ 63 ≤ nanoOf now - nano.toInt := by omega
  rw [age, if_neg hne, Time.sub, hsince, min_eq_right hhigh, max_eq_right hlow, max_eq_right hnonneg]

lemma age_zero (now : Time) : age now 0 = 0 := if_pos rfl

lemma follows_new (id : Id) (hlatest : 0 ≤ latest) : Follows id (DestinationYield.new id) ⟨none, none⟩ latest where
  destinationId := rfl
  silent := rfl
  unanswered := by simp
  written := fun hne => absurd rfl hne
  lastWrite := by simp
  idle := by simp
  acked := ⟨le_rfl, hlatest⟩

namespace Follows

lemma later (hf : Follows id y c latest) (hle : latest ≤ latest') : Follows id y c latest' where
  destinationId := hf.destinationId
  silent := hf.silent
  unanswered := fun t ht => ⟨(hf.unanswered t ht).1, (hf.unanswered t ht).2.trans hle⟩
  written := hf.written
  lastWrite := fun t ht => ⟨(hf.lastWrite t ht).1, (hf.lastWrite t ht).2.trans hle⟩
  idle := fun hzero t ht => (hf.idle hzero t ht).trans_le hle
  acked := ⟨hf.acked.1, hf.acked.2.trans hle⟩

lemma silent_zero_iff (hf : Follows id y c latest) : y.silentSinceNano = 0 ↔ c.unanswered = none := by
  rw [← Int64.toInt_inj, hf.silent, Int64.toInt_zero]
  constructor
  · intro hzero
    cases hc : c.unanswered with
    | none => rfl
    | some t =>
      have hpos := (hf.unanswered t hc).1
      rw [hc, Option.getD_some] at hzero
      omega
  · intro hnone
    rw [hnone]
    rfl

lemma noteSend (hf : Follows id y c latest) (byteCount : Int64) (hpos : 0 < nano.toInt) (hle : latest ≤ nano.toInt) :
    Follows id (y.noteSend byteCount nano) ⟨some (c.unanswered.getD nano.toInt), some nano.toInt⟩ nano.toInt where
  destinationId := hf.destinationId
  silent := by
    rw [DestinationYield.noteSend, Option.getD_some]
    dsimp only
    by_cases hzero : y.silentSinceNano = 0
    · rw [if_pos hzero, hf.silent_zero_iff.mp hzero]
      rfl
    · rw [if_neg hzero, hf.silent]
      cases hc : c.unanswered with
      | none => exact absurd (hf.silent_zero_iff.mpr hc) hzero
      | some t => rfl
  unanswered := by
    intro t ht
    obtain rfl := Option.some.inj ht
    cases hc : c.unanswered with
    | none => exact ⟨hpos, le_rfl⟩
    | some t => exact ⟨(hf.unanswered t hc).1, (hf.unanswered t hc).2.trans hle⟩
  written := fun _ => rfl
  lastWrite := by
    intro t ht
    obtain rfl := Option.some.inj ht
    exact ⟨hpos, le_rfl⟩
  idle := by
    intro hzero
    change nano = 0 at hzero
    rw [hzero] at hpos
    exact absurd hpos (by decide)
  acked := ⟨hf.acked.1, hf.acked.2.trans hle⟩

lemma ends (hf : Follows id y c latest) {y' : DestinationYield} (hle : latest ≤ latest')
    (hid : y'.destinationId = y.destinationId) (hsilent : y'.silentSinceNano = 0)
    (hsend : y'.lastSendNano = y.lastSendNano)
    (hacked : 0 ≤ y'.lastAckNano.toInt ∧ y'.lastAckNano.toInt ≤ latest') :
    Follows id y' { c with unanswered := none } latest' where
  destinationId := hid.trans hf.destinationId
  silent := by rw [hsilent]; rfl
  unanswered := by simp
  written := by
    rw [hsend]
    exact hf.written
  lastWrite := (hf.later hle).lastWrite
  idle := by
    rw [hsend]
    exact (hf.later hle).idle
  acked := hacked

lemma noteLive (hf : Follows id y c latest) (h : Histograms) (hpos : 0 < nano.toInt) (hle : latest ≤ nano.toInt) :
    Follows id (y.noteLive h nano).1 { c with unanswered := none } nano.toInt :=
  hf.ends hle rfl rfl rfl ⟨hpos.le, le_rfl⟩

lemma noteAck (hf : Follows id y c latest) (h : Histograms) (byteCount : Int64) (hpos : 0 < nano.toInt)
    (hle : latest ≤ nano.toInt) :
    Follows id (y.noteAck h byteCount nano).1 { c with unanswered := none } nano.toInt :=
  hf.ends hle rfl rfl rfl ⟨hpos.le, le_rfl⟩

end Follows

namespace SendBuffer

def Keyed (b : SendBuffer) : Prop := ∀ k y, b.yields.lookup k = some y → y.destinationId = k

lemma yieldFor_update_self (r : DestinationYield × Histograms) : (b.update id r).yieldFor id = r.1 := by
  rw [yieldFor, update, AList.lookup_insert, Option.getD_some]

lemma yieldFor_update_ne (r : DestinationYield × Histograms) (hne : id ≠ d) :
    (b.update d r).yieldFor id = b.yieldFor id := by
  rw [yieldFor, update, AList.lookup_insert_ne hne, yieldFor]

lemma Keyed.update (hb : b.Keyed) {r : DestinationYield × Histograms} (hr : r.1.destinationId = d) :
    (b.update d r).Keyed := by
  intro k y hy
  rw [SendBuffer.update, Table.lookup_insert_eq] at hy
  split at hy
  · next hk =>
    obtain rfl := Option.some.inj hy
    exact hr.trans hk.symm
  · exact hb k y hy

lemma Keyed.yieldFor (hb : b.Keyed) (d : Id) : (b.yieldFor d).destinationId = d := by
  rw [SendBuffer.yieldFor]
  cases hd : b.yields.lookup d with
  | none => rfl
  | some y => exact hb d y hd

lemma lookup_destinationYields (b : SendBuffer) (now : Time) (k : Id) : (b.destinationYields now).1.yields.lookup k =
    (b.yields.lookup k).bind fun y => if forgotten now y then none else some y :=
  Table.lookup_sweep _ _ _

lemma lookup_markDestinationReleased (b : SendBuffer) (d k : Id) (now : Time) (shadow : Bool) :
    (b.markDestinationReleased d now shadow).yields.lookup k =
      if k = d then (b.yields.lookup d).map (fun y => y.markReleased (unixNano now) shadow)
      else b.yields.lookup k := by
  rw [markDestinationReleased]
  split
  · next hk => rw [hk, Table.lookup_modify_self]
  · next hk => rw [Table.lookup_modify_ne _ hk]

lemma Keyed.step (hb : b.Keyed) (e : YieldEvent) : (b.step e).Keyed := by
  cases e with
  | noteSend d byteCount nowNano => exact hb.update (hb.yieldFor d)
  | noteAck d byteCount nowNano => exact hb.update (hb.yieldFor d)
  | noteLive d nowNano => exact hb.update (hb.yieldFor d)
  | markDestinationReleased d now shadow =>
    intro k y hy
    rw [SendBuffer.step, lookup_markDestinationReleased] at hy
    split at hy
    · next hk =>
      obtain ⟨y', hy', rfl⟩ := Option.map_eq_some_iff.mp hy
      exact (hb d y' hy').trans hk.symm
    · exact hb k y hy
  | destinationYields now =>
    intro k y hy
    rw [SendBuffer.step, lookup_destinationYields] at hy
    obtain ⟨y', hy', hkept⟩ := Option.bind_eq_some_iff.mp hy
    split at hkept
    · exact absurd hkept (by simp)
    · obtain rfl := Option.some.inj hkept
      exact hb k y' hy'

/-- A reading of the yields at `now` finds a record that is silent, or written to lately, with neither its last
write nor its last acknowledgement past the retention. -/
def Attended (now : Time) (y : DestinationYield) : Prop :=
  y.silentSinceNano ≠ 0 ∨ (y.lastSendNano ≠ 0 ∧ age now y.lastSendNano ≤ yieldRetention) →
    age now y.lastSendNano ≤ yieldRetention ∧ age now y.lastAckNano ≤ yieldRetention

/-- Times are after the start of the epoch and within 64-bit nanoseconds, and each reading finds the record of `id`
attended. -/
def Regular (id : Id) (b : SendBuffer) (e : YieldEvent) : Prop :=
  0 < e.nano ∧ e.nano < 2 ^ 63 ∧
    match e with
    | .destinationYields now => Attended now (b.yieldFor id)
    | _ => True

instance (now : Time) (y : DestinationYield) : Decidable (Attended now y) :=
  inferInstanceAs (Decidable (_ → _))

instance (id : Id) (b : SendBuffer) (e : YieldEvent) : Decidable (Regular id b e) :=
  match e with
  | .destinationYields now => inferInstanceAs (Decidable (_ ∧ _ ∧ Attended now (b.yieldFor id)))
  | .noteSend _ _ _ | .noteAck _ _ _ | .noteLive _ _ | .markDestinationReleased _ _ _ =>
    inferInstanceAs (Decidable (_ ∧ _ ∧ True))

lemma follows_forgotten (hf : Follows id y c latest) (hle : latest ≤ nanoOf now) (hnow : nanoOf now < 2 ^ 63)
    (hattended : Attended now y) (hforgotten : forgotten now y = true) :
    Follows id (DestinationYield.new id) c (nanoOf now) := by
  have hquiet : ¬(y.silentSinceNano ≠ 0 ∨ (y.lastSendNano ≠ 0 ∧ age now y.lastSendNano ≤ yieldRetention)) := by
    intro hin
    obtain ⟨hsend, hack⟩ := hattended hin
    rw [SendBuffer.forgotten, decide_eq_true_eq] at hforgotten
    exact absurd (max_le hsend hack) (not_le.mpr hforgotten)
  rw [not_or, not_not, not_and, not_le] at hquiet
  have hnone := hf.silent_zero_iff.mp hquiet.1
  have hlater := hf.later hle
  exact {
    destinationId := rfl
    silent := by rw [hnone]; rfl
    unanswered := hlater.unanswered
    written := fun hne => absurd rfl hne
    lastWrite := hlater.lastWrite
    idle := by
      intro _ t ht
      by_cases hzero : y.lastSendNano = 0
      · exact hlater.idle hzero t ht
      · have hage := hquiet.2 hzero
        have hwritten := (hf.written hzero).symm.trans ht
        have ht' : y.lastSendNano.toInt = t := Option.some.inj hwritten
        have hbounds := hlater.lastWrite t ht
        rw [age_eq (by omega) (by omega) hnow, ht'] at hage
        exact Int.add_lt_of_lt_sub_left hage
    acked := ⟨le_rfl, hf.acked.1.trans (hf.acked.2.trans hle)⟩ }

lemma follows_step {e : YieldEvent} (hf : Follows id (b.yieldFor id) c latest) (hle : latest ≤ e.nano)
    (hregular : Regular id b e) : Follows id ((b.step e).yieldFor id) (c.note id e) e.nano := by
  obtain ⟨hpos, hhigh, hread⟩ := hregular
  cases e with
  | noteSend d byteCount nowNano =>
    rw [SendBuffer.step, Contact.note]
    by_cases hd : d = id
    · subst hd
      rw [yieldFor_update_self, if_pos rfl]
      exact hf.noteSend byteCount hpos hle
    · rw [yieldFor_update_ne _ (Ne.symm hd), if_neg hd]
      exact hf.later hle
  | noteAck d byteCount nowNano =>
    rw [SendBuffer.step, Contact.note]
    by_cases hd : d = id
    · subst hd
      rw [yieldFor_update_self, if_pos rfl]
      exact hf.noteAck b.histograms byteCount hpos hle
    · rw [yieldFor_update_ne _ (Ne.symm hd), if_neg hd]
      exact hf.later hle
  | noteLive d nowNano =>
    rw [SendBuffer.step, Contact.note]
    by_cases hd : d = id
    · subst hd
      rw [yieldFor_update_self, if_pos rfl]
      exact hf.noteLive b.histograms hpos hle
    · rw [yieldFor_update_ne _ (Ne.symm hd), if_neg hd]
      exact hf.later hle
  | markDestinationReleased d now shadow =>
    have hacked := (hf.later hle).acked
    rw [SendBuffer.step, Contact.note, yieldFor, lookup_markDestinationReleased]
    by_cases hd : d = id
    · subst hd
      rw [if_pos rfl, if_pos rfl]
      rw [yieldFor] at hf hacked
      cases hlookup : b.yields.lookup d with
      | none =>
        rw [hlookup] at hf hacked
        exact hf.ends hle rfl rfl rfl hacked
      | some y =>
        rw [hlookup] at hf hacked
        exact hf.ends hle rfl rfl rfl hacked
    · rw [if_neg (Ne.symm hd), if_neg hd]
      exact hf.later hle
  | destinationYields now =>
    rw [SendBuffer.step, Contact.note, yieldFor, lookup_destinationYields]
    cases hlookup : b.yields.lookup id with
    | none =>
      rw [yieldFor, hlookup] at hf
      exact hf.later hle
    | some y =>
      rw [yieldFor, hlookup] at hf hread
      rw [Option.bind_some]
      split
      · next hforgotten => exact follows_forgotten hf hle hhigh hread hforgotten
      · exact hf.later hle

lemma follows_run {es : List YieldEvent} (hf : Follows id (b.yieldFor id) c latest)
    (horder : (latest :: es.map YieldEvent.nano).Pairwise (· ≤ ·))
    (hmeets : Runs.Meets (Regular id) step b es) :
    ∃ latest', Follows id ((Runs.run step b es).yieldFor id) (es.foldl (Contact.note id) c) latest' ∧
      latest' ∈ latest :: es.map YieldEvent.nano := by
  induction es generalizing b c latest with
  | nil => exact ⟨latest, hf, List.mem_cons_self⟩
  | cons e es ih =>
    rw [List.map_cons, List.pairwise_cons] at horder
    obtain ⟨latest', hrun, hmem⟩ := ih (follows_step hf (horder.1 _ List.mem_cons_self) hmeets.1) horder.2 hmeets.2
    exact ⟨latest', hrun, List.mem_cons_of_mem _ hmem⟩

end SendBuffer

namespace DeadClientPolicy

variable {policy : DeadClientPolicy} {view : DestinationYieldView} {views : List DestinationYieldView}

lemma release_of_hardSilence (hmem : view ∈ views) (hlimits : policy.silence ≤ policy.hardSilence)
    (hsilent : policy.hardSilence ≤ view.silentFor) (hwriting : view.sinceLastSend ≠ 0)
    (hactive : view.sinceLastSend ≤ policy.activeWindow) :
    ∃ reason, ⟨view, reason⟩ ∈ (policy.decideDeadClients views).release := by
  have hreason : ∀ judged collapsed, ∃ reason, policy.reason judged collapsed view = some reason := by
    intro judged collapsed
    rw [DeadClientPolicy.reason]
    split_ifs
    · exact ⟨_, rfl⟩
    · exact ⟨_, rfl⟩
    · exact ⟨_, rfl⟩
  have hcandidate : policy.candidate view = true := by
    rw [candidate, within, Bool.and_eq_true]
    exact ⟨decide_eq_true ⟨hwriting, hactive⟩, decide_eq_true (hlimits.trans hsilent)⟩
  obtain ⟨reason, hr⟩ := hreason (decide (policy.minActive ≤ (views.filter policy.active).length))
    (decide (policy.minActive ≤ (views.filter policy.active).length) && policy.unhealthy
      ((views.filter policy.active).filter fun view => within policy.ackWindow view.sinceLastAck).length
      (views.filter policy.active).length)
  refine ⟨reason, ?_⟩
  apply List.mem_filterMap.mpr
  exact ⟨view, List.mem_filter.mpr ⟨hmem, hcandidate⟩, by rw [hr]; rfl⟩

end DeadClientPolicy

namespace SendBuffer

lemma mem_views {views : List DestinationYieldView} {b' : SendBuffer} {view : DestinationYieldView}
    (hviews : b.destinationYields now = (b', views)) :
    view ∈ views ↔ ∃ k y, b'.yields.lookup k = some y ∧ y.view now = view := by
  have hb : b' = (b.destinationYields now).1 := by rw [hviews]
  have hv : views = b'.yields.entries.map fun e => e.2.view now := by
    rw [hb, show views = (b.destinationYields now).2 by rw [hviews]]
    rfl
  rw [hv, List.mem_map]
  constructor
  · rintro ⟨⟨k, y⟩, hmem, hview⟩
    exact ⟨k, y, AList.mem_lookup_iff.mpr hmem, hview⟩
  · rintro ⟨k, y, hlookup, hview⟩
    exact ⟨⟨k, y⟩, AList.mem_lookup_iff.mp hlookup, hview⟩

lemma nano_pos {es : List YieldEvent} (hmeets : Runs.Meets (Regular id) step b es) : ∀ e ∈ es, 0 < e.nano := by
  induction es generalizing b with
  | nil => simp
  | cons e es ih =>
    intro e' he'
    rcases List.mem_cons.mp he' with rfl | he'
    · exact hmeets.1.1
    · exact ih hmeets.2 e' he'

lemma keyed_new : SendBuffer.new.Keyed := by
  intro k y hy
  simp [SendBuffer.new] at hy

theorem silence_from_first_unanswered_write (id : Id) (es : List YieldEvent) (now : Time) (lastWrite : ℤ)
    (horder : (es.map YieldEvent.nano ++ [nanoOf now]).Pairwise (· ≤ ·))
    (hmeets : Runs.Meets (Regular id) step SendBuffer.new (es ++ [.destinationYields now]))
    (hlast : (contactOf id es).lastWrite = some lastWrite) (hrecent : nanoOf now - lastWrite ≤ yieldRetention) :
    ∃ b views view, (Runs.run step SendBuffer.new es).destinationYields now = (b, views) ∧
      (b.yields.lookup id).isSome ∧ view ∈ views ∧ view.destinationId = id ∧
      (∀ other ∈ views, other.destinationId = id → other = view) ∧
      view.silentFor = ((contactOf id es).unanswered.map fun t => nanoOf now - t).getD 0 ∧
      view.sinceLastSend = nanoOf now - lastWrite ∧
      ∀ (policy : DeadClientPolicy) (fleet : List DestinationYieldView), view ∈ fleet →
        policy.silence ≤ policy.hardSilence → policy.hardSilence ≤ view.silentFor →
        lastWrite < nanoOf now → nanoOf now - lastWrite ≤ policy.activeWindow →
        ∃ reason, ⟨view, reason⟩ ∈ (policy.decideDeadClients fleet).release := by
  rw [Runs.meets_append] at hmeets
  obtain ⟨hrun, ⟨hpos, hhigh, hattended⟩, -⟩ := hmeets
  have horder' : ((0 : ℤ) :: es.map YieldEvent.nano).Pairwise (· ≤ ·) := by
    apply List.pairwise_cons.mpr
    refine ⟨?_, (List.pairwise_append.mp horder).1⟩
    intro t ht
    obtain ⟨e, he, rfl⟩ := List.mem_map.mp ht
    exact (nano_pos hrun e he).le
  obtain ⟨latest, hf, hmem⟩ := follows_run (follows_new id le_rfl) horder' hrun
  have hlatest : latest ≤ nanoOf now := by
    rcases List.mem_cons.mp hmem with rfl | hmem
    · exact hpos.le
    · exact (List.pairwise_append.mp horder).2.2 latest hmem _ List.mem_cons_self
  have hkeyed : (Runs.run step SendBuffer.new es).Keyed := Runs.run_invariant (fun b e hb => hb.step e) keyed_new es
  generalize Runs.run step SendBuffer.new es = b at hf hattended hkeyed
  change Follows id (b.yieldFor id) (contactOf id es) latest at hf
  -- The record was written to within the retention, so it has not been dropped.
  have hbounds := hf.lastWrite lastWrite hlast
  have hsent : (b.yieldFor id).lastSendNano ≠ 0 := by
    intro hzero
    have hidle := hf.idle hzero lastWrite hlast
    have hgap : nanoOf now ≤ lastWrite + yieldRetention := Int.le_add_of_sub_left_le hrecent
    exact absurd (hidle.trans_le hlatest) (not_lt.mpr hgap)
  obtain ⟨y, hy⟩ : ∃ y, b.yields.lookup id = some y := by
    cases hlookup : b.yields.lookup id with
    | none =>
      rw [yieldFor, hlookup] at hsent
      exact absurd rfl hsent
    | some y => exact ⟨y, rfl⟩
  have hyield : b.yieldFor id = y := by rw [yieldFor, hy, Option.getD_some]
  rw [hyield] at hf hsent hattended
  have hwrite : y.lastSendNano.toInt = lastWrite := Option.some.inj ((hf.written hsent).symm.trans hlast)
  have hsince : age now y.lastSendNano = nanoOf now - lastWrite := by
    rw [age_eq (by omega) (by omega) hhigh, hwrite]
  have hkept : SendBuffer.forgotten now y = false := by
    have hages := hattended (.inr ⟨hsent, hsince.trans_le hrecent⟩)
    rw [SendBuffer.forgotten, decide_eq_false_iff_not, not_lt]
    exact max_le hages.1 hages.2
  have hlookup : (b.destinationYields now).1.yields.lookup id = some y := by
    rw [lookup_destinationYields, hy, Option.bind_some, hkept]
    rfl
  have hkeyed' : (b.destinationYields now).1.Keyed := hkeyed.step (.destinationYields now)
  refine ⟨(b.destinationYields now).1, (b.destinationYields now).2, y.view now, rfl, by rw [hlookup]; rfl,
    (mem_views rfl).mpr ⟨id, y, hlookup, rfl⟩, hf.destinationId, ?_, ?_, hsince, ?_⟩
  · intro other hother hid
    obtain ⟨k, y', hy', rfl⟩ := (mem_views rfl).mp hother
    obtain rfl : k = id := (hkeyed' k y' hy').symm.trans hid
    rw [Option.some.inj (hlookup.symm.trans hy')]
  · change age now y.silentSinceNano = _
    cases hc : (contactOf id es).unanswered with
    | none =>
      rw [hf.silent_zero_iff.mpr hc, age_zero]
      rfl
    | some t =>
      have ht := hf.unanswered t hc
      have hsilent := hf.silent
      rw [hc, Option.getD_some] at hsilent
      rw [age_eq (by omega) (by omega) hhigh, hsilent]
      rfl
  · intro policy fleet hfleet hlimits hsilent hbefore hactive
    apply DeadClientPolicy.release_of_hardSilence hfleet hlimits hsilent
    · change age now y.lastSendNano ≠ 0
      rw [hsince]
      exact (Int.sub_pos_of_lt hbefore).ne'
    · exact hsince.trans_le hactive

def clockAt (seconds : ℤ) : Time := ⟨Time.unixEpoch + seconds * second, none⟩

def nanoAt (seconds : ℤ) : Int64 := Int64.ofInt (seconds * second)

def neverAnswers : List YieldEvent :=
  [.noteSend (Id.ofByte 1) 100 (nanoAt 1), .destinationYields (clockAt 300), .noteSend (Id.ofByte 1) 100 (nanoAt 700)]

theorem silence_from_first_unanswered_write_released :
    ∃ b views view, (Runs.run step SendBuffer.new neverAnswers).destinationYields (clockAt 701) = (b, views) ∧
      view ∈ views ∧ view.silentFor = 700 * second ∧
      ∀ unhealthy fleet, view ∈ fleet → ∃ reason, ⟨view, reason⟩ ∈
        ((defaultDeadClientPolicy unhealthy).decideDeadClients fleet).release := by
  obtain ⟨b, views, view, hviews, -, hmem, -, -, hsilent, -, hrelease⟩ := silence_from_first_unanswered_write
    (Id.ofByte 1) neverAnswers (clockAt 701) (700 * second) (by decide +kernel) (by decide +kernel)
    (by decide +kernel) (by decide +kernel)
  have hsilent' : view.silentFor = 700 * second := by
    rw [hsilent]
    decide +kernel
  refine ⟨b, views, view, hviews, hmem, hsilent', ?_⟩
  intro unhealthy fleet hfleet
  apply hrelease _ fleet hfleet
  · change 180 * second ≤ 600 * second
    decide
  · rw [hsilent']
    change 600 * second ≤ 700 * second
    decide
  · decide +kernel
  · change nanoOf (clockAt 701) - 700 * second ≤ 120 * second
    decide +kernel

def stopsAnswering : List YieldEvent :=
  [.noteSend (Id.ofByte 1) 100 (nanoAt 1), .noteAck (Id.ofByte 1) 100 (nanoAt 2),
    .noteSend (Id.ofByte 1) 100 (nanoAt 3), .noteSend (Id.ofByte 1) 100 (nanoAt 902)]

theorem silent_destination_forgotten :
    (stopsAnswering.map YieldEvent.nano ++ [nanoOf (clockAt 903)]).Pairwise (· ≤ ·) ∧
      contactOf (Id.ofByte 1) stopsAnswering = ⟨some (3 * second), some (902 * second)⟩ ∧
      ((Runs.run step SendBuffer.new stopsAnswering).destinationYields (clockAt 903)).2 = [] ∧
      (((Runs.run step SendBuffer.new stopsAnswering).destinationYields (clockAt 903)).1.yields.lookup
        (Id.ofByte 1)).isNone := by
  refine ⟨?_, ?_, ?_, ?_⟩ <;> decide +kernel

end SendBuffer

end UrConnect.Transfer.Yield
