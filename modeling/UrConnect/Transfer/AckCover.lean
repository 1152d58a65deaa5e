import UrConnect.Lib.Runs
import UrConnect.Transfer.AckWindow

/-! What a snapshot of the ack window tells of the acks that came in. -/

namespace UrConnect.Transfer.SequenceAckWindow

open Lib.Runs Lib.History

inductive Event where
  | update (ack : SequenceAck)
  | snapshot (reset : Bool)
deriving DecidableEq

def step (w : SequenceAckWindow) : Event → SequenceAckWindow
  | .update ack => w.update ack
  | .snapshot reset => (w.snapshot reset).2

def Event.ack : Event → Option SequenceAck
  | .update ack => some ack
  | .snapshot _ => none

def updated (past : List Event) : List SequenceAck := past.filterMap Event.ack

def Carries (x a : SequenceAck) : Prop :=
  x = { a with unwrapped := x.unwrapped } ∧ (a.unwrapped = true → x.unwrapped = true)

structure Heads (acks : List SequenceAck) (head : Option SequenceAck) : Prop where
  absent : head = none → ∀ a ∈ acks, a.selective = true
  raised : ∀ h, head = some h → Occurs (fun before a after => a.selective = false ∧ Carries h a ∧
    (∀ b ∈ before, b.selective = false → b.sequenceNumber < a.sequenceNumber) ∧
    ∀ b ∈ after, b.selective = false → b.sequenceNumber ≤ a.sequenceNumber) acks

def Touches (earlier : List SequenceAck) (a : SequenceAck) : Prop :=
  (a.selective = false ∧ ∀ b ∈ earlier, b.selective = false → b.sequenceNumber < a.sequenceNumber) ∨
    ∃ b ∈ earlier, b.selective = false ∧ a.sequenceNumber ≤ b.sequenceNumber

def Since (Q : List Event → SequenceAck → List Event → Prop) (past : List Event) : Prop :=
  Occurs (fun before e after => ∃ a, e = .update a ∧ .snapshot true ∉ after ∧ Q before a after) past

def Touched (past : List Event) : Prop := Since (fun before a _ => Touches (updated before) a) past

def Latest (past : List Event) (a : SequenceAck) : Prop :=
  Since (fun _ b after => b = a ∧ a.selective = true ∧
    ∀ c, .update c ∈ after → c.selective = true → c.messageId ≠ a.messageId) past

def Pending (past : List Event) (a : SequenceAck) : Prop := Since (fun _ b _ => b = a) past

def OneNumber (acks : List SequenceAck) : Prop :=
  ∀ a ∈ acks, ∀ b ∈ acks, a.messageId = b.messageId → a.sequenceNumber = b.sequenceNumber

instance (acks : List SequenceAck) : Decidable (OneNumber acks) :=
  inferInstanceAs (Decidable (∀ a ∈ acks, ∀ b ∈ acks, a.messageId = b.messageId → a.sequenceNumber = b.sequenceNumber))

section History

variable {Q : List Event → SequenceAck → List Event → Prop} {past : List Event} {a b : SequenceAck}

@[simp] lemma updated_update (past : List Event) (a : SequenceAck) :
    updated (past ++ [.update a]) = updated past ++ [a] := by
  simp [updated, Event.ack]

@[simp] lemma updated_snapshot (past : List Event) (reset : Bool) :
    updated (past ++ [.snapshot reset]) = updated past := by
  simp [updated, Event.ack]

lemma not_since_nil : ¬ Since Q [] := not_occurs_nil

lemma since_update :
    Since Q (past ++ [.update b]) ↔
      Q past b [] ∨ Since (fun before a after => Q before a (after ++ [.update b])) past := by
  rw [Since, occurs_concat]
  simp [Since]

lemma not_since_reset : ¬ Since Q (past ++ [.snapshot true]) := by
  rw [Since, occurs_concat]
  simp [Occurs]

lemma since_look :
    Since Q (past ++ [.snapshot false]) ↔
      Since (fun before a after => Q before a (after ++ [.snapshot false])) past := by
  rw [Since, occurs_concat]
  simp [Since]

lemma touched_update : Touched (past ++ [.update b]) ↔ Touches (updated past) b ∨ Touched past := since_update

lemma latest_update :
    Latest (past ++ [.update b]) a ↔
      (b = a ∧ a.selective = true) ∨ (Latest past a ∧ (b.selective = true → b.messageId ≠ a.messageId)) := by
  rw [Latest, since_update]
  constructor
  · rintro (⟨rfl, hs, -⟩ | ⟨before, e, after, heq, c, rfl, hreset, rfl, hs, hlater⟩)
    · exact .inl ⟨rfl, hs⟩
    · refine .inr ⟨⟨before, _, after, heq, c, rfl, hreset, rfl, hs, ?_⟩, ?_⟩
      · intro d hd
        exact hlater d (List.mem_append_left _ hd)
      · exact hlater b (by simp)
  · rintro (⟨rfl, hs⟩ | ⟨⟨before, e, after, heq, c, rfl, hreset, rfl, hs, hlater⟩, hother⟩)
    · exact .inl ⟨rfl, hs, by simp⟩
    · refine .inr ⟨before, _, after, heq, c, rfl, hreset, rfl, hs, ?_⟩
      intro d hd
      rcases List.mem_append.mp hd with hd | hd
      · exact hlater d hd
      · obtain rfl : d = b := by simpa using hd
        exact hother

lemma latest_look : Latest (past ++ [.snapshot false]) a ↔ Latest past a := by
  rw [Latest, since_look]
  simp [Latest]

lemma touched_look : Touched (past ++ [.snapshot false]) ↔ Touched past := since_look

lemma pending_update : Pending (past ++ [.update b]) a ↔ b = a ∨ Pending past a := since_update

lemma Latest.mem (h : Latest past a) : a ∈ updated past := by
  obtain ⟨before, e, after, rfl, c, rfl, -, rfl, -⟩ := h
  simp [updated, Event.ack]

lemma Pending.mem (h : Pending past a) : a ∈ updated past := by
  obtain ⟨before, e, after, rfl, c, rfl, -, rfl⟩ := h
  simp [updated, Event.ack]

end History

section Head

variable {w : SequenceAckWindow} {acks : List SequenceAck} {head : Option SequenceAck} {a b x h : SequenceAck}

lemma Carries.mark (h : Carries x a) (u : Bool) : Carries { x with unwrapped := x.unwrapped || u } a := by
  refine ⟨?_, fun hu => ?_⟩
  · rw [h.1]
  · simp [h.2 hu]

lemma carries_marked (a : SequenceAck) (u : Bool) : Carries { a with unwrapped := a.unwrapped || u } a :=
  ⟨rfl, fun hu => by simp [hu]⟩

lemma Carries.sequenceNumber (h : Carries x a) : x.sequenceNumber = a.sequenceNumber := by rw [h.1]

lemma Carries.messageId (h : Carries x a) : x.messageId = a.messageId := by rw [h.1]

lemma not_aboveHead : w.isAboveHead a = false ↔ ∃ h, w.headAck = some h ∧ a.sequenceNumber ≤ h.sequenceNumber := by
  rw [isAboveHead]
  split <;> simp_all

lemma aboveHead : w.isAboveHead a = true ↔ ∀ h, w.headAck = some h → h.sequenceNumber < a.sequenceNumber := by
  rw [isAboveHead]
  split <;> simp_all

lemma Heads.le (hh : Heads acks (some h)) (hb : b ∈ acks) (hcumulative : b.selective = false) :
    b.sequenceNumber ≤ h.sequenceNumber := by
  obtain ⟨before, a, after, rfl, -, hcarries, hbefore, hafter⟩ := hh.raised h rfl
  rw [hcarries.sequenceNumber]
  rcases List.mem_append.mp hb with hb | hb
  · exact Nat.le_of_lt (hbefore b hb hcumulative)
  · rcases List.mem_cons.mp hb with rfl | hb
    · exact Nat.le_refl _
    · exact hafter b hb hcumulative

lemma Heads.mem (hh : Heads acks (some h)) : ∃ a ∈ acks, a.selective = false ∧ h.sequenceNumber = a.sequenceNumber := by
  obtain ⟨before, a, after, rfl, hcumulative, hcarries, -⟩ := hh.raised h rfl
  exact ⟨a, by simp, hcumulative, hcarries.sequenceNumber⟩

lemma heads_nil : Heads [] none := ⟨by simp, by simp⟩

lemma Heads.keeps (hh : Heads acks head) (u : Bool)
    (hb : b.selective = false → ∃ h, head = some h ∧ b.sequenceNumber ≤ h.sequenceNumber) :
    Heads (acks ++ [b]) (head.map fun h => { h with unwrapped := h.unwrapped || u }) := by
  refine ⟨fun hnone => ?_, fun h' hh' => ?_⟩
  · have hnone : head = none := by simpa using hnone
    intro a ha
    rcases List.mem_append.mp ha with ha | ha
    · exact hh.absent hnone a ha
    · obtain rfl : a = b := by simpa using ha
      by_contra hcumulative
      obtain ⟨h, hh, -⟩ := hb (by simpa using hcumulative)
      simp [hnone] at hh
  · obtain ⟨h, rfl, rfl⟩ := Option.map_eq_some_iff.mp hh'
    rw [occurs_concat]
    obtain ⟨before, a, after, rfl, hcumulative, hcarries, hbefore, hafter⟩ := hh.raised h rfl
    refine .inr ⟨before, a, after, rfl, hcumulative, hcarries.mark u, hbefore, ?_⟩
    intro c hc hcc
    rcases List.mem_append.mp hc with hc | hc
    · exact hafter c hc hcc
    · obtain rfl : c = b := by simpa using hc
      obtain ⟨h', heq, hle⟩ := hb hcc
      cases heq
      rw [← hcarries.sequenceNumber]
      exact hle

lemma Heads.raises (hh : Heads acks head) (u : Bool) (hcumulative : b.selective = false)
    (hb : ∀ h, head = some h → h.sequenceNumber < b.sequenceNumber) :
    Heads (acks ++ [b]) (some { b with unwrapped := b.unwrapped || u }) := by
  refine ⟨nofun, fun h' heq => ?_⟩
  cases heq
  rw [occurs_concat]
  refine .inl ⟨hcumulative, carries_marked b u, fun c hc hcc => ?_, by simp⟩
  cases head with
  | none => simp [hh.absent rfl c hc] at hcc
  | some h => exact Nat.lt_of_le_of_lt (hh.le hc hcc) (hb h rfl)

lemma touches_iff (hh : Heads acks w.headAck) :
    Touches acks b ↔ ¬ (w.isAboveHead b = true ∧ b.selective = true) := by
  constructor
  · rintro htouches ⟨habove, hselective⟩
    rcases htouches with ⟨hcumulative, -⟩ | ⟨c, hc, hcumulative, hle⟩
    · simp [hselective] at hcumulative
    · cases heq : w.headAck with
      | none => simp [hh.absent heq c hc] at hcumulative
      | some h =>
        rw [heq] at hh
        have := aboveHead.mp habove h heq
        have := hh.le hc hcumulative
        omega
  · intro hnot
    cases habove : w.isAboveHead b with
    | true =>
      have hcumulative : b.selective = false := by simpa [habove] using hnot
      refine .inl ⟨hcumulative, fun c hc hcc => ?_⟩
      cases heq : w.headAck with
      | none => simp [hh.absent heq c hc] at hcc
      | some h =>
        rw [heq] at hh
        exact Nat.lt_of_le_of_lt (hh.le hc hcc) (aboveHead.mp habove h heq)
    | false =>
      obtain ⟨h, heq, hle⟩ := not_aboveHead.mp habove
      rw [heq] at hh
      obtain ⟨a, ha, hcumulative, hnumber⟩ := hh.mem
      exact .inr ⟨a, ha, hcumulative, hnumber ▸ hle⟩

end Head

section Cover

variable {w w' : SequenceAckWindow} {past : List Event} {a b x : SequenceAck}

inductive Updates (w w' : SequenceAckWindow) (b : SequenceAck) : Prop
  | put (u : Bool) (above : w.isAboveHead b = true) (selective : b.selective = true) (head : w'.headAck = w.headAck)
      (count : w'.ackUpdateCount = w.ackUpdateCount)
      (acks : w'.selectiveAcks = putSelective w.selectiveAcks { b with unwrapped := b.unwrapped || u })
  | raise (u : Bool) (above : w.isAboveHead b = true) (cumulative : b.selective = false)
      (head : w'.headAck = some { b with unwrapped := b.unwrapped || u })
      (count : 0 < w'.ackUpdateCount) (acks : w'.selectiveAcks = w.selectiveAcks)
  | past (u : Bool) (below : w.isAboveHead b = false)
      (head : w'.headAck = w.headAck.map fun h => { h with unwrapped := h.unwrapped || u })
      (count : 0 < w'.ackUpdateCount) (acks : w'.selectiveAcks = w.selectiveAcks)

@[simp] lemma signalHoleFilled_selectiveAcks (w : SequenceAckWindow) :
    w.signalHoleFilled.selectiveAcks = w.selectiveAcks := by
  rw [signalHoleFilled]
  split <;> rfl

@[simp] lemma signalHoleProvable_selectiveAcks (w : SequenceAckWindow) :
    w.signalHoleProvable.selectiveAcks = w.selectiveAcks := by
  rw [signalHoleProvable]
  split <;> rfl

@[simp] lemma signalHoleProvable_ackUpdateCount (w : SequenceAckWindow) :
    w.signalHoleProvable.ackUpdateCount = w.ackUpdateCount := by
  rw [signalHoleProvable]
  split <;> rfl

lemma updateSelective_ackUpdateCount (w : SequenceAckWindow) (b : SequenceAck) :
    (w.updateSelective b).ackUpdateCount = w.ackUpdateCount := by
  rw [updateSelective, apply_ite SequenceAckWindow.ackUpdateCount, signalHoleProvable_ackUpdateCount]
  exact ite_self _

lemma updateSelective_selectiveAcks (w : SequenceAckWindow) (b : SequenceAck) :
    (w.updateSelective b).selectiveAcks = putSelective w.selectiveAcks { b with
      unwrapped := b.unwrapped || (w.selectiveAcks.find? fun a => a.messageId = b.messageId).any fun a => a.unwrapped } := by
  rw [updateSelective, apply_ite SequenceAckWindow.selectiveAcks, signalHoleProvable_selectiveAcks]
  exact ite_self _

lemma updateHead_selectiveAcks (w : SequenceAckWindow) (b : SequenceAck) :
    (w.updateHead b).selectiveAcks = w.selectiveAcks := by
  simp only [updateHead]
  split <;> simp

lemma update_updates (w : SequenceAckWindow) (b : SequenceAck) : Updates w (w.update b) b := by
  rw [update]
  cases habove : w.isAboveHead b with
  | false => exact .past b.unwrapped habove rfl (Nat.succ_pos _) rfl
  | true =>
    cases hselective : b.selective with
    | true =>
      exact .put _ habove hselective (updateSelective_headAck w b) (updateSelective_ackUpdateCount w b)
        (updateSelective_selectiveAcks w b)
    | false =>
      refine .raise ((w.headAck.any fun h => h.unwrapped) ||
        w.selectiveAcks.any fun a => a.unwrapped && decide (a.sequenceNumber ≤ b.sequenceNumber))
        habove hselective ?_ (Nat.succ_pos _) (updateHead_selectiveAcks w b)
      simp [updateHead, Bool.or_assoc]

lemma Updates.aboveHead_of (h : Updates w w' b) (ha : w'.isAboveHead a = true) : w.isAboveHead a = true := by
  rw [aboveHead] at ha ⊢
  intro head hhead
  cases h with
  | put _ _ _ hsame => exact ha head (hsame.trans hhead)
  | raise _ habove _ hraised =>
    have hlt := ha _ hraised
    exact Nat.lt_trans (aboveHead.mp habove head hhead) hlt
  | past _ _ hsame =>
    rw [hhead] at hsame
    have hlt := ha _ hsame
    exact hlt

lemma isAboveHead_marked {u : Bool}
    (head : w'.headAck = w.headAck.map fun h => { h with unwrapped := h.unwrapped || u }) (a : SequenceAck) :
    w'.isAboveHead a = w.isAboveHead a := by
  rw [isAboveHead, isAboveHead, head]
  cases w.headAck <;> rfl

lemma mem_putSelective {acks : List SequenceAck} :
    x ∈ putSelective acks b ↔ x = b ∨ x ∈ acks ∧ x.messageId ≠ b.messageId := by
  simp [putSelective]

structure Covers (past : List Event) (w : SequenceAckWindow) : Prop where
  head : Heads (updated past) w.headAck
  count : 0 < w.ackUpdateCount ↔ Touched past
  nodup : (w.selectiveAcks.map SequenceAck.messageId).Nodup
  fresh : w.ackUpdateCount = 0 → ∀ x ∈ w.selectiveAcks, w.isAboveHead x = true
  complete : ∀ a, Latest past a → w.isAboveHead a = true → ∃ x ∈ w.selectiveAcks, Carries x a
  sound : OneNumber (updated past) → ∀ x ∈ w.selectiveAcks, w.isAboveHead x = true → ∃ a, Latest past a ∧ Carries x a
  pending : ∀ a, Pending past a → w.isAboveHead a = false ∧ 0 < w.ackUpdateCount ∨
    w.isAboveHead a = true ∧ (OneNumber (updated past) →
      ∃ x ∈ w.selectiveAcks, x.messageId = a.messageId ∧ x.sequenceNumber = a.sequenceNumber)

lemma isAboveHead_congr (h : x.sequenceNumber = a.sequenceNumber) : w.isAboveHead x = w.isAboveHead a := by
  rw [isAboveHead, isAboveHead, h]

lemma isAboveHead_same (head : w'.headAck = w.headAck) (a : SequenceAck) : w'.isAboveHead a = w.isAboveHead a := by
  rw [isAboveHead, isAboveHead, head]

lemma OneNumber.init (h : OneNumber (updated (past ++ [.update b]))) : OneNumber (updated past) := by
  rw [updated_update] at h
  intro a ha c hc
  exact h a (List.mem_append_left _ ha) c (List.mem_append_left _ hc)

lemma OneNumber.last (h : OneNumber (updated (past ++ [.update b]))) (ha : a ∈ updated past)
    (hid : b.messageId = a.messageId) : b.sequenceNumber = a.sequenceNumber := by
  rw [updated_update] at h
  exact h b (by simp) a (List.mem_append_left _ ha) hid

lemma covers_new (n : ℕ) : Covers [] (newSequenceAckWindowWithGapWake n) where
  head := heads_nil
  count := ⟨nofun, fun h => (not_since_nil h).elim⟩
  nodup := List.nodup_nil
  fresh _ _ hx := nomatch hx
  complete _ h := (not_since_nil h).elim
  sound _ _ hx := nomatch hx
  pending _ h := (not_since_nil h).elim

lemma Covers.put (h : Covers past w) (u : Bool) (habove : w.isAboveHead b = true) (hselective : b.selective = true)
    (head : w'.headAck = w.headAck) (count : w'.ackUpdateCount = w.ackUpdateCount)
    (acks : w'.selectiveAcks = putSelective w.selectiveAcks { b with unwrapped := b.unwrapped || u }) :
    Covers (past ++ [.update b]) w' := by
  have hmem (x : SequenceAck) : x ∈ w'.selectiveAcks ↔
      x = { b with unwrapped := b.unwrapped || u } ∨ x ∈ w.selectiveAcks ∧ x.messageId ≠ b.messageId := by
    rw [acks, mem_putSelective]
  constructor
  · rw [updated_update, head]
    have hkeep := h.head.keeps (b := b) false (fun hc => by simp [hselective] at hc)
    simpa using hkeep
  · rw [count, touched_update, touches_iff h.head, h.count]
    simp [habove, hselective]
  · rw [acks, putSelective, List.map_cons, List.nodup_cons]
    refine ⟨by simp, ?_⟩
    exact h.nodup.sublist (List.filter_sublist.map _)
  · intro hzero x hx
    rw [isAboveHead_same head]
    rcases (hmem x).mp hx with rfl | ⟨hx, -⟩
    · exact habove
    · exact h.fresh (count ▸ hzero) x hx
  · intro a ha habove'
    rcases latest_update.mp ha with ⟨rfl, -⟩ | ⟨ha, hother⟩
    · exact ⟨_, (hmem _).mpr (.inl rfl), carries_marked b u⟩
    · rw [isAboveHead_same head] at habove'
      obtain ⟨x, hx, hcarries⟩ := h.complete a ha habove'
      refine ⟨x, (hmem x).mpr (.inr ⟨hx, ?_⟩), hcarries⟩
      rw [hcarries.messageId]
      exact (hother hselective).symm
  · intro hone x hx habove'
    rcases (hmem x).mp hx with rfl | ⟨hx, hother⟩
    · exact ⟨b, latest_update.mpr (.inl ⟨rfl, hselective⟩), carries_marked b u⟩
    · rw [isAboveHead_same head] at habove'
      obtain ⟨a, ha, hcarries⟩ := h.sound hone.init x hx habove'
      refine ⟨a, latest_update.mpr (.inr ⟨ha, fun _ => ?_⟩), hcarries⟩
      rw [← hcarries.messageId]
      exact hother.symm
  · intro a ha
    rw [isAboveHead_same head, count]
    rcases pending_update.mp ha with rfl | ha
    · exact .inr ⟨habove, fun _ => ⟨_, (hmem _).mpr (.inl rfl), rfl, rfl⟩⟩
    · rcases h.pending a ha with hbelow | ⟨habove', hx⟩
      · exact .inl hbelow
      · refine .inr ⟨habove', fun hone => ?_⟩
        obtain ⟨x, hx, hid, hnumber⟩ := hx hone.init
        by_cases hb : b.messageId = a.messageId
        · exact ⟨_, (hmem _).mpr (.inl rfl), hb, hone.last ha.mem hb⟩
        · exact ⟨x, (hmem x).mpr (.inr ⟨hx, fun heq => hb (heq ▸ hid)⟩), hid, hnumber⟩

lemma Covers.folds (h : Covers past w) (head : Heads (updated past ++ [b]) w'.headAck)
    (htouches : Touches (updated past) b) (count : 0 < w'.ackUpdateCount) (acks : w'.selectiveAcks = w.selectiveAcks)
    (hbelow : w'.isAboveHead b = false) (hrises : ∀ a, w'.isAboveHead a = true → w.isAboveHead a = true) :
    Covers (past ++ [.update b]) w' := by
  constructor
  · rw [updated_update]
    exact head
  · rw [touched_update]
    exact iff_of_true count (.inl htouches)
  · rw [acks]
    exact h.nodup
  · intro hzero
    omega
  · intro a ha habove
    rw [acks]
    rcases latest_update.mp ha with ⟨rfl, -⟩ | ⟨ha, -⟩
    · simp [hbelow] at habove
    · exact h.complete a ha (hrises a habove)
  · intro hone x hx habove
    rw [acks] at hx
    obtain ⟨a, ha, hcarries⟩ := h.sound hone.init x hx (hrises x habove)
    refine ⟨a, latest_update.mpr (.inr ⟨ha, fun _ hid => ?_⟩), hcarries⟩
    have hnumber := (hone.last ha.mem hid).trans hcarries.sequenceNumber.symm
    rw [isAboveHead_congr hnumber, habove] at hbelow
    cases hbelow
  · intro a ha
    cases habove : w'.isAboveHead a with
    | false => exact .inl ⟨rfl, count⟩
    | true =>
      rcases pending_update.mp ha with rfl | ha
      · simp [hbelow] at habove
      · rcases h.pending a ha with ⟨hold, -⟩ | ⟨-, hx⟩
        · simp [hrises a habove] at hold
        · rw [acks]
          exact .inr ⟨rfl, fun hone => hx hone.init⟩

lemma Covers.update (h : Covers past w) (b : SequenceAck) : Covers (past ++ [.update b]) (w.update b) := by
  have hrises (a : SequenceAck) : (w.update b).isAboveHead a = true → w.isAboveHead a = true :=
    (update_updates w b).aboveHead_of
  cases update_updates w b with
  | put u habove hselective head count acks => exact h.put u habove hselective head count acks
  | raise u habove hcumulative head count acks =>
    refine h.folds ?_ ?_ count acks ?_ hrises
    · rw [head]
      exact h.head.raises u hcumulative (aboveHead.mp habove)
    · rw [touches_iff h.head]
      simp [hcumulative]
    · rw [not_aboveHead]
      exact ⟨_, head, Nat.le_refl _⟩
  | past u hbelow head count acks =>
    refine h.folds ?_ ?_ count acks ?_ hrises
    · rw [head]
      exact h.head.keeps u (fun _ => not_aboveHead.mp hbelow)
    · rw [touches_iff h.head]
      simp [hbelow]
    · rw [isAboveHead_marked head]
      exact hbelow

lemma Covers.reset (h : Covers past w) : Covers (past ++ [.snapshot true]) (w.snapshot true).2 where
  head := by
    rw [updated_snapshot]
    exact h.head
  count := ⟨nofun, fun h => (not_since_reset h).elim⟩
  nodup := List.nodup_nil
  fresh _ _ hx := nomatch hx
  complete _ h := (not_since_reset h).elim
  sound _ _ hx := nomatch hx
  pending _ h := (not_since_reset h).elim

lemma Covers.look (h : Covers past w) : Covers (past ++ [.snapshot false]) w where
  head := by simpa using h.head
  count := h.count.trans touched_look.symm
  nodup := h.nodup
  fresh := h.fresh
  complete a ha := h.complete a (latest_look.mp ha)
  sound hone x hx habove := by
    rw [updated_snapshot] at hone
    obtain ⟨a, ha, hcarries⟩ := h.sound hone x hx habove
    exact ⟨a, latest_look.mpr ha, hcarries⟩
  pending a ha := by
    rw [updated_snapshot]
    exact h.pending a (since_look.mp ha)

lemma covers_run (n : ℕ) (events : List Event) :
    Covers events (run step (newSequenceAckWindowWithGapWake n) events) := by
  have hstep : ∀ past w e, Covers past w → True → Covers (past ++ [e]) (step w e) := by
    intro past w e h _
    match e with
    | .update b => exact h.update b
    | .snapshot true => exact h.reset
    | .snapshot false => exact h.look
  exact history_invariant hstep (covers_new n) (meets_of_forall (P := fun _ => True) (fun _ _ => trivial) _)

lemma Covers.mem_snapshot (h : Covers past w) :
    x ∈ w.snapshotSelective ↔ x ∈ w.selectiveAcks ∧ w.isAboveHead x = true := by
  rw [snapshotSelective]
  split
  · simp
  · rename_i hzero
    exact ⟨fun hx => ⟨hx, h.fresh (by omega) x hx⟩, And.left⟩

/-- Every snapshot shows the head, whether the head has to be written again, and, as long as a message keeps
its sequence number, the last selective ack of each message above the head: no ack since the last reset is lost. -/
theorem snapshot_loses_no_ack (gapWakeSelectiveCount : ℕ) (events : List Event) (reset : Bool) :
    let w := run step (newSequenceAckWindowWithGapWake gapWakeSelectiveCount) events
    let snapshot := (w.snapshot reset).1
    Heads (updated events) snapshot.headAck ∧
    (0 < snapshot.ackUpdateCount ↔ Touched events) ∧
    (0 < snapshot.ackUpdateCount → snapshot.headAck.isSome = true) ∧
    (snapshot.selectiveAcks.map SequenceAck.messageId).Nodup ∧
    (OneNumber (updated events) →
      (∀ x ∈ snapshot.selectiveAcks, ∃ a, Latest events a ∧ w.isAboveHead a = true ∧ Carries x a) ∧
      (∀ a, Latest events a → w.isAboveHead a = true → ∃ x ∈ snapshot.selectiveAcks, Carries x a) ∧
      ∀ a, Pending events a →
        (∃ h, snapshot.headAck = some h ∧ a.sequenceNumber ≤ h.sequenceNumber ∧ 0 < snapshot.ackUpdateCount) ∨
        ∃ x ∈ snapshot.selectiveAcks, x.messageId = a.messageId) := by
  intro w snapshot
  have h : Covers events w := covers_run gapWakeSelectiveCount events
  refine ⟨h.head, h.count, fun hcount => ?_, ?_, fun hone => ⟨?_, ?_, ?_⟩⟩
  · obtain ⟨before, e, after, rfl, a, rfl, -, htouches⟩ := h.count.mp hcount
    rw [Option.isSome_iff_ne_none]
    intro hnone
    have hselective := h.head.absent hnone
    rcases htouches with ⟨hcumulative, -⟩ | ⟨b, hb, hcumulative, -⟩
    · simp [hselective a (by simp [updated, Event.ack])] at hcumulative
    · have hmem : b ∈ updated (before ++ .update a :: after) := by
        rw [updated, List.filterMap_append]
        exact List.mem_append_left _ hb
      simp [hselective b hmem] at hcumulative
  · refine h.nodup.sublist (List.Sublist.map _ ?_)
    change w.snapshotSelective.Sublist w.selectiveAcks
    rw [snapshotSelective]
    split
    · exact List.filter_sublist
    · exact List.Sublist.refl _
  · intro x hx
    obtain ⟨hx, habove⟩ := h.mem_snapshot.mp hx
    obtain ⟨a, ha, hcarries⟩ := h.sound hone x hx habove
    exact ⟨a, ha, (isAboveHead_congr hcarries.sequenceNumber) ▸ habove, hcarries⟩
  · intro a ha habove
    obtain ⟨x, hx, hcarries⟩ := h.complete a ha habove
    exact ⟨x, h.mem_snapshot.mpr ⟨hx, (isAboveHead_congr hcarries.sequenceNumber).trans habove⟩, hcarries⟩
  · intro a ha
    rcases h.pending a ha with ⟨hbelow, hcount⟩ | ⟨habove, hx⟩
    · obtain ⟨head, hhead, hle⟩ := not_aboveHead.mp hbelow
      exact .inl ⟨head, hhead, hle, hcount⟩
    · obtain ⟨x, hx, hid, hnumber⟩ := hx hone
      exact .inr ⟨x, h.mem_snapshot.mpr ⟨hx, (isAboveHead_congr hnumber).trans habove⟩, hid⟩

def sampleAck (id : UInt8) (sequenceNumber : ℕ) (selective : Bool) : SequenceAck :=
  ⟨sequenceNumber, .ofByte id, selective, none, false⟩

def sampleUpdates : List Event := [.update (sampleAck 7 5 true), .update (sampleAck 6 4 false)]

theorem snapshot_of_sampleUpdates :
    OneNumber (updated sampleUpdates) ∧ Pending sampleUpdates (sampleAck 7 5 true) ∧
    ((∃ h, ((run step (newSequenceAckWindowWithGapWake 3) sampleUpdates).snapshot true).1.headAck = some h ∧
        5 ≤ h.sequenceNumber ∧
        0 < ((run step (newSequenceAckWindowWithGapWake 3) sampleUpdates).snapshot true).1.ackUpdateCount) ∨
      ∃ x ∈ ((run step (newSequenceAckWindowWithGapWake 3) sampleUpdates).snapshot true).1.selectiveAcks,
        x.messageId = .ofByte 7) := by
  have hone : OneNumber (updated sampleUpdates) := by decide
  have hpending : Pending sampleUpdates (sampleAck 7 5 true) :=
    ⟨[], _, [.update (sampleAck 6 4 false)], rfl, _, rfl, by decide, rfl⟩
  have h := snapshot_loses_no_ack 3 sampleUpdates true
  exact ⟨hone, hpending, (h.2.2.2.2 hone).2.2 _ hpending⟩

def renumbered : List Event :=
  [.update (sampleAck 7 5 true), .update (sampleAck 7 3 true), .update (sampleAck 6 4 false)]

theorem renumbered_ack_is_lost :
    let snapshot := ((run step (newSequenceAckWindowWithGapWake 3) renumbered).snapshot true).1
    Pending renumbered (sampleAck 7 5 true) ∧
    (∀ h, snapshot.headAck = some h → h.sequenceNumber < (sampleAck 7 5 true).sequenceNumber) ∧
    ∀ x ∈ snapshot.selectiveAcks, x.messageId ≠ (sampleAck 7 5 true).messageId := by
  refine ⟨⟨[], _, [.update (sampleAck 7 3 true), .update (sampleAck 6 4 false)], rfl, _, rfl, by decide, rfl⟩, ?_, ?_⟩
  · decide
  · decide

end Cover

end UrConnect.Transfer.SequenceAckWindow
