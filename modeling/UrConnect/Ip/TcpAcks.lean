import UrConnect.Ip.TcpMoves

/-! The acks of the source against what has been sent to it. -/

namespace UrConnect.Ip.Tcp

open Lib.SerialNumber Lib.Runs

structure Observed where
  acked : ℕ
  window : UInt32

def Observed.after (isn : UInt32) (w : TcpSequence) (o : Observed) : Event → Observed
  | .segment tcp _ =>
    if w.sending = .listening ∧ tcp.syn = true then ⟨0, tcp.windowSize.toUInt32 <<< tcp.options.windowScale⟩
    else if w.Acked tcp then
      ⟨o.acked + (tcp.ackNumber - serial isn o.acked).toNat, tcp.windowSize.toUInt32 <<< w.receiveWindowScale⟩
    else o
  | _ => o

def watch (settings : TcpBufferSettings) (isn : UInt32) (s : TcpSequence × Observed) (e : Event) :
    TcpSequence × Observed :=
  (s.1.step settings e, s.2.after isn s.1 e)

/-- The first SYN has the initial sequence number, and acks lie between the last one and what has been sent. -/
def CorrectSource (isn : UInt32) (w : TcpSequence) : Event → Prop
  | .segment tcp _ =>
    (w.sending = .listening → tcp.syn = true → tcp.seq = isn) ∧
      (w.Acked tcp → tcp.ackNumber - w.receiveSeqAck ≤ w.receiveSeq - w.receiveSeqAck)
  | _ => True

/-- The ack number does not come round, and a read is of less than 2 GiB. -/
def Unwrapped (w : TcpSequence) : Event → Prop
  | .segment tcp _ => w.Acked tcp → w.receiveSeqAck ≤ tcp.ackNumber
  | .read bytes _ => bytes.length < 2 ^ 31
  | _ => True

structure Accurate (isn : UInt32) (w : TcpSequence) (o : Observed) : Prop where
  receiveSeq : w.receiveSeq = serial isn (totalLength w.packets)
  receiveSeqAck : w.receiveSeqAck = serial isn o.acked
  receiveWindowSize : w.receiveWindowSize = o.window
  acked_le : o.acked ≤ totalLength w.packets
  waits : ∀ n < 2 ^ 31,
    w.WindowWaits n ↔ w.receiveWindowSize.toNat < totalLength w.packets - o.acked + n

lemma toNat_window_lt (windowSize : UInt16) {scale : UInt32} (h : scale ≤ 14) :
    (windowSize.toUInt32 <<< scale).toNat < 2 ^ 30 := by
  have hscale : scale.toNat ≤ 14 := UInt32.le_iff_toNat_le.mp h
  have hsize := windowSize.toNat_lt
  have hmod : scale.toNat % 32 = scale.toNat := Nat.mod_eq_of_lt (by omega)
  rw [UInt32.toNat_shiftLeft, hmod, UInt16.toNat_toUInt32, Nat.shiftLeft_eq]
  calc windowSize.toNat * 2 ^ scale.toNat % 2 ^ 32 ≤ windowSize.toNat * 2 ^ scale.toNat := Nat.mod_le _ _
    _ ≤ windowSize.toNat * 2 ^ 14 := Nat.mul_le_mul_left _ (Nat.pow_le_pow_right (by omega) hscale)
    _ < 2 ^ 30 := by omega

structure Tracks (isn : UInt32) (d : Download) (o : Observed) : Prop where
  receiveSeq : d.receiveSeq = serial isn (totalLength d.packets)
  receiveSeqAck : d.receiveSeqAck = serial isn o.acked
  receiveWindowSize : d.receiveWindowSize = o.window
  acked_le : o.acked ≤ totalLength d.packets
  near : totalLength d.packets + (if d.reading = .closed then 0 else 1) ≤ o.acked + 2 ^ 30
  scale : d.receiveWindowScale ≤ 14
  window : d.receiveWindowSize.toNat < 2 ^ 30
  held : ∀ bytes eof, d.reading = .holding bytes eof → bytes.length < 2 ^ 31

namespace Tracks

variable {settings : TcpBufferSettings} {isn : UInt32} {w : TcpSequence} {d : Download} {o : Observed} {e : Event}

lemma near_le (h : Tracks isn d o) : totalLength d.packets ≤ o.acked + 2 ^ 30 :=
  (Nat.le_add_right _ _).trans h.near

lemma outstanding (h : Tracks isn d o) :
    (d.receiveSeq - d.receiveSeqAck).toNat = totalLength d.packets - o.acked := by
  have hnear := h.near_le
  rw [h.receiveSeq, h.receiveSeqAck]
  exact toNat_serial_sub isn h.acked_le (by omega)

lemma waits (h : Tracks isn w.download o) {n : ℕ} (hn : n < 2 ^ 31) :
    w.WindowWaits n ↔ w.receiveWindowSize.toNat < totalLength w.packets - o.acked + n := by
  have hnear : totalLength w.packets ≤ o.acked + 2 ^ 30 := h.near_le
  have hdistance : (w.receiveSeq - w.receiveSeqAck).toNat = totalLength w.packets - o.acked := h.outstanding
  have hn32 : n < UInt32.size := hn.trans (by decide)
  rw [ConnectionState.WindowWaits, UInt32.lt_iff_toNat_lt, UInt32.toNat_add, hdistance,
    UInt32.toNat_ofNat_of_lt' hn32, Nat.mod_eq_of_lt (by omega)]

lemma accurate (h : Tracks isn w.download o) : Accurate isn w o :=
  ⟨h.receiveSeq, h.receiveSeqAck, h.receiveWindowSize, h.acked_le, fun _ hn => h.waits hn⟩

lemma ack {tcp : Segment} {now : UInt32} (h : Tracks isn w.download o) (hacked : w.Acked tcp)
    (hcorrect : tcp.ackNumber - w.receiveSeqAck ≤ w.receiveSeq - w.receiveSeqAck)
    (hunwrapped : w.receiveSeqAck ≤ tcp.ackNumber) :
    Tracks isn { w.download with
        receiveSeqAck := (w.toConnectionState.receiveAck tcp).receiveSeqAck
        receiveWindowSize := (w.toConnectionState.receiveAck tcp).receiveWindowSize }
      (o.after isn w (.segment tcp now)) := by
  have hafter : o.after isn w (.segment tcp now) =
      ⟨o.acked + (tcp.ackNumber - serial isn o.acked).toNat, tcp.windowSize.toUInt32 <<< w.receiveWindowScale⟩ := by
    have hready : w.sending ≠ .listening := by
      rw [hacked.1]
      nofun
    rw [Observed.after, if_neg fun hc => hready hc.1, if_pos hacked]
  obtain ⟨hseqAck, hwindow⟩ := w.toConnectionState.receiveAck_of_le hacked.2.2.2 hunwrapped
  have hsource : w.receiveSeqAck = serial isn o.acked := h.receiveSeqAck
  have hdistance : (w.receiveSeq - w.receiveSeqAck).toNat = totalLength w.packets - o.acked := h.outstanding
  have hle : (tcp.ackNumber - serial isn o.acked).toNat ≤ totalLength w.packets - o.acked := by
    rw [← hdistance, ← hsource]
    exact UInt32.le_iff_toNat_le.mp hcorrect
  have hbefore : o.acked ≤ totalLength w.packets := h.acked_le
  have hnear : totalLength w.packets + (if w.reading = .closed then 0 else 1) ≤ o.acked + 2 ^ 30 := h.near
  rw [hafter, hseqAck, hwindow]
  refine ⟨h.receiveSeq, (serial_toNat_sub _ _).symm, rfl, ?_, ?_, h.scale, toNat_window_lt _ h.scale, h.held⟩
  · change o.acked + (tcp.ackNumber - serial isn o.acked).toNat ≤ totalLength w.packets
    omega
  · change totalLength w.packets + (if w.reading = .closed then 0 else 1) ≤
      o.acked + (tcp.ackNumber - serial isn o.acked).toNat + 2 ^ 30
    omega

lemma after_of_silent (hconnected : w.Connected) (hsilent : w.Silent e) : o.after isn w e = o := by
  cases e with
  | segment tcp now =>
    have hstarted : w.sending ≠ .listening := by
      intro hlistening
      rw [TcpSequence.Connected, hlistening] at hconnected
      exact hconnected
    rw [Observed.after, if_neg fun hc => hstarted hc.1, if_neg hsilent]
  | _ => rfl

lemma moves (h : Tracks isn w.download o) (hconnected : w.Connected) (hcorrect : CorrectSource isn w e)
    (hunwrapped : Unwrapped w e) (hmoves : w.Moves settings e d) : Tracks isn d (o.after isn w e) := by
  have hnear : totalLength w.packets + (if w.reading = .closed then 0 else 1) ≤ o.acked + 2 ^ 30 := h.near
  have hle : o.acked ≤ totalLength w.packets := h.acked_le
  have hseq : w.receiveSeq = serial isn (totalLength w.packets) := h.receiveSeq
  cases hmoves with
  | away _ silent =>
    rw [after_of_silent hconnected silent]
    exact h
  | ack tcp now acked => exact h.ack acked (hcorrect.2 acked) (hunwrapped acked)
  | hold bytes eof reading =>
    rw [if_neg (by rw [reading]; nofun)] at hnear
    refine ⟨h.receiveSeq, h.receiveSeqAck, h.receiveWindowSize, h.acked_le, hnear, h.scale, h.window, ?_⟩
    rintro _ _ ⟨⟩
    exact hunwrapped
  | pass now eof reading =>
    rw [if_neg (by rw [reading]; nofun)] at hnear
    refine ⟨h.receiveSeq, h.receiveSeqAck, h.receiveWindowSize, h.acked_le, ?_, h.scale, h.window, ?_⟩
    · cases eof <;> exact hnear
    · cases eof <;> nofun
  | forward now bytes eof packets reading window made =>
    obtain ⟨-, -, hlength, -⟩ := w.toConnectionState.dataPackets_spec made
    rw [h.waits (h.held bytes eof reading), not_lt] at window
    have hwindow : w.receiveWindowSize.toNat < 2 ^ 30 := h.window
    have htotal : totalLength (w.packets ++ packets) = totalLength w.packets + bytes.length := by
      rw [totalLength_append, hlength]
    refine ⟨?_, h.receiveSeqAck, h.receiveWindowSize, ?_, ?_, h.scale, h.window, ?_⟩
    · rw [htotal, hseq]
      exact serial_add isn _ _
    · rw [htotal]
      exact hle.trans (Nat.le_add_right _ _)
    · have hopen : (if eof then Reading.finishing else .ready) ≠ .closed := by cases eof <;> nofun
      dsimp only
      rw [htotal, if_neg hopen]
      exact (by omega : totalLength w.packets + bytes.length + 1 ≤ o.acked + 2 ^ 30)
    · cases eof <;> nofun
  | fail now bytes eof reading =>
    refine ⟨h.receiveSeq, h.receiveSeqAck, h.receiveWindowSize, h.acked_le, ?_, h.scale, h.window, nofun⟩
    exact (Nat.le_add_right _ _).trans hnear
  | emit _ silent p reading seq ackNumber payload length same =>
    rw [after_of_silent hconnected silent]
    have htotal : totalLength (w.packets ++ [p]) = totalLength w.packets := by
      rw [totalLength_append, totalLength_cons, length, totalLength_nil]
      rfl
    refine ⟨?_, h.receiveSeqAck, h.receiveWindowSize, ?_, ?_, h.scale, h.window, ?_⟩
    · rw [htotal]
      exact h.receiveSeq
    · rw [htotal]
      exact h.acked_le
    · dsimp only
      rw [htotal]
      rcases same with rfl | rfl
      · exact hnear
      · exact (Nat.le_add_right _ _).trans hnear
    · rcases same with rfl | rfl
      · exact h.held
      · nofun
  | finish now reading =>
    have htotal : totalLength (w.packets ++ [w.finAck now]) = totalLength w.packets + 1 := by
      rw [totalLength_append]
      rfl
    rw [if_neg (by rw [reading]; nofun)] at hnear
    refine ⟨?_, h.receiveSeqAck, h.receiveWindowSize, ?_, ?_, h.scale, h.window, nofun⟩
    · rw [htotal, hseq]
      exact serial_succ isn _
    · rw [htotal]
      exact hle.trans (Nat.le_succ _)
    · dsimp only
      rw [htotal]
      exact hnear

end Tracks

variable {settings : TcpBufferSettings} {isn : UInt32} {w : TcpSequence} {o : Observed} {e : Event}

def Watched (isn : UInt32) (w : TcpSequence) (o : Observed) : Prop :=
  match w.sending with
  | .listening => w.packets = [] ∧ w.reading = .ready
  | .dialing packet => w.packets = [] ∧ Tracks isn { w.download with packets := [packet] } o
  | .refused => True
  | _ => Tracks isn w.download o

lemma watched_of_connected (h : w.Connected) : Watched isn w o ↔ Tracks isn w.download o := by
  rw [Watched]
  rw [TcpSequence.Connected] at h
  split <;> simp_all

lemma Watched.syn {tcp : Segment} {now : UInt32} (h : Watched isn w o) (hs : w.sending = .listening)
    (hsyn : tcp.syn = true) (hisn : tcp.seq = isn) :
    Watched isn (w.step settings (.segment tcp now)) (o.after isn w (.segment tcp now)) := by
  obtain ⟨hstate, hpackets, -, hreading, -, hsending⟩ :=
    TcpSequence.receive_syn settings now hs hsyn
  simp only [Watched, hs] at h
  rw [h.1] at hpackets
  rw [h.2] at hreading
  rcases hsending with hrefused | ⟨packet, hdialing, -, -, -, hlength⟩
  · rw [Watched, TcpSequence.step, hrefused]
    trivial
  · have hafter : o.after isn w (.segment tcp now) =
        ⟨0, tcp.windowSize.toUInt32 <<< tcp.options.windowScale⟩ := if_pos ⟨hs, hsyn⟩
    rw [Watched, TcpSequence.step, hdialing, hafter]
    refine ⟨hpackets, ?_⟩
    rw [TcpSequence.download, hstate, hreading]
    refine ⟨?_, ?_, rfl, Nat.zero_le _, ?_, tcp.options.windowScale_le,
      toNat_window_lt _ tcp.options.windowScale_le, (by intros; contradiction)⟩
    · change tcp.seq + 1 = serial isn (packet.length + 0)
      rw [hlength, hisn]
      rfl
    · exact hisn.trans serial_zero.symm
    · change packet.length + 0 + 1 ≤ 0 + 2 ^ 30
      omega

lemma after_unconnected (h : ¬ w.Connected) (hbegins : ¬ w.Begins e) : o.after isn w e = o := by
  cases e with
  | segment tcp now =>
    have hacked : ¬ w.Acked tcp := by
      rintro ⟨hready, -⟩
      rw [TcpSequence.Connected, hready] at h
      exact h trivial
    exact (if_neg hbegins).trans (if_neg hacked)
  | _ => rfl

lemma Watched.step (h : Watched isn w o) (hcorrect : CorrectSource isn w e) (hunwrapped : Unwrapped w e) :
    Watched isn (w.step settings e) (o.after isn w e) := by
  by_cases hconnected : w.Connected
  · rw [watched_of_connected hconnected] at h
    rw [watched_of_connected (TcpSequence.connected_step hconnected e)]
    exact h.moves hconnected hcorrect hunwrapped (TcpSequence.step_moves settings hconnected e)
  · rcases TcpSequence.step_unconnected settings hconnected e with
      ⟨hsame, hbegins⟩ | hbegins | ⟨packet, hs, rfl | ⟨rst, now, rfl⟩⟩
    · rw [hsame, after_unconnected hconnected hbegins]
      exact h
    · cases e with
      | segment tcp now => exact h.syn hbegins.1 hbegins.2 (hcorrect.1 hbegins.1 hbegins.2)
      | _ => exact absurd hbegins id
    · simp only [Watched, hs] at h
      rw [Watched]
      simp only [TcpSequence.step, TcpSequence.connect, hs, h.1]
      exact h.2
    · rw [Watched]
      simp only [TcpSequence.step, TcpSequence.refuse, hs]

/-- After every run in which no ack number comes round, the sequence knows what is acknowledged. -/
theorem download_ack_tracking (settings : TcpBufferSettings) (ipVersion : IpVersion) (timestampOffset isn : UInt32)
    (events : List Event)
    (hevents : Meets (fun (s : TcpSequence × Observed) e => CorrectSource isn s.1 e ∧ Unwrapped s.1 e)
      (watch settings isn) (newTcpSequence settings ipVersion timestampOffset, ⟨0, 0⟩) events) :
    let s := run (watch settings isn) (newTcpSequence settings ipVersion timestampOffset, ⟨0, 0⟩) events
    s.1.Connected → Accurate isn s.1 s.2 := by
  intro s hconnected
  have hwatched : Watched isn s.1 s.2 := by
    apply meets_invariant (I := fun s : TcpSequence × Observed => Watched isn s.1 s.2) _ _ hevents
    · rintro ⟨w, o⟩ e hw he
      exact hw.step he.1 he.2
    · exact ⟨rfl, rfl⟩
  rw [watched_of_connected hconnected] at hwatched
  exact hwatched.accurate

instance (isn : UInt32) (w : TcpSequence) : (e : Event) → Decidable (CorrectSource isn w e)
  | .segment _ _ => inferInstanceAs (Decidable (_ ∧ _))
  | .connected | .refused _ _ | .proceed _ | .read _ _ | .forward _ | .finish _ | .reset _ | .acknowledge _
  | .scaleDown => .isTrue trivial

instance (w : TcpSequence) : (e : Event) → Decidable (Unwrapped w e)
  | .segment tcp _ => inferInstanceAs (Decidable (w.Acked tcp → w.receiveSeqAck ≤ tcp.ackNumber))
  | .read bytes _ => inferInstanceAs (Decidable (bytes.length < 2 ^ 31))
  | .connected | .refused _ _ | .proceed _ | .forward _ | .finish _ | .reset _ | .acknowledge _
  | .scaleDown => .isTrue trivial

def ethernetSettings : TcpBufferSettings := ⟨1500, 4096, 65536, 4194304⟩

def acknowledgedRead (isn : UInt32) : List Event :=
  let syn : Segment := ⟨false, true, false, false, isn, 0, 65535, .none, []⟩
  let ack (n : UInt32) : Segment := ⟨false, false, false, true, isn + 1, n, 65535, .none, []⟩
  [.segment syn 0, .connected, .segment (ack (isn + 1)) 1, .proceed false, .read [1, 2, 3] false, .forward 2,
    .segment (ack (isn + 4)) 3, .proceed false]

theorem download_ack_tracking_read :
    let s := run (watch ethernetSettings 1000) (newTcpSequence ethernetSettings .v4 0, ⟨0, 0⟩) (acknowledgedRead 1000)
    s.1.receiveSeqAck = 1004 ∧ Accurate 1000 s.1 s.2 :=
  ⟨by decide +kernel,
    download_ack_tracking ethernetSettings .v4 0 1000 (acknowledgedRead 1000) (by decide +kernel) (by decide +kernel)⟩

theorem wrapped_ack_ignored :
    let s := run (watch ethernetSettings 0xFFFFFFFE) (newTcpSequence ethernetSettings .v4 0, ⟨0, 0⟩)
      (acknowledgedRead 0xFFFFFFFE)
    Meets (fun (s : TcpSequence × Observed) e => CorrectSource 0xFFFFFFFE s.1 e) (watch ethernetSettings 0xFFFFFFFE)
        (newTcpSequence ethernetSettings .v4 0, ⟨0, 0⟩) (acknowledgedRead 0xFFFFFFFE) ∧
      s.1.Connected ∧ s.1.receiveSeqAck = 0xFFFFFFFF ∧ ¬ Accurate 0xFFFFFFFE s.1 s.2 := by
  refine ⟨by decide +kernel, by decide +kernel, by decide +kernel, fun h => ?_⟩
  exact absurd h.receiveSeqAck (by decide +kernel)

end UrConnect.Ip.Tcp
