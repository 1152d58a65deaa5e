import UrConnect.Ip.TcpMoves

/-! The bytes of the source reach the socket writer in order, and the bytes of the socket reach the source. -/

namespace UrConnect.Ip.Tcp

open Lib.SerialNumber Lib.Runs

def Slice (isn : UInt32) (stream : List UInt8) (accepted : ℕ) (tcp : Segment) : Prop :=
  ∃ offset, offset ≤ stream.length ∧ tcp.seq = serial (isn + 1) offset ∧
    offset ≤ accepted + 2 ^ 31 ∧ accepted ≤ offset + 2 ^ 31 ∧ tcp.payload <+: stream.drop offset ∧
    (tcp.fin = true → offset + tcp.payload.length = stream.length)

namespace TcpSequence

def handed (w : TcpSequence) : List UInt8 :=
  match w.sending with
  | .queued _ => w.writes.dropLast.flatten
  | _ => w.writes.flatten

def finCounted (w : TcpSequence) : Bool :=
  match w.sending with
  | .counted _ | .finished => true
  | .queued tcp => tcp.fin
  | _ => false

def generated (settings : TcpBufferSettings) (w : TcpSequence) (e : Event) : List Packet :=
  (w.step settings e).packets.drop w.packets.length

end TcpSequence

def SourceSends (isn : UInt32) (stream : List UInt8) (w : TcpSequence) : Event → Prop
  | .segment tcp _ =>
    tcp.rst = false ∧ (tcp.syn = true → tcp.seq = isn) ∧
      (tcp.syn = false → Slice isn stream w.handed.length tcp)
  | _ => True

def FinAlone (w : TcpSequence) : Event → Prop
  | .segment tcp _ => w.sending = .ready → ¬ w.Drops tcp → tcp.fin = true → tcp.payload = []
  | _ => True

structure Spliced (settings : TcpBufferSettings) (isn : UInt32) (stream : List UInt8) (w : TcpSequence) : Prop where
  writes : w.writes.flatten <+: stream
  sendSeq : w.sendSeq = serial (isn + 1) (w.handed.length + w.finCounted.toNat)
  /-- a number that acknowledges the FIN acknowledges the whole stream -/
  fin : w.finCounted = true → w.handed = stream
  acks : ∀ e, ∀ p ∈ w.generated settings e,
    p.ackNumber = serial (isn + 1) (w.handed.length + w.finCounted.toNat)
  reads : ∃ rest, w.reads.flatten = carried w.packets ++ rest ∧ (w.reading = .ready → rest = [])
  synAck : ∀ p ∈ w.packets, p.syn = true → p.seq = isn
  numbers : Consecutive (isn + 1) w.packets

def Hands (isn : UInt32) (stream : List UInt8) (u : Upload) : Prop :=
  match u.sending with
  | .listening => u.writes = []
  | .dialing packet => u.writes = [] ∧ u.sendSeq = isn + 1 ∧ packet.ackNumber = isn + 1
  | .refused => u.writes = [] ∧ u.sendSeq = isn + 1
  | .ready => u.writes.flatten <+: stream ∧ u.sendSeq = serial (isn + 1) u.writes.flatten.length
  | .accepted tcp =>
    u.writes.flatten ++ tcp.payload <+: stream ∧ u.sendSeq = serial (isn + 1) u.writes.flatten.length ∧
      (tcp.fin = true → u.writes.flatten = stream ∧ tcp.payload = [])
  | .counted tcp =>
    u.writes.flatten = stream ∧ u.sendSeq = serial (isn + 1) (stream.length + 1) ∧ tcp.fin = true ∧ tcp.payload = []
  | .queued tcp =>
    ∃ writes, u.writes = writes ++ [tcp.payload] ∧ u.writes.flatten <+: stream ∧
      u.sendSeq = serial (isn + 1) writes.flatten.length ∧ tcp.fin = false
  | .finished => u.writes.flatten = stream ∧ u.sendSeq = serial (isn + 1) (stream.length + 1)
  | .closed => False

variable {settings : TcpBufferSettings} {isn : UInt32} {stream : List UInt8} {w : TcpSequence} {e : Event}

lemma slice_at_frontier {accepted : List UInt8} {tcp : Segment} (h : Slice isn stream accepted.length tcp)
    (hseq : tcp.seq = serial (isn + 1) accepted.length) (haccepted : accepted <+: stream) :
    accepted ++ tcp.payload <+: stream ∧ (tcp.fin = true → accepted ++ tcp.payload = stream) := by
  obtain ⟨offset, -, hoffset, hlow, hhigh, hpayload, hfin⟩ := h
  have heq : offset = accepted.length :=
    eq_of_serial_eq (hoffset.symm.trans hseq) (by omega) (by omega)
  subst heq
  obtain ⟨rest, rfl⟩ := haccepted
  rw [List.drop_left] at hpayload
  refine ⟨List.prefix_append_right_inj accepted |>.mpr hpayload, fun htrue => ?_⟩
  have hlength := hfin htrue
  rw [List.length_append, Nat.add_left_cancel_iff] at hlength
  rw [hpayload.eq_of_length hlength]

lemma Hands.uploads {u : Upload} (h : Hands isn stream w.upload) (hsource : SourceSends isn stream w e)
    (halone : FinAlone w e) (huploads : w.Uploads e u) : Hands isn stream u := by
  cases huploads with
  | away => exact h
  | accept tcp now ready rst frontier =>
    have hready : w.writes.flatten <+: stream ∧ w.sendSeq = serial (isn + 1) w.writes.flatten.length := by
      simpa only [Hands, TcpSequence.upload, ready] using h
    have hdrops : w.sendSeq = tcp.seq ∧ tcp.syn = false := by
      simpa [ConnectionState.Drops] using frontier
    have hslice : Slice isn stream w.writes.flatten.length tcp := by
      simpa only [TcpSequence.handed, ready] using hsource.2.2 hdrops.2
    obtain ⟨hnext, hfin⟩ := slice_at_frontier hslice (hdrops.1.symm.trans hready.2) hready.1
    refine ⟨hnext, hready.2, fun htrue => ?_⟩
    have hempty := halone ready frontier htrue
    have hall := hfin htrue
    rw [hempty, List.append_nil] at hall
    exact ⟨hall, hempty⟩
  | reset tcp now ready rst =>
    rw [hsource.1] at rst
    cases rst
  | fin tcp blocked accepted fin =>
    simp only [Hands, TcpSequence.upload, accepted] at h ⊢
    obtain ⟨hall, hempty⟩ := h.2.2 fin
    refine ⟨hall, ?_, fin, hempty⟩
    rw [h.2.1, hall]
    exact serial_succ _ _
  | skip tcp blocked hands payload =>
    rcases hands with ⟨hs, hfin⟩ | hs
    · simp only [Hands, TcpSequence.upload, hs, payload, List.append_nil] at h
      simp only [Hands, TcpSequence.upload, Segment.next, hfin]
      exact ⟨h.1, h.2.1⟩
    · simp only [Hands, TcpSequence.upload, hs] at h
      simp only [Hands, TcpSequence.upload, Segment.next, h.2.2.1]
      exact ⟨h.1, h.2.1⟩
  | hand tcp blocked hands payload =>
    rcases hands with ⟨hs, hfin⟩ | hs
    · simp only [Hands, TcpSequence.upload, hs] at h
      simp only [Hands, TcpSequence.upload]
      refine ⟨w.writes, rfl, ?_, h.2.1, hfin⟩
      rw [List.flatten_append, List.flatten_singleton]
      exact h.1
    · simp only [Hands, TcpSequence.upload, hs] at h
      exact absurd h.2.2.2 payload
  | advance tcp blocked queued =>
    simp only [Hands, TcpSequence.upload, queued] at h
    obtain ⟨writes, hwrites, hpre, hseq, hfin⟩ := h
    simp only [Hands, TcpSequence.upload, Segment.next, hfin]
    refine ⟨hpre, ?_⟩
    rw [hseq, serial_add, hwrites, List.flatten_append, List.flatten_singleton, List.length_append]

def Reading.Holds (rest : List UInt8) : Reading → Prop
  | .holding bytes _ => rest = bytes
  | .closed => True
  | _ => rest = []

structure Carries (isn : UInt32) (d : Download) : Prop where
  receiveSeq : d.reading ≠ .closed → d.receiveSeq = serial (isn + 1) (carried d.packets).length
  reads : ∃ rest, d.reads.flatten = carried d.packets ++ rest ∧ d.reading.Holds rest
  synAck : ∀ p ∈ d.packets, p.syn = true → p.seq = isn
  numbers : Consecutive (isn + 1) d.packets

lemma Carries.emit {d : Download} (h : Carries isn d) (p : Packet) (reading : Reading) (hpayload : p.payload = [])
    (hsyn : p.syn = true → p.seq = isn) (hsame : reading = d.reading ∨ reading = .closed) :
    Carries isn { d with packets := d.packets ++ [p], reading } := by
  obtain ⟨rest, hreads, hholds⟩ := h.reads
  have hcarried : carried (d.packets ++ [p]) = carried d.packets := by
    rw [carried_append, carried_cons, hpayload, carried_nil, List.append_nil, List.append_nil]
  refine ⟨?_, ⟨rest, ?_, ?_⟩, ?_, ?_⟩
  · dsimp only
    rw [hcarried]
    rcases hsame with rfl | rfl
    · exact h.receiveSeq
    · exact fun hc => absurd rfl hc
  · rw [hcarried]
    exact hreads
  · rcases hsame with rfl | rfl
    · exact hholds
    · trivial
  · rw [List.forall_mem_append, List.forall_mem_singleton]
    exact ⟨h.synAck, hsyn⟩
  · rw [consecutive_append]
    exact ⟨h.numbers, fun hc => absurd hpayload hc, trivial⟩

lemma Carries.forward {now : UInt32} {bytes : List UInt8} {eof : Bool} {packets : List Packet}
    (h : Carries isn w.download) (hreading : w.reading = .holding bytes eof)
    (hmade : w.dataPackets bytes settings.mtu now = .ok packets) :
    Carries isn
      { w.download with
        receiveSeq := w.receiveSeq + UInt32.ofNat bytes.length
        packets := w.packets ++ packets
        reading := if eof then .finishing else .ready } := by
  obtain ⟨hnumbers, hcarried, -, hdata⟩ := w.toConnectionState.dataPackets_spec hmade
  obtain ⟨rest, hreads, hholds⟩ := h.reads
  have hseq : w.receiveSeq = serial (isn + 1) (carried w.packets).length := by
    apply h.receiveSeq
    change w.reading ≠ .closed
    rw [hreading]
    nofun
  have hrest : rest = bytes := by
    simpa only [TcpSequence.download, hreading, Reading.Holds] using hholds
  refine ⟨fun _ => ?_, ⟨[], ?_, ?_⟩, ?_, ?_⟩
  · rw [carried_append, hcarried, List.length_append, ← serial_add, ← hseq]
  · rw [carried_append, hcarried, List.append_nil, ← hrest]
    exact hreads
  · cases eof <;> rfl
  · rw [List.forall_mem_append]
    refine ⟨h.synAck, fun p hp htrue => ?_⟩
    rw [(hdata p hp).syn] at htrue
    cases htrue
  · rw [consecutive_append]
    refine ⟨h.numbers, ?_⟩
    rw [hseq] at hnumbers
    exact hnumbers

lemma Carries.moves {d : Download} (h : Carries isn w.download) (hmoves : w.Moves settings e d) : Carries isn d := by
  obtain ⟨rest, hreads, hholds⟩ := h.reads
  cases hmoves with
  | away => exact h
  | ack => exact ⟨h.receiveSeq, h.reads, h.synAck, h.numbers⟩
  | hold bytes eof reading =>
    have hopen : w.reading ≠ .closed := by
      rw [reading]
      intro h
      cases h
    have hrest : rest = [] := by
      simpa only [TcpSequence.download, reading, Reading.Holds] using hholds
    refine ⟨fun _ => h.receiveSeq hopen, ⟨bytes, ?_, rfl⟩, h.synAck, h.numbers⟩
    have hreads' : w.reads.flatten = carried w.packets := by
      rw [hrest, List.append_nil] at hreads
      exact hreads
    rw [List.flatten_append, List.flatten_singleton, hreads']
    rfl
  | pass now eof reading =>
    have hopen : w.reading ≠ .closed := by
      rw [reading]
      intro h
      cases h
    have hrest : rest = [] := by
      simpa only [TcpSequence.download, reading, Reading.Holds] using hholds
    refine ⟨fun _ => h.receiveSeq hopen, ⟨[], hrest ▸ hreads, ?_⟩, h.synAck, h.numbers⟩
    cases eof <;> rfl
  | forward now bytes eof packets reading window made => exact h.forward reading made
  | fail now bytes eof reading =>
    exact ⟨fun hc => absurd rfl hc, ⟨rest, hreads, trivial⟩, h.synAck, h.numbers⟩
  | emit _ _ p reading seq ackNumber payload length same =>
    have hsyn : p.syn = false := by
      rw [Packet.length] at length
      cases hcase : p.syn
      · rfl
      · rw [hcase] at length
        simp at length
    exact h.emit p reading payload (fun htrue => absurd (hsyn.symm.trans htrue) Bool.false_ne_true) same
  | finish now reading =>
    have hemit := h.emit (w.finAck now) .closed rfl (by intros; contradiction) (Or.inr rfl)
    exact ⟨fun hc => absurd rfl hc, hemit.reads, hemit.synAck, hemit.numbers⟩

def Forwards (isn : UInt32) (w : TcpSequence) : Prop :=
  match w.sending with
  | .listening => w.packets = [] ∧ w.reads = [] ∧ w.reading = .ready
  | .dialing packet => Carries isn w.download ∧ packet.seq = isn ∧ packet.payload = []
  | _ => Carries isn w.download

lemma Forwards.carries (h : Forwards isn w) (hstarted : w.sending ≠ .listening) : Carries isn w.download := by
  rw [Forwards] at h
  split at h
  · exact absurd ‹_› hstarted
  · exact h.1
  · exact h

lemma forwards_of_connected (hconnected : w.Connected) (h : Carries isn w.download) : Forwards isn w := by
  rw [Forwards]
  split
  · rename_i hs
    simp [TcpSequence.Connected, hs] at hconnected
  · rename_i hs
    simp [TcpSequence.Connected, hs] at hconnected
  · exact h

lemma started_of_connected (hconnected : w.Connected) : w.sending ≠ .listening := by
  intro hs
  rw [TcpSequence.Connected, hs] at hconnected
  exact hconnected

def Splices (isn : UInt32) (stream : List UInt8) (w : TcpSequence) : Prop :=
  Hands isn stream w.upload ∧ Forwards isn w

lemma Splices.syn {tcp : Segment} {now : UInt32} (h : Splices isn stream w) (hs : w.sending = .listening)
    (hsyn : tcp.syn = true) (hisn : tcp.seq = isn) :
    Splices isn stream (w.step settings (.segment tcp now)) := by
  obtain ⟨hhands, hforwards⟩ := h
  obtain ⟨hstate, hpackets, hwrites, hreading, hreads, hsending⟩ := TcpSequence.receive_syn settings now hs hsyn
  simp only [Hands, TcpSequence.upload, hs] at hhands
  simp only [Forwards, hs] at hforwards
  rw [hforwards.1] at hpackets
  rw [hhands] at hwrites
  rw [hforwards.2.1] at hreads
  rw [hforwards.2.2] at hreading
  have hseq : (w.receive settings tcp now).sendSeq = isn + 1 := by rw [hstate, ← hisn]; rfl
  have hcarries : Carries isn (w.receive settings tcp now).download := by
    rw [TcpSequence.download, hstate, hpackets, hreads, hreading, hisn]
    exact ⟨fun _ => serial_zero.symm, ⟨[], rfl, rfl⟩, (by intros; contradiction), trivial⟩
  rcases hsending with hrefused | ⟨packet, hdialing, hpacket, hack, hpayload, -⟩
  · refine ⟨?_, ?_⟩
    · simp only [Hands, TcpSequence.upload, TcpSequence.step, hrefused]
      exact ⟨hwrites, hseq⟩
    · rw [Forwards, TcpSequence.step, hrefused]
      exact hcarries
  · refine ⟨?_, ?_⟩
    · simp only [Hands, TcpSequence.upload, TcpSequence.step, hdialing]
      exact ⟨hwrites, hseq, hack.trans (by rw [hisn])⟩
    · rw [Forwards, TcpSequence.step, hdialing]
      exact ⟨hcarries, hpacket.trans hisn, hpayload⟩

lemma Splices.dialed {packet : Packet} (h : Splices isn stream w) (hs : w.sending = .dialing packet) :
    Splices isn stream (w.step settings .connected) := by
  obtain ⟨hhands, hforwards⟩ := h
  simp only [Hands, TcpSequence.upload, hs] at hhands
  simp only [Forwards, hs] at hforwards
  simp only [TcpSequence.step, TcpSequence.connect, hs]
  refine ⟨?_, ?_⟩
  · simp only [Hands, TcpSequence.upload, hhands.1]
    exact ⟨List.nil_prefix, hhands.2.1.trans serial_zero.symm⟩
  · exact hforwards.1.emit packet w.reading hforwards.2.2 (fun _ => hforwards.2.1) (Or.inl rfl)

lemma Splices.refused {packet : Packet} (h : Splices isn stream w) (hs : w.sending = .dialing packet) (rst : Bool)
    (now : UInt32) : Splices isn stream (w.step settings (.refused rst now)) := by
  obtain ⟨hhands, hforwards⟩ := h
  simp only [Hands, TcpSequence.upload, hs] at hhands
  simp only [Forwards, hs] at hforwards
  simp only [TcpSequence.step, TcpSequence.refuse, hs]
  refine ⟨?_, ?_⟩
  · simp only [Hands, TcpSequence.upload]
    exact ⟨hhands.1, hhands.2.1⟩
  · simp only [Forwards]
    cases rst with
    | true => exact hforwards.1.emit (w.rstAck now) w.reading rfl (by intros; contradiction) (Or.inl rfl)
    | false =>
      rw [TcpSequence.download]
      simp only [Bool.false_eq_true, if_false, List.append_nil]
      exact hforwards.1

lemma Splices.step (h : Splices isn stream w) (hsource : SourceSends isn stream w e) (halone : FinAlone w e) :
    Splices isn stream (w.step settings e) := by
  by_cases hconnected : w.Connected
  · refine ⟨h.1.uploads hsource halone (TcpSequence.step_uploads settings hconnected e), ?_⟩
    apply forwards_of_connected (TcpSequence.connected_step hconnected e)
    exact (h.2.carries (started_of_connected hconnected)).moves (TcpSequence.step_moves settings hconnected e)
  · rcases TcpSequence.step_unconnected settings hconnected e with
      ⟨hsame, -⟩ | hbegins | ⟨packet, hs, rfl | ⟨rst, now, rfl⟩⟩
    · rw [hsame]
      exact h
    · cases e with
      | segment tcp now => exact h.syn hbegins.1 hbegins.2 (hsource.2.1 hbegins.2)
      | _ => exact absurd hbegins id
    · exact h.dialed hs
    · exact h.refused hs rst now

lemma ackNumber_of_generated (settings : TcpBufferSettings) (h : Splices isn stream w) (e : Event) :
    ∀ p ∈ w.generated settings e, p.ackNumber = w.sendSeq := by
  rw [TcpSequence.generated]
  by_cases hconnected : w.Connected
  · have hmoves := TcpSequence.step_moves settings hconnected e
    generalize hdownload : (w.step settings e).download = d at hmoves
    have hpackets : (w.step settings e).packets = d.packets := congrArg Download.packets hdownload
    rw [hpackets]
    cases hmoves with
    | away | ack | hold | pass | fail => simp [TcpSequence.download]
    | forward now bytes eof packets reading window made =>
      rw [List.drop_left]
      exact fun p hp => ((w.toConnectionState.dataPackets_spec made).2.2.2 p hp).ackNumber
    | emit _ _ p reading seq ackNumber payload length same =>
      rw [List.drop_left, List.forall_mem_singleton]
      exact ackNumber
    | finish now reading =>
      rw [List.drop_left, List.forall_mem_singleton]
      rfl
  · rcases TcpSequence.step_unconnected settings hconnected e with
      ⟨hsame, -⟩ | hbegins | ⟨packet, hs, rfl | ⟨rst, now, rfl⟩⟩
    · rw [hsame]
      simp
    · cases e with
      | segment tcp now =>
        have hpackets := (TcpSequence.receive_syn settings now hbegins.1 hbegins.2).2.1
        rw [TcpSequence.step, hpackets]
        simp
      | _ => exact absurd hbegins id
    · have hhands := h.1
      simp only [Hands, TcpSequence.upload, hs] at hhands
      simp only [TcpSequence.step, TcpSequence.connect, hs]
      rw [List.drop_left, List.forall_mem_singleton]
      exact hhands.2.2.trans hhands.2.1.symm
    · simp only [TcpSequence.step, TcpSequence.refuse, hs]
      rw [List.drop_left]
      cases rst with
      | true =>
        rw [if_pos rfl, List.forall_mem_singleton]
        rfl
      | false =>
        rw [if_neg Bool.false_ne_true]
        exact List.forall_mem_nil _

lemma Splices.spliced (h : Splices isn stream w) (hstarted : w.sending ≠ .listening) :
    Spliced settings isn stream w := by
  have hcarries := h.2.carries hstarted
  have hacks := ackNumber_of_generated settings h
  have hhands := h.1
  have hsend : w.writes.flatten <+: stream ∧
      w.sendSeq = serial (isn + 1) (w.handed.length + w.finCounted.toNat) ∧
      (w.finCounted = true → w.handed = stream) := by
    cases hs : w.sending with
    | listening => exact absurd hs hstarted
    | dialing packet =>
      simp only [Hands, TcpSequence.upload, hs] at hhands
      simp only [TcpSequence.handed, TcpSequence.finCounted, hs, hhands.1]
      exact ⟨List.nil_prefix, hhands.2.1.trans serial_zero.symm, (by intros; contradiction)⟩
    | refused =>
      simp only [Hands, TcpSequence.upload, hs] at hhands
      simp only [TcpSequence.handed, TcpSequence.finCounted, hs, hhands.1]
      exact ⟨List.nil_prefix, hhands.2.trans serial_zero.symm, (by intros; contradiction)⟩
    | ready =>
      simp only [Hands, TcpSequence.upload, hs] at hhands
      simp only [TcpSequence.handed, TcpSequence.finCounted, hs]
      exact ⟨hhands.1, hhands.2, (by intros; contradiction)⟩
    | accepted tcp =>
      simp only [Hands, TcpSequence.upload, hs] at hhands
      simp only [TcpSequence.handed, TcpSequence.finCounted, hs]
      exact ⟨(List.prefix_append _ _).trans hhands.1, hhands.2.1, (by intros; contradiction)⟩
    | counted tcp =>
      simp only [Hands, TcpSequence.upload, hs] at hhands
      simp only [TcpSequence.handed, TcpSequence.finCounted, hs, hhands.1]
      exact ⟨List.prefix_refl stream, hhands.2.1, fun _ => trivial⟩
    | queued tcp =>
      simp only [Hands, TcpSequence.upload, hs] at hhands
      obtain ⟨writes, hwrites, hpre, hseq, hfin⟩ := hhands
      simp only [TcpSequence.handed, TcpSequence.finCounted, hs, hfin]
      refine ⟨hpre, ?_, (by intros; contradiction)⟩
      rw [hwrites, List.dropLast_concat]
      exact hseq
    | finished =>
      simp only [Hands, TcpSequence.upload, hs] at hhands
      simp only [TcpSequence.handed, TcpSequence.finCounted, hs, hhands.1]
      exact ⟨List.prefix_refl stream, hhands.2, fun _ => trivial⟩
    | closed =>
      simp only [Hands, TcpSequence.upload, hs] at hhands
  refine ⟨hsend.1, hsend.2.1, hsend.2.2, fun e p hp => (hacks e p hp).trans hsend.2.1, ?_, hcarries.synAck,
    hcarries.numbers⟩
  obtain ⟨rest, hreads, hholds⟩ := hcarries.reads
  refine ⟨rest, hreads, fun hready => ?_⟩
  simpa only [TcpSequence.download, hready, Reading.Holds] using hholds

/-- In every run in which no accepted FIN carries a payload, both directions are faithful. -/
theorem tcp_splice (settings : TcpBufferSettings) (ipVersion : IpVersion) (timestampOffset isn : UInt32)
    (stream : List UInt8) (events : List Event)
    (hevents : Meets (fun w e => SourceSends isn stream w e ∧ FinAlone w e) (TcpSequence.step settings)
      (newTcpSequence settings ipVersion timestampOffset) events) :
    let w := run (TcpSequence.step settings) (newTcpSequence settings ipVersion timestampOffset) events
    w.sending ≠ .listening → Spliced settings isn stream w := by
  intro w hstarted
  have hsplices : Splices isn stream w := by
    apply meets_invariant (I := Splices isn stream) _ _ hevents
    · exact fun w e hw he => hw.step he.1 he.2
    · exact ⟨rfl, rfl, rfl, rfl⟩
  exact hsplices.spliced hstarted

instance (isn : UInt32) (stream : List UInt8) (accepted : ℕ) (tcp : Segment) :
    Decidable (Slice isn stream accepted tcp) :=
  inferInstanceAs (Decidable (∃ offset, offset ≤ stream.length ∧ _))

instance (isn : UInt32) (stream : List UInt8) (w : TcpSequence) : (e : Event) → Decidable (SourceSends isn stream w e)
  | .segment _ _ => inferInstanceAs (Decidable (_ ∧ _))
  | .connected | .refused _ _ | .proceed _ | .read _ _ | .forward _ | .finish _ | .reset _ | .acknowledge _
  | .scaleDown => .isTrue trivial

instance (w : TcpSequence) : (e : Event) → Decidable (FinAlone w e)
  | .segment tcp _ =>
    inferInstanceAs (Decidable (w.sending = .ready → ¬ w.Drops tcp → tcp.fin = true → tcp.payload = []))
  | .connected | .refused _ _ | .proceed _ | .read _ _ | .forward _ | .finish _ | .reset _ | .acknowledge _
  | .scaleDown => .isTrue trivial

def smallMtu : TcpBufferSettings := ⟨42, 4096, 65536, 4194304⟩

def opened (fin : Bool) : List Event :=
  [.segment ⟨false, true, false, false, 0xFFFFFFFE, 0, 65535, .none, []⟩ 0, .connected,
    .segment ⟨fin, false, false, true, 0xFFFFFFFF, 0xFFFFFFFF, 65535, .none, [7, 8]⟩ 1, .proceed false]

def bothWays : List Event :=
  opened false ++ [.acknowledge 2, .proceed false, .read [1, 2, 3, 4, 5] false,
    .segment ⟨false, false, false, true, 0, 0xFFFFFFFF, 65535, .none, [8]⟩ 3, .forward 4, .acknowledge 5,
    .segment ⟨true, false, false, true, 1, 0xFFFFFFFF, 65535, .none, []⟩ 6, .proceed true, .acknowledge 7,
    .proceed false]

theorem tcp_splice_both_ways :
    let w := run (TcpSequence.step smallMtu) (newTcpSequence smallMtu .v4 0) bothWays
    w.writes = [[7, 8]] ∧ carried w.packets = [1, 2, 3, 4, 5] ∧ w.sendSeq = 2 ∧
      Spliced smallMtu 0xFFFFFFFE [7, 8] w :=
  ⟨by decide +kernel, by decide +kernel, by decide +kernel,
    tcp_splice smallMtu .v4 0 0xFFFFFFFE [7, 8] bothWays (by decide +kernel) (by decide +kernel)⟩

theorem fin_counted_before_payload :
    let w := run (TcpSequence.step smallMtu) (newTcpSequence smallMtu .v4 0) (opened true)
    Meets (SourceSends 0xFFFFFFFE [7, 8]) (TcpSequence.step smallMtu) (newTcpSequence smallMtu .v4 0) (opened true) ∧
      w.writes = [] ∧ (w.generated smallMtu (.acknowledge 2)).map (·.ackNumber) = [0xFFFFFFFF + 1] ∧
      ¬ Spliced smallMtu 0xFFFFFFFE [7, 8] w := by
  refine ⟨by decide +kernel, by decide +kernel, by decide +kernel, fun h => ?_⟩
  exact absurd (h.fin (by decide +kernel)) (by decide +kernel)

end UrConnect.Ip.Tcp
