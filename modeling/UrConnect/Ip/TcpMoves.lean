import UrConnect.Ip.TcpSequence
import UrConnect.Lib.Runs

/-! What the sections of the loops do to the two directions of a TCP sequence. -/

namespace UrConnect.Ip.Tcp

structure Download where
  receiveSeq : UInt32
  receiveSeqAck : UInt32
  receiveWindowSize : UInt32
  receiveWindowScale : UInt32
  reading : Reading
  reads : List (List UInt8)
  packets : List Packet

structure Upload where
  sendSeq : UInt32
  sending : Sending
  writes : List (List UInt8)

def Segment.next (tcp : Segment) : Sending := if tcp.fin then .finished else .ready

namespace TcpSequence

variable (settings : TcpBufferSettings) (w : TcpSequence)

def download : Download where
  receiveSeq := w.receiveSeq
  receiveSeqAck := w.receiveSeqAck
  receiveWindowSize := w.receiveWindowSize
  receiveWindowScale := w.receiveWindowScale
  reading := w.reading
  reads := w.reads
  packets := w.packets

def upload : Upload := ⟨w.sendSeq, w.sending, w.writes⟩

lemma download_scaleWindow : (w.scaleWindow settings).download = w.download := by
  rw [scaleWindow]
  split <;> rfl

lemma upload_scaleWindow : (w.scaleWindow settings).upload = w.upload := by
  rw [scaleWindow]
  split <;> rfl

lemma download_handOver (tcp : Segment) (blocked : Bool) : (w.handOver tcp blocked).download = w.download := by
  rw [handOver]
  split
  · rfl
  · split <;> rfl

lemma download_proceed (blocked : Bool) : (w.proceed settings blocked).download = w.download := by
  rw [proceed]
  split
  · split
    · rfl
    · exact w.download_handOver _ blocked
  · exact w.download_handOver _ blocked
  · exact w.download_scaleWindow settings
  · rfl

lemma download_scaleDown : (w.scaleDown settings).download = w.download := by
  rw [scaleDown]
  split
  · split <;> rfl
  · rfl

lemma upload_scaleDown : (w.scaleDown settings).upload = w.upload := by
  rw [scaleDown]
  split
  · split <;> rfl
  · rfl

lemma upload_read (bytes : List UInt8) (eof : Bool) : (w.read bytes eof).upload = w.upload := by
  rw [read]
  split <;> rfl

lemma upload_forward (now : UInt32) : (w.forward settings now).upload = w.upload := by
  rw [forward]
  split
  · dsimp only
    split
    · rfl
    · split
      · rfl
      · split <;> rfl
  · rfl

lemma upload_finish (now : UInt32) : (w.finish now).upload = w.upload := by
  rw [finish]
  split <;> rfl

lemma upload_reset (now : UInt32) : (w.reset now).upload = w.upload := by
  rw [reset]
  split <;> rfl

lemma upload_acknowledge (now : UInt32) : (w.acknowledge now).upload = w.upload := by
  rw [acknowledge]
  split <;> rfl

variable {settings w}

def Acked (w : TcpSequence) (tcp : Segment) : Prop :=
  w.sending = .ready ∧ tcp.rst = false ∧ ¬ w.Drops tcp ∧ tcp.ack = true

instance (w : TcpSequence) (tcp : Segment) : Decidable (w.Acked tcp) := inferInstanceAs (Decidable (_ ∧ _))

def Silent (w : TcpSequence) : Event → Prop
  | .segment tcp _ => ¬ w.Acked tcp
  | _ => True

inductive Moves (settings : TcpBufferSettings) (w : TcpSequence) : Event → Download → Prop
  | away (e : Event) (silent : w.Silent e) : Moves settings w e w.download
  | ack (tcp : Segment) (now : UInt32) (acked : w.Acked tcp) :
      Moves settings w (.segment tcp now)
        { w.download with
          receiveSeqAck := (w.toConnectionState.receiveAck tcp).receiveSeqAck
          receiveWindowSize := (w.toConnectionState.receiveAck tcp).receiveWindowSize }
  | hold (bytes : List UInt8) (eof : Bool) (reading : w.reading = .ready) :
      Moves settings w (.read bytes eof)
        { w.download with reading := .holding bytes eof, reads := w.reads ++ [bytes] }
  | pass (now : UInt32) (eof : Bool) (reading : w.reading = .holding [] eof) :
      Moves settings w (.forward now) { w.download with reading := if eof then .finishing else .ready }
  | forward (now : UInt32) (bytes : List UInt8) (eof : Bool) (packets : List Packet)
      (reading : w.reading = .holding bytes eof) (window : ¬ w.WindowWaits bytes.length)
      (made : w.dataPackets bytes settings.mtu now = .ok packets) :
      Moves settings w (.forward now)
        { w.download with
          receiveSeq := w.receiveSeq + UInt32.ofNat bytes.length
          packets := w.packets ++ packets
          reading := if eof then .finishing else .ready }
  | fail (now : UInt32) (bytes : List UInt8) (eof : Bool) (reading : w.reading = .holding bytes eof) :
      Moves settings w (.forward now) { w.download with reading := .closed }
  | emit (e : Event) (silent : w.Silent e) (p : Packet) (reading : Reading) (seq : p.seq = w.receiveSeq) (ackNumber : p.ackNumber = w.sendSeq)
      (payload : p.payload = []) (length : p.length = 0) (same : reading = w.reading ∨ reading = .closed) :
      Moves settings w e { w.download with packets := w.packets ++ [p], reading }
  | finish (now : UInt32) (reading : w.reading = .finishing) :
      Moves settings w (.finish now)
        { w.download with
          receiveSeq := w.receiveSeq + 1
          packets := w.packets ++ [w.finAck now]
          reading := .closed }

lemma download_receive {tcp : Segment} {now : UInt32} (hconnected : w.Connected) :
    Moves settings w (.segment tcp now) (w.receive settings tcp now).download := by
  rw [receive]
  split
  · rename_i hsending
    simp [Connected, hsending] at hconnected
  · rename_i hsending
    split
    · rename_i hrst
      refine .away _ ?_
      intro hacked
      rw [hacked.2.1] at hrst
      cases hrst
    · rename_i hrst
      split
      · rename_i hdrops
        refine .away _ ?_
        intro hacked
        exact hacked.2.2.1 hdrops
      · rename_i hdrops
        by_cases hack : tcp.ack = true
        · have hmove : Moves settings w (.segment tcp now) _ :=
            .ack tcp now ⟨hsending, Bool.eq_false_iff.mpr hrst, hdrops, hack⟩
          obtain ⟨-, hseq, hscale⟩ := w.toConnectionState.receiveAck_frame tcp
          simp only [download, hseq, hscale]
          exact hmove
        · have hsame : w.toConnectionState.receiveAck tcp = w.toConnectionState := by
            rw [ConnectionState.receiveAck, if_neg fun h => hack h.1]
          rw [hsame]
          refine .away _ ?_
          intro hacked
          exact hack hacked.2.2.2
  · rename_i hready
    refine .away _ ?_
    intro hacked
    exact hready hacked.1

lemma download_forward (now : UInt32) : Moves settings w (.forward now) (w.forward settings now).download := by
  rw [forward]
  split
  · rename_i bytes eof hreading
    dsimp only
    split
    · rename_i hempty
      subst hempty
      exact .pass now eof hreading
    · split
      · exact .away _ trivial
      · rename_i hwindow
        split
        · exact .fail now bytes eof hreading
        · rename_i packets hmade
          exact .forward now bytes eof packets hreading hwindow hmade
  · exact .away _ trivial

lemma step_moves (settings : TcpBufferSettings) (hconnected : w.Connected) (e : Event) : Moves settings w e (w.step settings e).download := by
  cases e with
  | segment tcp now => exact download_receive hconnected
  | connected =>
    rw [step, connect]
    split
    · rename_i hsending
      simp [Connected, hsending] at hconnected
    · exact .away _ trivial
  | refused rst now =>
    rw [step, refuse]
    split
    · rename_i hsending
      simp [Connected, hsending] at hconnected
    · exact .away _ trivial
  | proceed blocked =>
    rw [step, download_proceed]
    exact .away _ trivial
  | scaleDown =>
    rw [step, download_scaleDown]
    exact .away _ trivial
  | read bytes eof =>
    rw [step, if_pos hconnected, read]
    split
    · rename_i hreading
      exact .hold bytes eof hreading
    · exact .away _ trivial
  | forward now =>
    rw [step, if_pos hconnected]
    exact download_forward now
  | finish now =>
    rw [step, if_pos hconnected, finish]
    split
    · rename_i hreading
      exact .finish now hreading
    · exact .away _ trivial
  | reset now =>
    rw [step, if_pos hconnected, reset]
    split
    · exact .away _ trivial
    · refine .emit _ ?_ (w.rstAck now) .closed rfl rfl rfl rfl (Or.inr rfl)
      trivial
  | acknowledge now =>
    rw [step, if_pos hconnected, acknowledge]
    split
    · exact .away _ trivial
    · refine .emit _ ?_ (w.pureAck now) w.reading rfl rfl rfl rfl (Or.inl rfl)
      trivial

def Hands (w : TcpSequence) (tcp : Segment) : Prop :=
  w.sending = .accepted tcp ∧ tcp.fin = false ∨ w.sending = .counted tcp

inductive Uploads (w : TcpSequence) : Event → Upload → Prop
  | away (e : Event) : Uploads w e w.upload
  | accept (tcp : Segment) (now : UInt32) (ready : w.sending = .ready) (rst : tcp.rst = false)
      (frontier : ¬ w.Drops tcp) :
      Uploads w (.segment tcp now) { w.upload with sending := .accepted tcp }
  | reset (tcp : Segment) (now : UInt32) (ready : w.sending = .ready) (rst : tcp.rst = true) :
      Uploads w (.segment tcp now) { w.upload with sending := .closed }
  | fin (tcp : Segment) (blocked : Bool) (accepted : w.sending = .accepted tcp) (fin : tcp.fin = true) :
      Uploads w (.proceed blocked) { w.upload with sendSeq := w.sendSeq + 1, sending := .counted tcp }
  | skip (tcp : Segment) (blocked : Bool) (hands : w.Hands tcp) (payload : tcp.payload = []) :
      Uploads w (.proceed blocked) { w.upload with sending := tcp.next }
  | hand (tcp : Segment) (blocked : Bool) (hands : w.Hands tcp) (payload : tcp.payload ≠ []) :
      Uploads w (.proceed blocked) { w.upload with writes := w.writes ++ [tcp.payload], sending := .queued tcp }
  | advance (tcp : Segment) (blocked : Bool) (queued : w.sending = .queued tcp) :
      Uploads w (.proceed blocked)
        { w.upload with sendSeq := w.sendSeq + UInt32.ofNat tcp.payload.length, sending := tcp.next }

lemma upload_handOver {tcp : Segment} {blocked : Bool} (h : w.Hands tcp) :
    Uploads w (.proceed blocked) (w.handOver tcp blocked).upload := by
  rw [handOver]
  split
  · exact .skip tcp blocked h ‹_›
  · split <;> exact .hand tcp _ h ‹_›

lemma upload_proceed (blocked : Bool) : Uploads w (.proceed blocked) (w.proceed settings blocked).upload := by
  rw [proceed]
  split
  · rename_i tcp hsending
    split
    · exact .fin tcp blocked hsending ‹_›
    · exact upload_handOver (Or.inl ⟨hsending, Bool.eq_false_iff.mpr ‹_›⟩)
  · exact upload_handOver (Or.inr ‹_›)
  · rename_i tcp hsending
    have hscale := w.upload_scaleWindow settings
    have hseq : (w.scaleWindow settings).sendSeq = w.sendSeq := congrArg Upload.sendSeq hscale
    have hwrites : (w.scaleWindow settings).writes = w.writes := congrArg Upload.writes hscale
    simp only [afterSegment, upload, hseq, hwrites]
    exact .advance tcp blocked hsending
  · exact .away _

lemma upload_receive (hconnected : w.Connected) (tcp : Segment) (now : UInt32) :
    Uploads w (.segment tcp now) (w.receive settings tcp now).upload := by
  rw [receive]
  split
  · rename_i hsending
    simp [Connected, hsending] at hconnected
  · rename_i hsending
    split
    · exact .reset tcp now hsending ‹_›
    · rename_i hrst
      split
      · exact .away _
      · obtain ⟨hseq, -, -⟩ := w.toConnectionState.receiveAck_frame tcp
        simp only [upload, hseq]
        exact .accept tcp now hsending (Bool.eq_false_iff.mpr hrst) ‹_›
  · exact .away _

lemma step_uploads (settings : TcpBufferSettings) (hconnected : w.Connected) (e : Event) : Uploads w e (w.step settings e).upload := by
  cases e with
  | segment tcp now => exact upload_receive hconnected tcp now
  | proceed blocked => exact upload_proceed blocked
  | connected =>
    rw [step, connect]
    split
    · rename_i hsending
      simp [Connected, hsending] at hconnected
    · exact .away _
  | refused rst now =>
    rw [step, refuse]
    split
    · rename_i hsending
      simp [Connected, hsending] at hconnected
    · exact .away _
  | scaleDown =>
    rw [step, upload_scaleDown]
    exact .away _
  | read bytes eof =>
    rw [step, if_pos hconnected, upload_read]
    exact .away _
  | forward now =>
    rw [step, if_pos hconnected, upload_forward]
    exact .away _
  | finish now =>
    rw [step, if_pos hconnected, upload_finish]
    exact .away _
  | reset now =>
    rw [step, if_pos hconnected, upload_reset]
    exact .away _
  | acknowledge now =>
    rw [step, if_pos hconnected, upload_acknowledge]
    exact .away _

lemma connected_step (hconnected : w.Connected) (e : Event) : (w.step settings e).Connected := by
  have huploads := step_uploads settings hconnected e
  have hnext : ∀ tcp : Segment, tcp.next = .ready ∨ tcp.next = .finished := fun tcp => by
    rw [Segment.next]
    split <;> simp
  generalize hupload : (w.step settings e).upload = u at huploads
  have hsending : (w.step settings e).sending = u.sending := congrArg Upload.sending hupload
  rw [Connected, hsending]
  cases huploads with
  | away => exact hconnected
  | accept | reset | fin | hand => trivial
  | skip tcp | advance tcp =>
    dsimp only
    rcases hnext tcp with h | h <;> rw [h] <;> trivial

def Begins (w : TcpSequence) : Event → Prop
  | .segment tcp _ => w.sending = .listening ∧ tcp.syn = true
  | _ => False

lemma step_unconnected (settings : TcpBufferSettings) (h : ¬ w.Connected) (e : Event) :
    w.step settings e = w ∧ ¬ w.Begins e ∨ w.Begins e ∨
      ∃ packet, w.sending = .dialing packet ∧ (e = .connected ∨ ∃ rst now, e = .refused rst now) := by
  have hstart : w.sending = .listening ∨ (∃ packet, w.sending = .dialing packet) ∨ w.sending = .refused := by
    rw [Connected] at h
    split at h
    · exact Or.inl ‹_›
    · exact Or.inr (Or.inl ⟨_, ‹_›⟩)
    · exact Or.inr (Or.inr ‹_›)
    · exact absurd trivial h
  cases e with
  | read | forward | finish | reset | acknowledge =>
    left
    rw [step, if_neg h]
    exact ⟨rfl, id⟩
  | proceed blocked =>
    left
    rcases hstart with hs | ⟨packet, hs⟩ | hs <;> exact ⟨by simp only [step, proceed, hs], id⟩
  | scaleDown =>
    left
    rcases hstart with hs | ⟨packet, hs⟩ | hs <;> exact ⟨by simp only [step, scaleDown, hs], id⟩
  | connected =>
    rcases hstart with hs | ⟨packet, hs⟩ | hs
    · exact Or.inl ⟨by simp only [step, connect, hs], id⟩
    · exact Or.inr (Or.inr ⟨packet, hs, Or.inl rfl⟩)
    · exact Or.inl ⟨by simp only [step, connect, hs], id⟩
  | refused rst now =>
    rcases hstart with hs | ⟨packet, hs⟩ | hs
    · exact Or.inl ⟨by simp only [step, refuse, hs], id⟩
    · exact Or.inr (Or.inr ⟨packet, hs, Or.inr ⟨rst, now, rfl⟩⟩)
    · exact Or.inl ⟨by simp only [step, refuse, hs], id⟩
  | segment tcp now =>
    by_cases hbegins : w.Begins (.segment tcp now)
    · exact Or.inr (Or.inl hbegins)
    · refine Or.inl ⟨?_, hbegins⟩
      rcases hstart with hs | ⟨packet, hs⟩ | hs
      · simp only [step, receive, hs, if_neg fun hsyn => hbegins ⟨hs, hsyn⟩]
      · simp only [step, receive, hs]
      · simp only [step, receive, hs]

lemma receive_syn (settings : TcpBufferSettings) {tcp : Segment} (now : UInt32) (hs : w.sending = .listening) (hsyn : tcp.syn = true) :
    let c := w.toConnectionState.synchronize settings tcp
    let w' := w.receive settings tcp now
    w'.toConnectionState = { c with receiveSeq := tcp.seq + 1 } ∧ w'.packets = w.packets ∧ w'.writes = w.writes ∧
      w'.reading = w.reading ∧ w'.reads = w.reads ∧
      (w'.sending = .refused ∨ ∃ packet, w'.sending = .dialing packet ∧ packet.seq = tcp.seq ∧
        packet.ackNumber = tcp.seq + 1 ∧ packet.payload = [] ∧ packet.length = 1) := by
  simp only [receive, hs, if_pos hsyn]
  cases hpacket : (w.toConnectionState.synchronize settings tcp).synAck settings.mtu now with
  | error fault => exact ⟨rfl, rfl, rfl, rfl, rfl, Or.inl rfl⟩
  | ok packet =>
    refine ⟨rfl, rfl, rfl, rfl, rfl, Or.inr ⟨packet, rfl, ?_⟩⟩
    rw [ConnectionState.synAck] at hpacket
    split at hpacket <;> cases hpacket
    exact ⟨rfl, rfl, rfl, rfl⟩

end TcpSequence

end UrConnect.Ip.Tcp
