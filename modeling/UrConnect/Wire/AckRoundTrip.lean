import UrConnect.Wire.Encode
import UrConnect.Wire.Decode
import UrConnect.Transfer.AckWindow

/-! An encoded ack transfer frame decodes to what was encoded, except for its receive window. -/

namespace UrConnect.Wire

open Lib.WireFormat

variable {r : Reader}

lemma Id.bytes_ne_nil (id : Id) : id.bytes ≠ [] := by
  have := id.length_eq
  intro h
  rw [h] at this
  cases this

lemma copyProtoBytes_id (id : Id) : copyProtoBytes id.bytes = some id.bytes :=
  if_neg (Id.bytes_ne_nil id)

lemma id_consumes {σ : Type} {take : ℕ → ℕ → List UInt8 → σ → Option (σ × ℕ)} (hr : r.Standard)
    {number : ℕ} (h0 : 0 < number) (hn : number < 2 ^ 29) (id : Id) {s s' : σ} {set : List UInt8 → Option σ}
    (ht : ∀ b, take number bytesType b s = r.bytesField bytesType b set) (hs : set id.bytes = some s') :
    Consumes take [idField number id] s s' := by
  apply Consumes.bytes hr h0 hn _ ht hs
  rw [id.length_eq]
  decide

lemma optionalId_consumes {σ : Type} {take : ℕ → ℕ → List UInt8 → σ → Option (σ × ℕ)} (hr : r.Standard)
    {number : ℕ} (h0 : 0 < number) (hn : number < 2 ^ 29) (id : Id) (put : Option (List UInt8) → σ)
    (ht : ∀ b, take number bytesType b (put none) =
      r.bytesField bytesType b fun v => some (put (copyProtoBytes v))) :
    Consumes take (if id ≠ Id.zero then [idField number id] else []) (put none)
      (put (if id ≠ Id.zero then some id.bytes else none)) := by
  apply Consumes.ite
  · intro h
    apply id_consumes hr h0 hn id ht
    rw [copyProtoBytes_id, if_pos h]
  · intro h
    rw [if_neg h]

lemma tag_consumes (hr : r.Standard) (sendTime : UInt64) :
    Consumes (decodeTagField r) (tagFields sendTime) ⟨0⟩ ⟨sendTime⟩ := by
  apply Consumes.ite
  · intro _
    exact Consumes.varint hr (by decide) (by decide) sendTime (fun _ => by rw [decodeTagField]) rfl
  · intro h
    rw [not_not.mp h]

lemma path_consumes (hr : r.Standard) (path : TransferPath) :
    Consumes (decodeTransferPathField r) (pathFields path) {} (toProtobuf path) := by
  have hd : Consumes (decodeTransferPathField r) _ _ _ := optionalId_consumes hr Nat.one_pos (by decide)
    path.destinationId (fun v => ({ destinationId := v } : ProtoTransferPath)) fun _ => rfl
  have hs : Consumes (decodeTransferPathField r) _ _ _ := optionalId_consumes hr Nat.two_pos (by decide)
    path.sourceId (fun v => { toProtobuf path with sourceId := v, streamId := none }) fun _ => rfl
  have ht : Consumes (decodeTransferPathField r) _ _ _ := optionalId_consumes hr (show 0 < 3 by decide) (by decide)
    path.streamId (fun v => { toProtobuf path with streamId := v }) fun _ => rfl
  exact (hd.append hs).append ht

lemma decodeTag_encode (hr : r.Standard) (sendTime : UInt64) :
    decodeTag r (encode (tagFields sendTime)) = some ⟨sendTime⟩ :=
  readMessage_encode hr (tag_consumes hr sendTime)

lemma decodeTransferPathProto_encode (hr : r.Standard) (path : TransferPath) :
    decodeTransferPathProto r (encode (pathFields path)) = some (toProtobuf path) :=
  readMessage_encode hr (path_consumes hr path)

lemma transferPathFromProtobuf_toProtobuf (path : TransferPath) :
    transferPathFromProtobuf (some (toProtobuf path)) = .ok path := by
  have hid (id : Id) : optionalIdFromBytes (if id ≠ Id.zero then some id.bytes else none) = .ok id := by
    by_cases h : id = Id.zero
    · rw [if_neg (not_not.mpr h), h]
      rfl
    · rw [if_pos h]
      exact idFromBytes_bytes id
  simp only [transferPathFromProtobuf, transferPathFromBytes, toProtobuf, hid]
  rfl

namespace SendAckFrame

variable (m : SendAckFrame)

def decoded : ProtoAck where
  messageId := m.messageId.bytes
  sequenceId := m.sequenceId.bytes
  selective := m.selective
  tag := m.tag

lemma ack_consumes (hr : r.Standard) : Consumes (decodeAckField r) m.ackFields {} m.decoded := by
  have hmessage : Consumes (decodeAckField r) [idField 1 m.messageId] {} { messageId := m.messageId.bytes } := by
    refine id_consumes hr Nat.one_pos (by decide) _ (fun _ => by rw [decodeAckField]) ?_
    rfl
  have hsequence : Consumes (decodeAckField r) [idField 2 m.sequenceId] { messageId := m.messageId.bytes }
      { m.decoded with selective := false, tag := none } := by
    refine id_consumes hr Nat.two_pos (by decide) _ (fun _ => by rw [decodeAckField]) ?_
    rfl
  have hselective : Consumes (decodeAckField r) (if m.selective then [⟨3, .varint 1⟩] else [])
      { m.decoded with selective := false, tag := none } { m.decoded with tag := none } := by
    apply Consumes.ite
    · intro h
      refine Consumes.varint hr (by decide) (by decide) 1 (fun _ => by rw [decodeAckField]) ?_
      rw [decoded, h]
      rfl
    · intro h
      rw [decoded, Bool.eq_false_iff.mpr h]
  have htag : Consumes (decodeAckField r) (m.tag.elim [] fun tag => [⟨4, .bytes (encode (tagFields tag.sendTime))⟩])
      { m.decoded with tag := none } m.decoded := by
    rw [decoded]
    cases m.tag with
    | none => exact .nil _
    | some tag =>
      refine Consumes.bytes hr (by decide) (by decide) ?_ (fun _ => by rw [decodeAckField]) ?_
      · rw [← (tagBody_emits tag.sendTime).size_eq]
        have := sizeTagBody_le tag.sendTime
        omega
      · rw [decodeTag_encode hr]
        rfl
  have hwindow : Consumes (decodeAckField r)
      (if m.receiveWindowSet then [⟨8, .varint m.receiveWindowByteCount⟩] else []) m.decoded m.decoded := by
    apply Consumes.ite
    · intro _
      exact .skip hr ⟨show 0 < 8 by decide, show 8 < 2 ^ 29 by decide, trivial⟩ fun _ => rfl
    · intro _
      rfl
  have hall := (((hmessage.append hsequence).append hselective).append htag).append hwindow
  rw [ackFields]
  cases htagged : m.tag with
  | none =>
    rw [htagged] at hall
    exact hall
  | some tag =>
    rw [htagged] at hall
    exact hall

lemma decodeAck_encode (hr : r.Standard) : decodeAck r (encode m.ackFields) = some m.decoded :=
  readMessage_encode hr (m.ack_consumes hr)

lemma frame_consumes (hr : r.Standard) (tf : ProtoTransferFrame) :
    Consumes (unmarshalTransferFrameField r true) m.frameFields tf
      { tf with transferPath := some (toProtobuf m.path), ack := some m.decoded } := by
  have hpath : Consumes (unmarshalTransferFrameField r true) [⟨1, .bytes (encode (pathFields m.path))⟩] tf
      { tf with transferPath := some (toProtobuf m.path) } := by
    refine Consumes.bytes hr (by decide) (by decide) ?_ (fun _ => by rw [unmarshalTransferFrameField]) ?_
    · rw [← (transferPath_emits m.path).size_eq]
      exact sizeTransferPath_lt m.path
    · rw [if_pos rfl, decodeTransferPathProto_encode hr]
      rfl
  have htype : Consumes (unmarshalTransferFrameField r true)
      [⟨3, .varint messageTypeTransferAck.toInt64.toUInt64⟩]
      { tf with transferPath := some (toProtobuf m.path) }
      { tf with transferPath := some (toProtobuf m.path) } :=
    Consumes.varint hr (by decide) (by decide) _ (fun _ => by rw [unmarshalTransferFrameField]) rfl
  have hack : Consumes (unmarshalTransferFrameField r true) [⟨5, .bytes (encode m.ackFields)⟩]
      { tf with transferPath := some (toProtobuf m.path) }
      { tf with transferPath := some (toProtobuf m.path), ack := some m.decoded } := by
    refine Consumes.bytes hr (by decide) (by decide) ?_ (fun _ => by rw [unmarshalTransferFrameField]) ?_
    · rw [← m.ack_emits.size_eq]
      exact m.sizeAck_lt
    · rw [decodeAck_encode m hr]
      rfl
  exact (hpath.append htype).append hack

lemma append_length : (m.append []).length = m.size := by
  rw [m.frame_emits.append_eq, m.frame_emits.size_eq, List.nil_append]

lemma unmarshal_append (hr : r.Standard) (tf : ProtoTransferFrame) :
    unmarshalTransferFrame r (m.append []) tf true =
      some { tf with transferPath := some (toProtobuf m.path), ack := some m.decoded } := by
  rw [m.frame_emits.append_eq, List.nil_append]
  exact readMessage_encode hr (m.frame_consumes hr tf)

def RoundTrips (r : Reader) : Prop :=
  (m.append []).length = m.size ∧
  ∃ tf, unmarshalTransferFrame r (m.append []) {} true = some tf ∧
    transferPathFromProtobuf tf.transferPath = .ok m.path ∧
    ∃ ack, tf.ack = some ack ∧
      ack.messageId = m.messageId.bytes ∧ ack.sequenceId = m.sequenceId.bytes ∧
      ack.selective = m.selective ∧ ack.tag = m.tag ∧
      ack.receiveWindowByteCount = if m.receiveWindowSet then some m.receiveWindowByteCount else none

lemma roundTrips_of_unset (hr : r.Standard) (h : m.receiveWindowSet = false) : m.RoundTrips r := by
  refine ⟨m.append_length, _, m.unmarshal_append hr {}, transferPathFromProtobuf_toProtobuf m.path,
    m.decoded, rfl, rfl, rfl, rfl, rfl, ?_⟩
  rw [h]
  rfl

lemma not_roundTrips_of_set (hr : r.Standard) (h : m.receiveWindowSet = true) : ¬ m.RoundTrips r := by
  rintro ⟨_, tf, htf, _, ack, hack, _, _, _, _, hwindow⟩
  rw [m.unmarshal_append hr, Option.some.injEq] at htf
  subst htf
  obtain rfl := Option.some.inj hack
  rw [h, if_pos rfl] at hwindow
  cases hwindow

theorem ack_round_trip (hr : r.Standard) : m.RoundTrips r ↔ m.receiveWindowSet = false := by
  constructor
  · intro h
    by_contra hset
    exact m.not_roundTrips_of_set hr ((Bool.not_eq_false _).mp hset) h
  · exact m.roundTrips_of_unset hr

def unadvertised : SendAckFrame where
  path := ⟨Id.ofByte 2, Id.ofByte 1, Id.zero⟩
  messageId := Id.ofByte 4
  sequenceId := Id.ofByte 3
  selective := true
  tag := some ⟨300⟩
  receiveWindowByteCount := 0
  receiveWindowSet := false

theorem ack_round_trip_unadvertised : unadvertised.RoundTrips reader :=
  (ack_round_trip unadvertised reader_standard).mpr rfl

end SendAckFrame

/-! The receiver's ack writer states its window on every ack. -/

def receiveWindowAdvertisement (receiveQueueMaxByteCount : ℤ) (budgetByteCount : Option ℤ) : ℤ :=
  max 0 (match budgetByteCount with
    | some total => min receiveQueueMaxByteCount total
    | none => receiveQueueMaxByteCount)

def writeAck (source : TransferPath) (clientId sequenceId : Id) (receiveWindow : ℤ)
    (sendAck : Transfer.SequenceAck) : SendAckFrame where
  path := source.reverse.addSource clientId
  messageId := sendAck.messageId
  sequenceId := sequenceId
  selective := sendAck.selective
  tag := sendAck.tag
  receiveWindowByteCount := UInt64.ofInt receiveWindow
  receiveWindowSet := true

def advertised : SendAckFrame :=
  writeAck ⟨Id.zero, Id.ofByte 2, Id.zero⟩ (Id.ofByte 1) (Id.ofByte 3)
    (receiveWindowAdvertisement 2097152 none)
    { sequenceNumber := 5, messageId := Id.ofByte 4, selective := false, tag := some ⟨7⟩, unwrapped := false }

theorem ack_window_lost :
    advertised.receiveWindowSet = true ∧ advertised.receiveWindowByteCount = 2097152 ∧
    unmarshalTransferFrame reader (advertised.append []) {} true =
      some { transferPath := some (toProtobuf advertised.path),
             ack := some { messageId := (Id.ofByte 4).bytes, sequenceId := (Id.ofByte 3).bytes,
                           selective := false, tag := some ⟨7⟩, receiveWindowByteCount := none } } ∧
    ¬ advertised.RoundTrips reader := by
  refine ⟨rfl, by decide +kernel, by decide +kernel, ?_⟩
  exact SendAckFrame.not_roundTrips_of_set _ reader_standard rfl

end UrConnect.Wire
