import UrConnect.Wire.EncodePack
import UrConnect.Wire.AckRoundTrip

/-! An encoded pack transfer frame has the size computed for it and decodes to what was encoded. -/

namespace UrConnect.Wire

open Lib.WireFormat

variable {r : Reader}

lemma setWidth_signExtend (x : BitVec 32) : (x.signExtend 64).setWidth 32 = x := by
  apply BitVec.eq_of_getElem_eq
  intro i hi
  have hwide : i < 64 := Nat.lt_trans hi (by decide)
  rw [BitVec.getElem_setWidth, BitVec.getLsbD_signExtend, if_pos hi, decide_eq_true hwide, Bool.true_and,
    BitVec.getLsbD_eq_getElem hi]

lemma decodeEnum_toUInt64 (x : Int32) : decodeEnum x.toInt64.toUInt64 = x := by
  apply Int32.toBitVec_inj.mp
  exact setWidth_signExtend x.toBitVec

lemma decodeBool_one : decodeBool 1 = true := rfl

lemma flag_consumes {σ : Type} {take : ℕ → ℕ → List UInt8 → σ → Option (σ × ℕ)} (hr : r.Standard)
    {number : ℕ} (h0 : 0 < number) (hn : number < 2 ^ 29) (flag : Bool) (put : Bool → σ)
    (ht : ∀ b, take number varintType b (put false) = r.varintField varintType b fun v => put (decodeBool v)) :
    Consumes take (if flag then [⟨number, .varint 1⟩] else []) (put false) (put flag) := by
  apply Consumes.ite
  · intro h
    refine Consumes.varint hr h0 hn _ ht ?_
    rw [decodeBool_one, h]
  · intro h
    rw [Bool.eq_false_iff.mpr h]

lemma message_consumes (hr : r.Standard) {f : Frame} (hf : f.messageBytes.length < 2 ^ 64) :
    Consumes (decodeFrameField r) (messageFields f) ⟨0, [], false⟩ f := by
  have htype : Consumes (decodeFrameField r)
      (if f.messageType ≠ 0 then [⟨1, .varint f.messageType.toInt64.toUInt64⟩] else [])
      ⟨0, [], false⟩ ⟨f.messageType, [], false⟩ := by
    apply Consumes.ite
    · intro _
      refine Consumes.varint hr (by decide) (by decide) _ (fun _ => by rw [decodeFrameField]) ?_
      rw [decodeEnum_toUInt64]
    · intro h
      rw [not_not.mp h]
  have hbytes : Consumes (decodeFrameField r)
      (if 0 < f.messageBytes.length then [⟨2, .bytes f.messageBytes⟩] else [])
      ⟨f.messageType, [], false⟩ ⟨f.messageType, f.messageBytes, false⟩ := by
    apply Consumes.ite
    · intro _
      exact Consumes.bytes hr (by decide) (by decide) hf (fun _ => by rw [decodeFrameField]) rfl
    · intro h
      rw [List.eq_nil_of_length_eq_zero (Nat.eq_zero_of_not_pos h)]
  have hraw : Consumes (decodeFrameField r) _ _ f := flag_consumes hr (show 0 < 3 by decide) (by decide) f.raw
    (fun flag => { f with raw := flag }) fun _ => rfl
  exact (htype.append hbytes).append hraw

lemma decodeFrame_encode (hr : r.Standard) {f : Frame} (hf : f.messageBytes.length < 2 ^ 64) :
    decodeFrame r (encode (messageFields f)) = some f :=
  readMessage_encode hr (message_consumes hr hf)

namespace SendPackFrame

variable {m : SendPackFrame}

def decoded (m : SendPackFrame) : ProtoPack where
  messageId := m.messageId.bytes
  sequenceId := m.sequenceId.bytes
  sequenceNumber := m.sequenceNumber
  head := m.head
  frames := m.frames
  nack := m.nack
  contractFrame := m.contractFrame
  tag := some ⟨m.tagSendTime⟩
  contractId := m.contractId.map Id.bytes

lemma frames_consumes (hr : r.Standard) {frames : List Frame} (h : ∀ f ∈ frames, sizeFrame f < 2 ^ 63)
    (pack : ProtoPack) :
    Consumes (decodePackField r) (frames.flatMap fun f => [⟨5, .bytes (encode (messageFields f))⟩]) pack
      { pack with frames := pack.frames ++ frames } := by
  induction frames generalizing pack with
  | nil =>
    rw [List.append_nil]
    exact .nil pack
  | cons f frames ih =>
    have hf := h f List.mem_cons_self
    have hlen : f.messageBytes.length < 2 ^ 64 := by
      have := le_sizeFrame f
      omega
    have hfirst : Consumes (decodePackField r) [⟨5, .bytes (encode (messageFields f))⟩] pack
        { pack with frames := pack.frames ++ [f] } := by
      refine Consumes.bytes hr (by decide) (by decide) ?_ (fun _ => by rw [decodePackField]) ?_
      · rw [← (message_emits hf).size_eq]
        omega
      · rw [decodeFrame_encode hr hlen]
        rfl
    have hrest := ih (fun g hg => h g (List.mem_cons_of_mem f hg)) { pack with frames := pack.frames ++ [f] }
    rw [List.append_assoc, List.singleton_append] at hrest
    exact hfirst.append hrest

lemma pack_consumes (hr : r.Standard) (h : m.sizePack < 2 ^ 63) :
    Consumes (decodePackField r) m.packFields {} m.decoded := by
  have hmessage : Consumes (decodePackField r) [idField 1 m.messageId] {} { messageId := m.messageId.bytes } := by
    refine id_consumes hr Nat.one_pos (by decide) _ (fun _ => by rw [decodePackField]) ?_
    rfl
  have hsequence : Consumes (decodePackField r) [idField 2 m.sequenceId] { messageId := m.messageId.bytes }
      { messageId := m.messageId.bytes, sequenceId := m.sequenceId.bytes } := by
    refine id_consumes hr Nat.two_pos (by decide) _ (fun _ => by rw [decodePackField]) ?_
    rfl
  let ids : ProtoPack := { messageId := m.messageId.bytes, sequenceId := m.sequenceId.bytes }
  have hnumber : Consumes (decodePackField r)
      (if m.sequenceNumber ≠ 0 then [⟨3, .varint m.sequenceNumber⟩] else []) ids
      { ids with sequenceNumber := m.sequenceNumber } := by
    apply Consumes.ite
    · intro _
      exact Consumes.varint hr (by decide) (by decide) _ (fun _ => by rw [decodePackField]) rfl
    · intro hzero
      rw [not_not.mp hzero]
  have hhead : Consumes (decodePackField r) _ _ _ := flag_consumes hr (show 0 < 4 by decide) (by decide) m.head
    (fun flag => { ids with sequenceNumber := m.sequenceNumber, head := flag }) fun _ => rfl
  let numbered : ProtoPack := { ids with sequenceNumber := m.sequenceNumber, head := m.head }
  have hframes := frames_consumes hr (fun f hf => Nat.lt_of_le_of_lt (sizeFrame_le hf) h) numbered
  have hnack : Consumes (decodePackField r) _ _ _ := flag_consumes hr (show 0 < 6 by decide) (by decide) m.nack
    (fun flag => { numbered with frames := m.frames, nack := flag }) fun _ => rfl
  let framed : ProtoPack := { numbered with frames := m.frames, nack := m.nack }
  have hcontract : Consumes (decodePackField r) (m.contractFrame.elim [] fun f =>
      [⟨7, .bytes (encode (messageFields f))⟩]) framed { framed with contractFrame := m.contractFrame } := by
    cases hf : m.contractFrame with
    | none => exact .nil _
    | some f =>
      have hsize := Nat.lt_of_le_of_lt (sizeFrame_contract_le hf) h
      have hlen := Nat.lt_of_le_of_lt (le_sizeFrame f) hsize
      refine Consumes.bytes hr (by decide) (by decide) ?_ (fun _ => by rw [decodePackField]) ?_
      · rw [← (message_emits hsize).size_eq]
        omega
      · rw [decodeFrame_encode hr (Nat.lt_trans hlen (by decide))]
        rfl
  have htag : Consumes (decodePackField r) [⟨8, .bytes (encode (tagFields m.tagSendTime))⟩]
      { framed with contractFrame := m.contractFrame } { m.decoded with contractId := none } := by
    refine Consumes.bytes hr (by decide) (by decide) ?_ (fun _ => by rw [decodePackField]) ?_
    · rw [← (tagBody_emits m.tagSendTime).size_eq]
      have := sizeTagBody_le m.tagSendTime
      omega
    · rw [decodeTag_encode hr]
      rfl
  have hid : Consumes (decodePackField r) (m.contractId.elim [] fun contractId => [idField 9 contractId])
      { m.decoded with contractId := none } m.decoded := by
    rw [decoded]
    cases m.contractId with
    | none => exact .nil _
    | some contractId =>
      refine id_consumes hr (by decide) (by decide) _ (fun _ => by rw [decodePackField]) ?_
      rw [copyProtoBytes_id]
      rfl
  have hall := (((((((hmessage.append hsequence).append hnumber).append hhead).append hframes).append hnack).append
    hcontract).append htag).append hid
  rw [packFields]
  cases hframe : m.contractFrame <;> cases hcontractId : m.contractId <;> rw [hframe, hcontractId] at hall <;> exact hall

lemma decodePack_encode (hr : r.Standard) (h : m.sizePack < 2 ^ 63) :
    decodePack r (encode m.packFields) = some m.decoded :=
  readMessage_encode hr (pack_consumes hr h)

lemma frame_consumes (hr : r.Standard) (h : m.sizePack < 2 ^ 63) (tf : ProtoTransferFrame)
    (hrole : tf.sessionRole = none) (hcompanion : tf.sessionCompanion = none) :
    Consumes (unmarshalTransferFrameField r true) m.frameFields tf
      { tf with
        transferPath := some (toProtobuf m.path)
        pack := some m.decoded
        sessionRole := if m.sessionRoleSet then some m.sessionRole else none
        sessionCompanion := if m.companion then some true else none } := by
  let routed : ProtoTransferFrame := { tf with transferPath := some (toProtobuf m.path) }
  let packed : ProtoTransferFrame := { routed with pack := some m.decoded }
  have hpath : Consumes (unmarshalTransferFrameField r true) [⟨1, .bytes (encode (pathFields m.path))⟩] tf routed := by
    refine Consumes.bytes hr (by decide) (by decide) ?_ (fun _ => by rw [unmarshalTransferFrameField]) ?_
    · rw [← (transferPath_emits m.path).size_eq]
      exact sizeTransferPath_lt m.path
    · rw [if_pos rfl, decodeTransferPathProto_encode hr]
      rfl
  have htype : Consumes (unmarshalTransferFrameField r true)
      [⟨3, .varint messageTypeTransferPack.toInt64.toUInt64⟩] routed routed :=
    Consumes.varint hr (by decide) (by decide) _ (fun _ => by rw [unmarshalTransferFrameField]) rfl
  have hpack : Consumes (unmarshalTransferFrameField r true) [⟨4, .bytes (encode m.packFields)⟩] routed packed := by
    refine Consumes.bytes hr (by decide) (by decide) ?_ (fun _ => by rw [unmarshalTransferFrameField]) ?_
    · rw [← (pack_emits h).size_eq]
      omega
    · rw [decodePack_encode hr h]
      rfl
  have hsession : Consumes (unmarshalTransferFrameField r true)
      (if m.sessionRoleSet then [⟨7, .varint m.sessionRole.toInt64.toUInt64⟩] else []) packed
      { packed with sessionRole := if m.sessionRoleSet then some m.sessionRole else none } := by
    apply Consumes.ite
    · intro hset
      refine Consumes.varint hr (by decide) (by decide) _ (fun _ => by rw [unmarshalTransferFrameField]) ?_
      rw [decodeEnum_toUInt64, if_pos hset]
    · intro hset
      rw [if_neg hset, ← hrole]
  have hpeer : Consumes (unmarshalTransferFrameField r true)
      (if m.companion then [⟨8, .varint 1⟩] else [])
      { packed with sessionRole := if m.sessionRoleSet then some m.sessionRole else none }
      { packed with
        sessionRole := if m.sessionRoleSet then some m.sessionRole else none
        sessionCompanion := if m.companion then some true else none } := by
    apply Consumes.ite
    · intro hset
      refine Consumes.varint hr (by decide) (by decide) _ (fun _ => by rw [unmarshalTransferFrameField]) ?_
      rw [decodeBool_one, if_pos hset]
    · intro hset
      rw [if_neg hset, ← hcompanion]
  exact (((hpath.append htype).append hpack).append hsession).append hpeer

structure Exact (m : SendPackFrame) : Prop where
  path : (UInt64.ofNat (sizeTransferPath m.path)).toNat = (appendTransferPath [] m.path).length
  pack : (UInt64.ofNat m.sizePack).toNat = (m.appendPack []).length
  frames : ∀ f ∈ m.frames, (UInt64.ofNat (sizeFrame f)).toNat = (appendFrame [] f).length ∧
    (UInt64.ofNat f.messageBytes.length).toNat = f.messageBytes.length
  contractFrame : ∀ f, m.contractFrame = some f → (UInt64.ofNat (sizeFrame f)).toNat = (appendFrame [] f).length ∧
    (UInt64.ofNat f.messageBytes.length).toNat = f.messageBytes.length
  tag : (UInt64.ofNat (sizeTagBody m.tagSendTime)).toNat = (appendTagBody [] m.tagSendTime).length
  bytes : m.append [] = encode m.frameFields

structure RoundTrips (r : Reader) (m : SendPackFrame) : Prop where
  length : (m.append []).length = m.size
  exact : m.Exact
  decodes : ∃ tf, unmarshalTransferFrame r (m.append []) {} true = some tf ∧
    transferPathFromProtobuf tf.transferPath = .ok m.path ∧
    tf.pack = some {
      messageId := m.messageId.bytes
      sequenceId := m.sequenceId.bytes
      sequenceNumber := m.sequenceNumber
      head := m.head
      frames := m.frames
      nack := m.nack
      contractFrame := m.contractFrame
      tag := some ⟨m.tagSendTime⟩
      contractId := m.contractId.map Id.bytes } ∧
    tf.sessionRole = (if m.sessionRoleSet then some m.sessionRole else none) ∧
    tf.sessionCompanion = (if m.companion then some true else none) ∧
    tf.frame = none ∧ tf.ack = none ∧ tf.encryptedTransferFrame = none

lemma exact_length {n : ℕ} {append : List UInt8 → List UInt8} {fs : List Field} (h : Emits n append fs)
    (hn : n < 2 ^ 64) : (UInt64.ofNat n).toNat = (append []).length := by
  rw [UInt64.toNat_ofNat_of_lt' hn, h.append_eq, List.nil_append, h.size_eq]

lemma exact_frame {f : Frame} (h : sizeFrame f < 2 ^ 63) :
    (UInt64.ofNat (sizeFrame f)).toNat = (appendFrame [] f).length ∧
      (UInt64.ofNat f.messageBytes.length).toNat = f.messageBytes.length := by
  have hsize : sizeFrame f < 2 ^ 64 := by omega
  have hlen : f.messageBytes.length < 2 ^ 64 := Nat.lt_of_le_of_lt (le_sizeFrame f) hsize
  exact ⟨exact_length (message_emits h) hsize, UInt64.toNat_ofNat_of_lt' hlen⟩

lemma exact_of_size (h : m.size < 2 ^ 63) : m.Exact := by
  have hpack : m.sizePack < 2 ^ 63 := Nat.lt_of_le_of_lt sizePack_le h
  have hlong : m.sizePack < 2 ^ 64 := by omega
  refine ⟨exact_length (transferPath_emits m.path) (sizeTransferPath_lt m.path),
    exact_length (pack_emits hpack) hlong,
    fun f hf => exact_frame (Nat.lt_of_le_of_lt (sizeFrame_le hf) hpack),
    fun f hf => exact_frame (Nat.lt_of_le_of_lt (sizeFrame_contract_le hf) hpack), ?_, ?_⟩
  · apply exact_length (tagBody_emits m.tagSendTime)
    have := sizeTagBody_le m.tagSendTime
    omega
  · rw [(frame_emits h).append_eq, List.nil_append]

lemma unmarshal_append (hr : r.Standard) (h : m.size < 2 ^ 63) :
    unmarshalTransferFrame r (m.append []) {} true = some {
      transferPath := some (toProtobuf m.path)
      pack := some m.decoded
      sessionRole := if m.sessionRoleSet then some m.sessionRole else none
      sessionCompanion := if m.companion then some true else none } := by
  have hpack : m.sizePack < 2 ^ 63 := Nat.lt_of_le_of_lt sizePack_le h
  rw [(frame_emits h).append_eq, List.nil_append]
  exact readMessage_encode hr (frame_consumes hr hpack {} rfl rfl)

/-- The size of a frame is an `int`: there is no buffer for a longer one. -/
theorem pack_round_trip (hr : r.Standard) (m : SendPackFrame) (hsize : m.size < 2 ^ 63) : m.RoundTrips r := by
  refine ⟨?_, exact_of_size hsize, _, unmarshal_append hr hsize, transferPathFromProtobuf_toProtobuf m.path,
    rfl, rfl, rfl, rfl, rfl, rfl⟩
  rw [(frame_emits hsize).append_eq, (frame_emits hsize).size_eq, List.nil_append]

def carried : SendPackFrame where
  path := ⟨Id.ofByte 2, Id.ofByte 1, Id.zero⟩
  messageId := Id.ofByte 4
  sequenceId := Id.ofByte 3
  sequenceNumber := 300
  head := true
  nack := false
  frames := [⟨-1, [], false⟩, ⟨0, [1, 2, 3], true⟩]
  contractFrame := some ⟨2, [9], false⟩
  tagSendTime := 0
  contractId := none
  sessionRole := 1
  sessionRoleSet := true
  companion := false

theorem pack_round_trip_carried : carried.size = 116 ∧ carried.RoundTrips reader :=
  ⟨by decide +kernel, pack_round_trip reader_standard carried (by decide +kernel)⟩

end SendPackFrame

end UrConnect.Wire
