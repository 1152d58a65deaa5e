import Mathlib.Algebra.Order.BigOperators.Group.List
import Mathlib.Algebra.Order.Ring.Nat
import UrConnect.Wire.Encode

/-! The hand-rolled encoder of the pack transfer frame. -/

namespace UrConnect.Wire

open Lib.WireFormat

def messageTypeTransferPack : Int32 := 0

def sizeFrame (f : Frame) : ℕ :=
  (if f.messageType ≠ 0 then protoSizeTag 1 + protoSizeVarint f.messageType.toInt64.toUInt64 else 0) +
  (if 0 < f.messageBytes.length then
    protoSizeTag 2 + protoSizeVarint (UInt64.ofNat f.messageBytes.length) + f.messageBytes.length
  else 0) +
  (if f.raw then protoSizeTag 3 + 1 else 0)

def appendFrame (b : List UInt8) (f : Frame) : List UInt8 :=
  let b := if f.messageType ≠ 0 then
      protoAppendVarint (protoAppendTag b 1 protoWireVarint) f.messageType.toInt64.toUInt64
    else b
  let b := if 0 < f.messageBytes.length then
      protoAppendVarint (protoAppendTag b 2 protoWireBytes) (UInt64.ofNat f.messageBytes.length) ++ f.messageBytes
    else b
  if f.raw then protoAppendTag b 3 protoWireVarint ++ [1] else b

structure SendPackFrame where
  path : TransferPath
  messageId : Id
  sequenceId : Id
  sequenceNumber : UInt64
  head : Bool
  nack : Bool
  frames : List Frame
  contractFrame : Option Frame
  tagSendTime : UInt64
  contractId : Option Id
  sessionRole : Int32
  sessionRoleSet : Bool
  companion : Bool

namespace SendPackFrame

variable (m : SendPackFrame)

def sizePack : ℕ :=
  let tagBody := if m.tagSendTime ≠ 0 then protoSizeTag 1 + protoSizeVarint m.tagSendTime else 0
  protoSizeTag 1 + protoSizeVarint 16 + 16 +
  (protoSizeTag 2 + protoSizeVarint 16 + 16) +
  (if m.sequenceNumber ≠ 0 then protoSizeTag 3 + protoSizeVarint m.sequenceNumber else 0) +
  (if m.head then protoSizeTag 4 + 1 else 0) +
  (m.frames.map fun f =>
    let fs := sizeFrame f
    protoSizeTag 5 + protoSizeVarint (UInt64.ofNat fs) + fs).sum +
  (if m.nack then protoSizeTag 6 + 1 else 0) +
  (match m.contractFrame with
    | some f =>
      let fs := sizeFrame f
      protoSizeTag 7 + protoSizeVarint (UInt64.ofNat fs) + fs
    | none => 0) +
  (protoSizeTag 8 + protoSizeVarint (UInt64.ofNat tagBody) + tagBody) +
  (match m.contractId with
    | some _ => protoSizeTag 9 + protoSizeVarint 16 + 16
    | none => 0)

def appendPack (b : List UInt8) : List UInt8 :=
  let b := appendIdField b 1 m.messageId
  let b := appendIdField b 2 m.sequenceId
  let b := if m.sequenceNumber ≠ 0 then
      protoAppendVarint (protoAppendTag b 3 protoWireVarint) m.sequenceNumber
    else b
  let b := if m.head then protoAppendTag b 4 protoWireVarint ++ [1] else b
  let b := m.frames.foldl (fun b f =>
    let b := protoAppendTag b 5 protoWireBytes
    let b := protoAppendVarint b (UInt64.ofNat (sizeFrame f))
    appendFrame b f) b
  let b := if m.nack then protoAppendTag b 6 protoWireVarint ++ [1] else b
  let b := match m.contractFrame with
    | some f =>
      let b := protoAppendTag b 7 protoWireBytes
      let b := protoAppendVarint b (UInt64.ofNat (sizeFrame f))
      appendFrame b f
    | none => b
  let tagBody := if m.tagSendTime ≠ 0 then protoSizeTag 1 + protoSizeVarint m.tagSendTime else 0
  let b := protoAppendTag b 8 protoWireBytes
  let b := protoAppendVarint b (UInt64.ofNat tagBody)
  let b := if m.tagSendTime ≠ 0 then
      protoAppendVarint (protoAppendTag b 1 protoWireVarint) m.tagSendTime
    else b
  match m.contractId with
  | some contractId => appendIdField b 9 contractId
  | none => b

def size : ℕ :=
  let pathSize := sizeTransferPath m.path
  let packSize := m.sizePack
  protoSizeTag 1 + protoSizeVarint (UInt64.ofNat pathSize) + pathSize +
  (protoSizeTag 3 + protoSizeVarint messageTypeTransferPack.toInt64.toUInt64) +
  (protoSizeTag 4 + protoSizeVarint (UInt64.ofNat packSize) + packSize) +
  (if m.sessionRoleSet then protoSizeTag 7 + protoSizeVarint m.sessionRole.toInt64.toUInt64 else 0) +
  (if m.companion then protoSizeTag 8 + 1 else 0)

def append (b : List UInt8) : List UInt8 :=
  let b := protoAppendTag b 1 protoWireBytes
  let b := protoAppendVarint b (UInt64.ofNat (sizeTransferPath m.path))
  let b := appendTransferPath b m.path
  let b := protoAppendTag b 3 protoWireVarint
  let b := protoAppendVarint b messageTypeTransferPack.toInt64.toUInt64
  let b := protoAppendTag b 4 protoWireBytes
  let b := protoAppendVarint b (UInt64.ofNat m.sizePack)
  let b := m.appendPack b
  let b := if m.sessionRoleSet then
      protoAppendVarint (protoAppendTag b 7 protoWireVarint) m.sessionRole.toInt64.toUInt64
    else b
  if m.companion then protoAppendTag b 8 protoWireVarint ++ [1] else b

end SendPackFrame

/-! The fields each encoder writes. -/

def messageFields (f : Frame) : List Field :=
  (if f.messageType ≠ 0 then [⟨1, .varint f.messageType.toInt64.toUInt64⟩] else []) ++
  (if 0 < f.messageBytes.length then [⟨2, .bytes f.messageBytes⟩] else []) ++
  (if f.raw then [⟨3, .varint 1⟩] else [])

namespace SendPackFrame

variable (m : SendPackFrame)

def packFields : List Field :=
  [idField 1 m.messageId] ++ [idField 2 m.sequenceId] ++
  (if m.sequenceNumber ≠ 0 then [⟨3, .varint m.sequenceNumber⟩] else []) ++
  (if m.head then [⟨4, .varint 1⟩] else []) ++
  (m.frames.flatMap fun f => [⟨5, .bytes (encode (messageFields f))⟩]) ++
  (if m.nack then [⟨6, .varint 1⟩] else []) ++
  (match m.contractFrame with
    | some f => [⟨7, .bytes (encode (messageFields f))⟩]
    | none => []) ++
  [⟨8, .bytes (encode (tagFields m.tagSendTime))⟩] ++
  (match m.contractId with
    | some contractId => [idField 9 contractId]
    | none => [])

def frameFields : List Field :=
  [⟨1, .bytes (encode (pathFields m.path))⟩] ++
  [⟨3, .varint messageTypeTransferPack.toInt64.toUInt64⟩] ++
  [⟨4, .bytes (encode m.packFields)⟩] ++
  (if m.sessionRoleSet then [⟨7, .varint m.sessionRole.toInt64.toUInt64⟩] else []) ++
  (if m.companion then [⟨8, .varint 1⟩] else [])

end SendPackFrame

/-! Sizes are exact as long as they are those of buffers that exist. -/

lemma le_sizeFrame (f : Frame) : f.messageBytes.length ≤ sizeFrame f := by
  have hbytes : f.messageBytes.length ≤ if 0 < f.messageBytes.length then
      protoSizeTag 2 + protoSizeVarint (UInt64.ofNat f.messageBytes.length) + f.messageBytes.length else 0 := by
    split <;> omega
  rw [sizeFrame]
  omega

lemma message_emits {f : Frame} (h : sizeFrame f < 2 ^ 63) :
    Emits (sizeFrame f) (fun b => appendFrame b f) (messageFields f) := by
  have hlen : f.messageBytes.length < 2 ^ 64 := by
    have := le_sizeFrame f
    omega
  have htype := (Emits.varint 1 (by decide) f.messageType.toInt64.toUInt64).ite (f.messageType ≠ 0)
  have hbytes := (Emits.bytes 2 (by decide) hlen).ite (0 < f.messageBytes.length)
  have hraw := (flag_emits 3 (by decide)).ite (f.raw = true)
  exact (htype.seq hbytes).seq hraw

namespace SendPackFrame

variable {m : SendPackFrame}

lemma sizePack_le : m.sizePack ≤ m.size := by
  rw [size]
  omega

lemma sizeFrame_le {f : Frame} (hf : f ∈ m.frames) : sizeFrame f ≤ m.sizePack := by
  have hsum := List.single_le_sum (fun _ _ => Nat.zero_le _) _ (List.mem_map_of_mem (f := fun f =>
    protoSizeTag 5 + protoSizeVarint (UInt64.ofNat (sizeFrame f)) + sizeFrame f) hf)
  rw [sizePack]
  dsimp only at hsum ⊢
  omega

lemma sizeFrame_contract_le {f : Frame} (hf : m.contractFrame = some f) : sizeFrame f ≤ m.sizePack := by
  rw [sizePack, hf]
  dsimp only
  omega

lemma pack_emits (h : m.sizePack < 2 ^ 63) : Emits m.sizePack m.appendPack m.packFields := by
  have hids := (idField_emits 1 (by decide) m.messageId).seq (idField_emits 2 (by decide) m.sequenceId)
  have hnumber := hids.seq ((Emits.varint 3 (by decide) m.sequenceNumber).ite (m.sequenceNumber ≠ 0))
  have hhead := hnumber.seq ((flag_emits 4 (by decide)).ite (m.head = true))
  have hframe : ∀ f ∈ m.frames, _ := fun f hf =>
    (message_emits (Nat.lt_of_le_of_lt (sizeFrame_le hf) h)).message 5 (by decide)
      (Nat.lt_trans (Nat.lt_of_le_of_lt (sizeFrame_le hf) h) (by decide))
  have hframes := hhead.seq (Emits.each hframe)
  have hnack := hframes.seq ((flag_emits 6 (by decide)).ite (m.nack = true))
  have htag : sizeTagBody m.tagSendTime < 2 ^ 64 := by
    have := sizeTagBody_le m.tagSendTime
    omega
  have hbody := (tagBody_emits m.tagSendTime).message 8 (by decide) htag
  have hcontract : ∀ f, m.contractFrame = some f → _ := fun f hf =>
    (message_emits (Nat.lt_of_le_of_lt (sizeFrame_contract_le hf) h)).message 7 (by decide)
      (Nat.lt_trans (Nat.lt_of_le_of_lt (sizeFrame_contract_le hf) h) (by decide))
  obtain ⟨path, messageId, sequenceId, number, head, nack, frames, contractFrame, time, contractId, role, set, companion⟩ := m
  cases contractFrame with
  | none =>
    cases contractId with
    | none => exact ((hnack.seq Emits.nil).seq hbody).seq Emits.nil
    | some contractId => exact ((hnack.seq Emits.nil).seq hbody).seq (idField_emits 9 (by decide) contractId)
  | some f =>
    cases contractId with
    | none => exact ((hnack.seq (hcontract f rfl)).seq hbody).seq Emits.nil
    | some contractId => exact ((hnack.seq (hcontract f rfl)).seq hbody).seq (idField_emits 9 (by decide) contractId)

lemma frame_emits (h : m.size < 2 ^ 63) : Emits m.size m.append m.frameFields := by
  have hpack : m.sizePack < 2 ^ 63 := Nat.lt_of_le_of_lt sizePack_le h
  have hpath := (transferPath_emits m.path).message 1 (by decide) (sizeTransferPath_lt m.path)
  have htype := hpath.seq (Emits.varint 3 (by decide) messageTypeTransferPack.toInt64.toUInt64)
  have hbody := htype.seq ((pack_emits hpack).message 4 (by decide) (Nat.lt_trans hpack (by decide)))
  have hrole := hbody.seq ((Emits.varint 7 (by decide) m.sessionRole.toInt64.toUInt64).ite (m.sessionRoleSet = true))
  exact hrole.seq ((flag_emits 8 (by decide)).ite (m.companion = true))

end SendPackFrame

end UrConnect.Wire
