import UrConnect.Protocol
import UrConnect.Lib.WireFormat

/-! The hand-rolled encoder of the ack transfer frame. -/

namespace UrConnect.Wire

open Lib.WireFormat

def protoWireVarint : ℕ := 0

def protoWireBytes : ℕ := 2

lemma toNat_shiftRight_seven (v : UInt64) : (v >>> 7).toNat = v.toNat / 128 := by
  rw [UInt64.toNat_shiftRight, Nat.shiftRight_eq_div_pow]
  rfl

lemma continues_iff (v : UInt64) : 0x80 ≤ v ↔ 128 ≤ v.toNat := UInt64.le_iff_toNat_le

lemma shiftRight_seven_lt {v : UInt64} (h : 0x80 ≤ v) : (v >>> 7).toNat < v.toNat := by
  have hv := (continues_iff v).mp h
  rw [toNat_shiftRight_seven]
  omega

def protoSizeVarintFrom (v : UInt64) (n : ℕ) : ℕ :=
  if 0x80 ≤ v then protoSizeVarintFrom (v >>> 7) (n + 1) else n
termination_by v.toNat
decreasing_by exact shiftRight_seven_lt ‹_›

def protoSizeVarint (v : UInt64) : ℕ := protoSizeVarintFrom v 1

def protoAppendVarint (b : List UInt8) (v : UInt64) : List UInt8 :=
  if 0x80 ≤ v then protoAppendVarint (b ++ [v.toUInt8 ||| 0x80]) (v >>> 7) else b ++ [v.toUInt8]
termination_by v.toNat
decreasing_by exact shiftRight_seven_lt ‹_›

lemma protoSizeVarintFrom_eq (v : UInt64) (n : ℕ) :
    protoSizeVarintFrom v n + 1 = n + (varint v.toNat).length := by
  fun_induction protoSizeVarintFrom v n with
  | case1 v n h ih =>
    rw [toNat_shiftRight_seven] at ih
    rw [varint_of_le ((continues_iff v).mp h), List.length_cons]
    omega
  | case2 v n h =>
    rw [continues_iff, Nat.not_le] at h
    rw [varint_of_lt h, List.length_singleton]

lemma protoSizeVarint_eq (v : UInt64) : protoSizeVarint v = (varint v.toNat).length := by
  have := protoSizeVarintFrom_eq v 1
  rw [protoSizeVarint]
  omega

lemma protoSizeVarint_le (v : UInt64) : protoSizeVarint v ≤ 10 := by
  rw [protoSizeVarint_eq]
  exact varint_length_le (Nat.lt_trans v.toNat_lt (by decide))

lemma or_continuation : ∀ n < 256, n ||| 128 = n % 128 + 128 := by
  decide +kernel

lemma toUInt8_or_eq (v : UInt64) : v.toUInt8 ||| 0x80 = UInt8.ofNat (v.toNat % 128 + 128) := by
  have hb : (UInt8.ofNat (v.toNat % 128 + 128)).toNat = v.toNat % 128 + 128 :=
    UInt8.toNat_ofNat_of_lt (show _ < 256 by omega)
  have hor := or_continuation (v.toNat % 256) (Nat.mod_lt _ (by decide))
  rw [Nat.mod_mod_of_dvd _ (by decide)] at hor
  apply UInt8.toNat_inj.mp
  rw [UInt8.toNat_or, UInt64.toNat_toUInt8, hb]
  exact hor

lemma protoAppendVarint_eq (b : List UInt8) (v : UInt64) :
    protoAppendVarint b v = b ++ varint v.toNat := by
  fun_induction protoAppendVarint b v with
  | case1 b v h ih =>
    rw [ih, toNat_shiftRight_seven, varint_of_le ((continues_iff v).mp h), toUInt8_or_eq, List.append_assoc, List.singleton_append]
  | case2 b v h =>
    rw [continues_iff, Nat.not_le] at h
    rw [varint_of_lt h]
    rfl

def protoSizeTag (fieldNumber : ℕ) : ℕ := protoSizeVarint (UInt64.ofNat fieldNumber <<< 3)

def protoAppendTag (b : List UInt8) (fieldNumber wireType : ℕ) : List UInt8 :=
  protoAppendVarint b (UInt64.ofNat fieldNumber <<< 3 ||| UInt64.ofNat wireType)

lemma toNat_tag {fieldNumber wireType : ℕ} (h : fieldNumber < 2 ^ 29) (hw : wireType < 8) :
    (UInt64.ofNat fieldNumber <<< 3 ||| UInt64.ofNat wireType).toNat = fieldNumber * 8 + wireType := by
  have hn : (UInt64.ofNat fieldNumber).toNat = fieldNumber := UInt64.toNat_ofNat_of_lt (show _ < 2 ^ 64 by omega)
  have hwire : (UInt64.ofNat wireType).toNat = wireType := UInt64.toNat_ofNat_of_lt (show _ < 2 ^ 64 by omega)
  have hor := Nat.two_pow_add_eq_or_of_lt (i := 3) hw fieldNumber
  have hlt : fieldNumber * 2 ^ 3 < 2 ^ 64 := by omega
  have hsum : 2 ^ 3 * fieldNumber + wireType = fieldNumber * 8 + wireType := by omega
  rw [UInt64.toNat_or, UInt64.toNat_shiftLeft, hn, hwire, show (3 : UInt64).toNat % 64 = 3 from rfl,
    Nat.shiftLeft_eq, Nat.mod_eq_of_lt hlt, Nat.mul_comm fieldNumber, ← hor, hsum]

lemma protoAppendTag_eq (b : List UInt8) {fieldNumber wireType : ℕ} (h : fieldNumber < 2 ^ 29)
    (hw : wireType < 8) : protoAppendTag b fieldNumber wireType = b ++ tag fieldNumber wireType := by
  rw [protoAppendTag, protoAppendVarint_eq, toNat_tag h hw, tag]

lemma protoSizeTag_eq {fieldNumber wireType : ℕ} (h : fieldNumber < 2 ^ 29) (hw : wireType < 8) :
    protoSizeTag fieldNumber = (tag fieldNumber wireType).length := by
  have ht := toNat_tag h (show 0 < 8 by decide)
  rw [show UInt64.ofNat 0 = 0 from rfl, UInt64.or_zero] at ht
  rw [protoSizeTag, protoSizeVarint_eq, ht, tag]
  apply varint_length_congr
  omega

structure Emits (size : ℕ) (append : List UInt8 → List UInt8) (fs : List Field) : Prop where
  append_eq : ∀ b, append b = b ++ encode fs
  size_eq : size = (encode fs).length

namespace Emits

variable {n k : ℕ} {f g : List UInt8 → List UInt8} {fs gs : List Field}

lemma seq (hf : Emits n f fs) (hg : Emits k g gs) : Emits (n + k) (fun b => g (f b)) (fs ++ gs) where
  append_eq b := by rw [hg.append_eq, hf.append_eq, encode_append, List.append_assoc]
  size_eq := by rw [encode_append, List.length_append, ← hf.size_eq, ← hg.size_eq]

lemma nil : Emits 0 (fun b => b) [] := ⟨fun b => (List.append_nil b).symm, rfl⟩

lemma ite (hf : Emits n f fs) (c : Prop) [Decidable c] :
    Emits (if c then n else 0) (fun b => if c then f b else b) (if c then fs else []) := by
  split
  · exact hf
  · exact nil

lemma varint (number : ℕ) (hn : number < 2 ^ 29) (v : UInt64) :
    Emits (protoSizeTag number + protoSizeVarint v)
      (fun b => protoAppendVarint (protoAppendTag b number protoWireVarint) v) [⟨number, .varint v⟩] where
  append_eq b := by
    rw [protoAppendVarint_eq, protoAppendTag_eq b hn (by decide), List.append_assoc]
    simp [Field.encode, Value.encode, Value.wireType, protoWireVarint, varintType]
  size_eq := by
    rw [protoSizeTag_eq hn (show varintType < 8 by decide), protoSizeVarint_eq]
    simp [Field.encode, Value.encode, Value.wireType]

lemma bytes (number : ℕ) (hn : number < 2 ^ 29) {payload : List UInt8} (hp : payload.length < 2 ^ 64) :
    Emits (protoSizeTag number + protoSizeVarint (UInt64.ofNat payload.length) + payload.length)
      (fun b => protoAppendVarint (protoAppendTag b number protoWireBytes) (UInt64.ofNat payload.length) ++ payload)
      [⟨number, .bytes payload⟩] where
  append_eq b := by
    rw [protoAppendVarint_eq, protoAppendTag_eq b hn (by decide), UInt64.toNat_ofNat_of_lt' hp]
    simp [Field.encode, Value.encode, Value.wireType, protoWireBytes, bytesType]
  size_eq := by
    rw [protoSizeTag_eq hn (show bytesType < 8 by decide), protoSizeVarint_eq, UInt64.toNat_ofNat_of_lt' hp]
    simp [Field.encode, Value.encode, Value.wireType, Nat.add_assoc]

lemma each {T : Type} {l : List T} {size : T → ℕ} {append : T → List UInt8 → List UInt8} {fields : T → List Field}
    (h : ∀ x ∈ l, Emits (size x) (append x) (fields x)) :
    Emits (l.map size).sum (fun b => l.foldl (fun b x => append x b) b) (l.flatMap fields) := by
  induction l with
  | nil => exact nil
  | cons x l ih =>
    have hx := h x List.mem_cons_self
    exact hx.seq (ih fun y hy => h y (List.mem_cons_of_mem x hy))

lemma message (hf : Emits n f fs) (number : ℕ) (hn : number < 2 ^ 29) (hs : n < 2 ^ 64) :
    Emits (protoSizeTag number + protoSizeVarint (UInt64.ofNat n) + n)
      (fun b => f (protoAppendVarint (protoAppendTag b number protoWireBytes) (UInt64.ofNat n)))
      [⟨number, .bytes (encode fs)⟩] := by
  obtain ⟨hf, rfl⟩ := hf
  simp only [hf]
  exact bytes number hn hs

end Emits

def sizeTransferPath (path : TransferPath) : ℕ :=
  (if path.destinationId ≠ Id.zero then protoSizeTag 1 + protoSizeVarint 16 + 16 else 0) +
  (if path.sourceId ≠ Id.zero then protoSizeTag 2 + protoSizeVarint 16 + 16 else 0) +
  (if path.streamId ≠ Id.zero then protoSizeTag 3 + protoSizeVarint 16 + 16 else 0)

def appendIdField (b : List UInt8) (fieldNumber : ℕ) (id : Id) : List UInt8 :=
  protoAppendVarint (protoAppendTag b fieldNumber protoWireBytes) 16 ++ id.bytes

def appendTransferPath (b : List UInt8) (path : TransferPath) : List UInt8 :=
  let b := if path.destinationId ≠ Id.zero then appendIdField b 1 path.destinationId else b
  let b := if path.sourceId ≠ Id.zero then appendIdField b 2 path.sourceId else b
  if path.streamId ≠ Id.zero then appendIdField b 3 path.streamId else b

def sizeTagBody (sendTime : UInt64) : ℕ :=
  if sendTime ≠ 0 then protoSizeTag 1 + protoSizeVarint sendTime else 0

def appendTagBody (b : List UInt8) (sendTime : UInt64) : List UInt8 :=
  if sendTime ≠ 0 then protoAppendVarint (protoAppendTag b 1 protoWireVarint) sendTime else b

structure SendAckFrame where
  path : TransferPath
  messageId : Id
  sequenceId : Id
  selective : Bool
  tag : Option Tag
  receiveWindowByteCount : UInt64
  receiveWindowSet : Bool

namespace SendAckFrame

variable (m : SendAckFrame)

def sizeAck : ℕ :=
  protoSizeTag 1 + protoSizeVarint 16 + 16 +
  (protoSizeTag 2 + protoSizeVarint 16 + 16) +
  (if m.selective then protoSizeTag 3 + 1 else 0) +
  (match m.tag with
    | some tag =>
      let tagBody := sizeTagBody tag.sendTime
      protoSizeTag 4 + protoSizeVarint (UInt64.ofNat tagBody) + tagBody
    | none => 0) +
  (if m.receiveWindowSet then protoSizeTag 8 + protoSizeVarint m.receiveWindowByteCount else 0)

def appendAck (b : List UInt8) : List UInt8 :=
  let b := appendIdField b 1 m.messageId
  let b := appendIdField b 2 m.sequenceId
  let b := if m.selective then protoAppendTag b 3 protoWireVarint ++ [1] else b
  let b := match m.tag with
    | some tag =>
      let b := protoAppendTag b 4 protoWireBytes
      let b := protoAppendVarint b (UInt64.ofNat (sizeTagBody tag.sendTime))
      appendTagBody b tag.sendTime
    | none => b
  if m.receiveWindowSet then
    protoAppendVarint (protoAppendTag b 8 protoWireVarint) m.receiveWindowByteCount
  else b

def size : ℕ :=
  let pathSize := sizeTransferPath m.path
  let ackSize := m.sizeAck
  protoSizeTag 1 + protoSizeVarint (UInt64.ofNat pathSize) + pathSize +
  (protoSizeTag 3 + protoSizeVarint messageTypeTransferAck.toInt64.toUInt64) +
  (protoSizeTag 5 + protoSizeVarint (UInt64.ofNat ackSize) + ackSize)

def append (b : List UInt8) : List UInt8 :=
  let b := protoAppendTag b 1 protoWireBytes
  let b := protoAppendVarint b (UInt64.ofNat (sizeTransferPath m.path))
  let b := appendTransferPath b m.path
  let b := protoAppendTag b 3 protoWireVarint
  let b := protoAppendVarint b messageTypeTransferAck.toInt64.toUInt64
  let b := protoAppendTag b 5 protoWireBytes
  let b := protoAppendVarint b (UInt64.ofNat m.sizeAck)
  m.appendAck b

end SendAckFrame

/-! The fields each encoder writes. -/

def idField (number : ℕ) (id : Id) : Field := ⟨number, .bytes id.bytes⟩

def pathFields (path : TransferPath) : List Field :=
  (if path.destinationId ≠ Id.zero then [idField 1 path.destinationId] else []) ++
  (if path.sourceId ≠ Id.zero then [idField 2 path.sourceId] else []) ++
  (if path.streamId ≠ Id.zero then [idField 3 path.streamId] else [])

def tagFields (sendTime : UInt64) : List Field :=
  if sendTime ≠ 0 then [⟨1, .varint sendTime⟩] else []

namespace SendAckFrame

variable (m : SendAckFrame)

def ackFields : List Field :=
  [idField 1 m.messageId] ++ [idField 2 m.sequenceId] ++
  (if m.selective then [⟨3, .varint 1⟩] else []) ++
  (match m.tag with
    | some tag => [⟨4, .bytes (encode (tagFields tag.sendTime))⟩]
    | none => []) ++
  (if m.receiveWindowSet then [⟨8, .varint m.receiveWindowByteCount⟩] else [])

def frameFields : List Field :=
  [⟨1, .bytes (encode (pathFields m.path))⟩] ++
  [⟨3, .varint messageTypeTransferAck.toInt64.toUInt64⟩] ++
  [⟨5, .bytes (encode m.ackFields)⟩]

end SendAckFrame

lemma idField_emits (number : ℕ) (hn : number < 2 ^ 29) (id : Id) :
    Emits (protoSizeTag number + protoSizeVarint 16 + 16) (fun b => appendIdField b number id)
      [idField number id] := by
  have hlen : id.bytes.length < 2 ^ 64 := by
    rw [id.length_eq]
    decide
  have h := Emits.bytes number hn hlen
  rw [id.length_eq] at h
  exact h

lemma transferPath_emits (path : TransferPath) :
    Emits (sizeTransferPath path) (fun b => appendTransferPath b path) (pathFields path) :=
  (((idField_emits 1 (by decide) path.destinationId).ite _).seq
    ((idField_emits 2 (by decide) path.sourceId).ite _)).seq
    ((idField_emits 3 (by decide) path.streamId).ite _)

lemma tagBody_emits (sendTime : UInt64) :
    Emits (sizeTagBody sendTime) (fun b => appendTagBody b sendTime) (tagFields sendTime) :=
  (Emits.varint 1 (by decide) sendTime).ite _

lemma flag_emits (number : ℕ) (hn : number < 2 ^ 29) :
    Emits (protoSizeTag number + 1) (fun b => protoAppendTag b number protoWireVarint ++ [1])
      [⟨number, .varint 1⟩] := by
  have h := Emits.varint number hn 1
  simp only [protoAppendVarint_eq, protoSizeVarint_eq] at h
  rw [show UInt64.toNat 1 = 1 from rfl, varint_of_lt (by decide)] at h
  exact h

lemma protoSizeTag_le (fieldNumber : ℕ) : protoSizeTag fieldNumber ≤ 10 := protoSizeVarint_le _

lemma ite_le {n k : ℕ} (c : Prop) [Decidable c] (h : n ≤ k) : (if c then n else 0) ≤ k := by
  split
  · exact h
  · exact Nat.zero_le k

lemma sizeTransferPath_lt (path : TransferPath) : sizeTransferPath path < 2 ^ 64 := by
  have hid (number : ℕ) : protoSizeTag number + protoSizeVarint 16 + 16 ≤ 36 := by
    have := protoSizeTag_le number
    have := protoSizeVarint_le 16
    omega
  have hd := ite_le (path.destinationId ≠ Id.zero) (hid 1)
  have hs := ite_le (path.sourceId ≠ Id.zero) (hid 2)
  have ht := ite_le (path.streamId ≠ Id.zero) (hid 3)
  rw [sizeTransferPath]
  omega

lemma sizeTagBody_le (sendTime : UInt64) : sizeTagBody sendTime ≤ 20 := by
  apply ite_le
  have := protoSizeTag_le 1
  have := protoSizeVarint_le sendTime
  omega

namespace SendAckFrame

variable (m : SendAckFrame)

lemma sizeAck_lt : m.sizeAck < 2 ^ 64 := by
  have htag := protoSizeTag_le
  have hsel := ite_le (m.selective = true) (show protoSizeTag 3 + 1 ≤ 11 by have := htag 3; omega)
  have hwindow := ite_le (m.receiveWindowSet = true)
    (show protoSizeTag 8 + protoSizeVarint m.receiveWindowByteCount ≤ 20 by
      have := htag 8
      have := protoSizeVarint_le m.receiveWindowByteCount
      omega)
  have h16 := protoSizeVarint_le 16
  have h1 := htag 1
  have h2 := htag 2
  rw [sizeAck]
  cases m.tag with
  | none =>
    simp only
    omega
  | some tag =>
    simp only
    have hbody := sizeTagBody_le tag.sendTime
    have hlen := protoSizeVarint_le (UInt64.ofNat (sizeTagBody tag.sendTime))
    have h4 := htag 4
    omega

lemma ack_emits : Emits m.sizeAck m.appendAck m.ackFields := by
  have hids := (idField_emits 1 (by decide) m.messageId).seq
    (idField_emits 2 (by decide) m.sequenceId)
  have hsel := hids.seq ((flag_emits 3 (by decide)).ite (m.selective = true))
  have hwindow := (Emits.varint 8 (by decide) m.receiveWindowByteCount).ite (m.receiveWindowSet = true)
  obtain ⟨path, messageId, sequenceId, selective, tag, count, set⟩ := m
  cases tag with
  | none => exact (hsel.seq (Emits.nil)).seq hwindow
  | some tag =>
    have hbody : sizeTagBody tag.sendTime < 2 ^ 64 := by
      have := sizeTagBody_le tag.sendTime
      omega
    exact (hsel.seq ((tagBody_emits tag.sendTime).message 4 (by decide) hbody)).seq hwindow

lemma frame_emits : Emits m.size m.append m.frameFields :=
  (((transferPath_emits m.path).message 1 (by decide) (sizeTransferPath_lt m.path)).seq
    (Emits.varint 3 (by decide) _)).seq (m.ack_emits.message 5 (by decide) m.sizeAck_lt)

end SendAckFrame

end UrConnect.Wire
