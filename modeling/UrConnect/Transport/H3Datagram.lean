import UrConnect.Lib.Bytes
import Mathlib.Data.UInt

/-! The fragments of H3 datagrams: their wire form, and the fragmenter that sends them. -/

namespace UrConnect.Transport.H3

open Lib.Bytes

def protocolVersion : UInt8 := 2

def headerByteCount : ℕ := 28

def magic : List UInt8 := [0x55, 0x52, 0x44]

structure Settings where
  targetDatagramByteCount : ℤ
  maxFragmentCount : ℤ
  maxMessageByteCount : ℤ
  maxReassemblyMessageCount : ℤ
  maxReassemblyByteCount : ℤ
  processReassemblyByteCount : ℤ
  reassemblyTimeout : ℤ
  hybridDatagramMessageByteCount : ℤ

inductive SettingsFault
  | targetByteCount (target : ℤ) (header : ℕ)
  | fragmentLimit (count : ℤ)
  | messageByteLimit (count : ℤ)
  | reassemblyMessageLimit (count : ℤ)
  | peerByteLimit (peer message : ℤ)
  | processByteLimit (process message : ℤ)
  | reassemblyTimeout (timeout : ℤ)
  | hybridThreshold (count : ℤ)
deriving DecidableEq

def Settings.validate (s : Settings) : Except SettingsFault Unit :=
  if s.targetDatagramByteCount ≤ headerByteCount then
    .error (.targetByteCount s.targetDatagramByteCount headerByteCount)
  else if s.maxFragmentCount < 1 ∨ 65535 < s.maxFragmentCount then .error (.fragmentLimit s.maxFragmentCount)
  else if s.maxMessageByteCount < 1 ∨ 4294967295 < s.maxMessageByteCount then
    .error (.messageByteLimit s.maxMessageByteCount)
  else if s.maxReassemblyMessageCount < 1 then .error (.reassemblyMessageLimit s.maxReassemblyMessageCount)
  else if s.maxReassemblyByteCount < s.maxMessageByteCount then
    .error (.peerByteLimit s.maxReassemblyByteCount s.maxMessageByteCount)
  else if s.processReassemblyByteCount < s.maxMessageByteCount then
    .error (.processByteLimit s.processReassemblyByteCount s.maxMessageByteCount)
  else if s.reassemblyTimeout ≤ 0 then .error (.reassemblyTimeout s.reassemblyTimeout)
  else if s.hybridDatagramMessageByteCount < 1 then .error (.hybridThreshold s.hybridDatagramMessageByteCount)
  else .ok ()

structure Settings.Bounds (s : Settings) : Prop where
  fragments : 1 ≤ s.maxFragmentCount ∧ s.maxFragmentCount ≤ 65535
  message : 1 ≤ s.maxMessageByteCount ∧ s.maxMessageByteCount ≤ 4294967295
  messages : 1 ≤ s.maxReassemblyMessageCount
  peer : s.maxMessageByteCount ≤ s.maxReassemblyByteCount
  process : s.maxMessageByteCount ≤ s.processReassemblyByteCount
  timeout : 0 < s.reassemblyTimeout

lemma Settings.bounds_of_validate {s : Settings} (h : s.validate = .ok ()) : s.Bounds := by
  rw [validate] at h
  repeat' split at h
  all_goals cases h
  constructor <;> omega

def crcBit (crc : UInt32) : UInt32 := if crc &&& 1 = 1 then (crc >>> 1) ^^^ 0xedb88320 else crc >>> 1

def checksumIEEE (message : List UInt8) : UInt32 :=
  (message.foldl (fun crc b => Nat.iterate crcBit 8 (crc ^^^ b.toUInt32)) 0xffffffff) ^^^ 0xffffffff

structure Fragment where
  messageId : UInt64
  totalByteCount : ℕ
  checksum : UInt32
  offset : ℕ
  fragmentIndex : ℕ
  fragmentCount : ℕ
  payload : List UInt8
deriving DecidableEq

def Fragment.parts (f : Fragment) : List (List UInt8) :=
  [magic, [protocolVersion], bigEndian 8 f.messageId.toNat, bigEndian 4 f.totalByteCount,
    bigEndian 4 f.checksum.toNat, bigEndian 4 f.offset, bigEndian 2 f.fragmentIndex,
    bigEndian 2 f.fragmentCount, f.payload]

def Fragment.encode (f : Fragment) : List UInt8 := f.parts.flatten

structure Sent where
  messageId : UInt64
  message : List UInt8
  fragmentPayloadByteCount : ℕ
deriving DecidableEq

def Sent.fragmentCount (s : Sent) : ℕ :=
  (s.message.length + s.fragmentPayloadByteCount - 1) / s.fragmentPayloadByteCount

def Sent.fragment (s : Sent) (fragmentIndex : ℕ) : Fragment :=
  let offset := fragmentIndex * s.fragmentPayloadByteCount
  let stop := min s.message.length (offset + s.fragmentPayloadByteCount)
  { messageId := s.messageId
    totalByteCount := s.message.length
    checksum := checksumIEEE s.message
    offset
    fragmentIndex
    fragmentCount := s.fragmentCount
    payload := (s.message.drop offset).take (stop - offset) }

structure Fragmenter where
  nextMessageId : UInt64

def Fragmenter.nextId (f : Fragmenter) : UInt64 :=
  if f.nextMessageId + 1 = 0 then f.nextMessageId + 1 + 1 else f.nextMessageId + 1

structure Sent.Fits (settings : Settings) (s : Sent) : Prop where
  messageId : s.messageId ≠ 0
  payload : 0 < s.fragmentPayloadByteCount
  message : 0 < s.message.length
  messageLimit : s.message.length ≤ settings.maxMessageByteCount
  fragmentLimit : s.fragmentCount ≤ settings.maxFragmentCount

variable {settings : Settings} {s : Sent} {j : ℕ}

lemma Fragmenter.nextId_ne_zero (f : Fragmenter) : f.nextId ≠ 0 := by
  rw [nextId]
  split
  · rename_i hwrap
    rw [hwrap]
    decide
  · assumption

namespace Sent

lemma Fits.index_lt (h : s.Fits settings) {p : ℕ} (hp : p < s.message.length) :
    p / s.fragmentPayloadByteCount < s.fragmentCount := by
  have hP := h.payload
  apply (Nat.le_div_iff_mul_le hP).mpr
  have := Nat.div_mul_le_self p s.fragmentPayloadByteCount
  rw [Nat.succ_mul]
  omega

lemma offset_fragment (s : Sent) (j : ℕ) : (s.fragment j).offset = j * s.fragmentPayloadByteCount := rfl

lemma length_payload (s : Sent) (j : ℕ) :
    (s.fragment j).payload.length =
      min s.message.length (j * s.fragmentPayloadByteCount + s.fragmentPayloadByteCount) -
        j * s.fragmentPayloadByteCount := by
  simp only [fragment, List.length_take, List.length_drop]
  omega

lemma Fits.mem_payload_iff (h : s.Fits settings) {p : ℕ} (hp : p < s.message.length) :
    (s.fragment j).offset ≤ p ∧ p < (s.fragment j).offset + (s.fragment j).payload.length ↔
      p / s.fragmentPayloadByteCount = j := by
  have hP := h.payload
  rw [length_payload, offset_fragment, Nat.div_eq_iff hP]
  omega

lemma getElem?_payload {p : ℕ} (hstart : (s.fragment j).offset ≤ p)
    (hstop : p < (s.fragment j).offset + (s.fragment j).payload.length) :
    (s.fragment j).payload[p - (s.fragment j).offset]? = s.message[p]? := by
  rw [length_payload] at hstop
  rw [offset_fragment] at hstart hstop ⊢
  simp only [fragment]
  rw [List.getElem?_take, if_pos (by omega), List.getElem?_drop]
  congr 1
  omega

end Sent

end UrConnect.Transport.H3
