import Mathlib.Data.Int.Notation
import Mathlib.Data.List.Basic

/-! Ids, errors and address families that several parts share. -/

namespace UrConnect

structure Id where
  bytes : List UInt8
  length_eq : bytes.length = 16

namespace Id

@[ext] lemma ext {a b : Id} (h : a.bytes = b.bytes) : a = b := by
  cases a
  cases b
  simpa using h

instance : DecidableEq Id := fun a b =>
  decidable_of_iff (a.bytes = b.bytes) ⟨Id.ext, fun h => h ▸ rfl⟩

def zero : Id := ⟨List.replicate 16 0, by simp⟩

def ofByte (b : UInt8) : Id := ⟨List.replicate 15 0 ++ [b], by simp⟩

end Id

inductive IpVersion
  | v4
  | v6
deriving DecidableEq

def IpVersion.headerByteCount : IpVersion → ℕ
  | .v4 => 20
  | .v6 => 40

inductive Fault where
  | protobuf
  | message (text : String)
deriving DecidableEq, Repr

def idFromBytes (bytes : List UInt8) : Except Fault Id :=
  if h : bytes.length = 16 then .ok ⟨bytes, h⟩ else .error (.message "Id must be 16 bytes")

@[simp] lemma idFromBytes_bytes (id : Id) : idFromBytes id.bytes = .ok id := by
  simp [idFromBytes, id.length_eq]

lemma idFromBytes_ok {bytes : List UInt8} {id : Id} (h : idFromBytes bytes = .ok id) :
    bytes = id.bytes := by
  unfold idFromBytes at h
  split at h
  · cases h
    rfl
  · cases h

end UrConnect
