import Mathlib
import UrConnect.Base

/-! The protocol messages as the transfer layer reads them. A sequence number is a `uint64`;
the modulus of its counter is a parameter, `2 ^ 64` in the code, and `0` for a counter that
never reaches its end. -/

namespace UrConnect

def uint64Modulus : ℕ := 2 ^ 64

def nextNumber (modulus n : ℕ) : ℕ := (n + 1) % modulus

def Representable (modulus n : ℕ) : Prop := modulus = 0 ∨ n < modulus

instance (modulus n : ℕ) : Decidable (Representable modulus n) :=
  inferInstanceAs (Decidable (_ ∨ _))

def int64 (n : ℤ) : ℤ := n.bmod (2 ^ 64)

structure TransferPath where
  destinationId : Id
  sourceId : Id
  streamId : Id
deriving DecidableEq

namespace TransferPath

def reverse (path : TransferPath) : TransferPath where
  sourceId := path.destinationId
  destinationId := path.sourceId
  streamId := path.streamId

def addSource (path : TransferPath) (sourceId : Id) : TransferPath := { path with sourceId }

end TransferPath

def optionalIdFromBytes : Option (List UInt8) → Except Fault Id
  | none => .ok Id.zero
  | some bytes => idFromBytes bytes

def transferPathFromBytes (sourceIdBytes destinationIdBytes streamIdBytes : Option (List UInt8)) :
    Except Fault TransferPath := do
  let sourceId ← optionalIdFromBytes sourceIdBytes
  let destinationId ← optionalIdFromBytes destinationIdBytes
  let streamId ← optionalIdFromBytes streamIdBytes
  return { destinationId, sourceId, streamId }

structure Tag where
  sendTime : UInt64
deriving DecidableEq

structure Frame where
  messageType : Int32
  messageBytes : List UInt8
  raw : Bool
deriving DecidableEq

def messageTypeTransferAck : Int32 := 1

def messageTypeTransferEncryptedControl : Int32 := 23

inductive ProvideMode where
  | none
  | network
  | friendsAndFamily
  | publicUse
  | stream
  | publicStream
deriving DecidableEq

structure StoredContract where
  contractId : List UInt8
  transferByteCount : ℕ
  sourceId : Option (List UInt8)
  destinationId : Option (List UInt8)
  streamId : Option (List UInt8)
  expirationTimeUnixMilli : Option ℤ
deriving DecidableEq

/-- `stored` is the decoding of the stored contract bytes, `none` where they do not unmarshal. -/
structure Contract where
  storedContractHmac : List UInt8
  stored : Option StoredContract
  provideMode : ProvideMode
deriving DecidableEq

/-- A contract frame is seen through its decoding, `none` where its bytes do not unmarshal. -/
structure ContractFrame where
  contract : Option Contract
deriving DecidableEq

structure Pack where
  messageId : List UInt8
  sequenceNumber : ℕ
  head : Bool
  frames : List Frame
  nack : Bool
  contractFrame : Option ContractFrame
  tag : Option Tag
  contractId : Option (List UInt8)
deriving DecidableEq

end UrConnect
