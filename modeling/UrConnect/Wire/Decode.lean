import UrConnect.Protocol
import UrConnect.Lib.WireFormat

/-! The hand-rolled decoder of a transfer frame, over the `protowire` primitives as a reader. A field
that a message may leave out is an option; other bytes fields read an absent value as empty. -/

namespace UrConnect.Wire

open Lib.WireFormat

structure ProtoTransferPath where
  destinationId : Option (List UInt8) := none
  sourceId : Option (List UInt8) := none
  streamId : Option (List UInt8) := none
deriving DecidableEq

structure ProtoPack where
  messageId : List UInt8 := []
  sequenceId : List UInt8 := []
  sequenceNumber : UInt64 := 0
  head : Bool := false
  frames : List Frame := []
  nack : Bool := false
  contractFrame : Option Frame := none
  tag : Option Tag := none
  contractId : Option (List UInt8) := none
deriving DecidableEq

structure ProtoAck where
  messageId : List UInt8 := []
  sequenceId : List UInt8 := []
  selective : Bool := false
  tag : Option Tag := none
  receiveWindowByteCount : Option UInt64 := none
deriving DecidableEq

structure ProtoTransferFrame where
  transferPath : Option ProtoTransferPath := none
  frame : Option Frame := none
  pack : Option ProtoPack := none
  ack : Option ProtoAck := none
  encryptedTransferFrame : Option (List UInt8) := none
  sessionRole : Option Int32 := none
  sessionCompanion : Option Bool := none
deriving DecidableEq

def toProtobuf (path : TransferPath) : ProtoTransferPath where
  sourceId := if path.sourceId ≠ Id.zero then some path.sourceId.bytes else none
  destinationId := if path.destinationId ≠ Id.zero then some path.destinationId.bytes else none
  streamId := if path.streamId ≠ Id.zero then some path.streamId.bytes else none

def transferPathFromProtobuf : Option ProtoTransferPath → Except Fault TransferPath
  | none => .error (.message "Missing transfer path")
  | some path => transferPathFromBytes path.sourceId path.destinationId path.streamId

/-- A copy of an empty slice is nil, which an optional field reads as absent. -/
def copyProtoBytes (v : List UInt8) : Option (List UInt8) :=
  if v = [] then none else some v

def decodeBool (v : UInt64) : Bool := v ≠ 0

def decodeEnum (v : UInt64) : Int32 := v.toUInt32.toInt32

variable (r : Reader)

def decodeTagField (number wireType : ℕ) (b : List UInt8) (tag : Tag) : Option (Tag × ℕ) :=
  match number with
  | 1 => r.varintField wireType b fun v => { tag with sendTime := v }
  | _ => r.skipField number wireType b tag

def decodeTag (b : List UInt8) : Option Tag := r.readMessage (decodeTagField r) b ⟨0⟩

def decodeFrameField (number wireType : ℕ) (b : List UInt8) (f : Frame) : Option (Frame × ℕ) :=
  match number with
  | 1 => r.varintField wireType b fun v => { f with messageType := decodeEnum v }
  | 2 => r.bytesField wireType b fun v => some { f with messageBytes := v }
  | 3 => r.varintField wireType b fun v => { f with raw := decodeBool v }
  | _ => r.skipField number wireType b f

def decodeFrame (b : List UInt8) : Option Frame := r.readMessage (decodeFrameField r) b ⟨0, [], false⟩

def decodeTransferPathField (number wireType : ℕ) (b : List UInt8) (path : ProtoTransferPath) :
    Option (ProtoTransferPath × ℕ) :=
  match number with
  | 1 => r.bytesField wireType b fun v => some { path with destinationId := copyProtoBytes v }
  | 2 => r.bytesField wireType b fun v => some { path with sourceId := copyProtoBytes v }
  | 3 => r.bytesField wireType b fun v => some { path with streamId := copyProtoBytes v }
  | _ => r.skipField number wireType b path

def decodeTransferPathProto (b : List UInt8) : Option ProtoTransferPath :=
  r.readMessage (decodeTransferPathField r) b {}

def decodePackField (number wireType : ℕ) (b : List UInt8) (pack : ProtoPack) : Option (ProtoPack × ℕ) :=
  match number with
  | 1 => r.bytesField wireType b fun v => some { pack with messageId := v }
  | 2 => r.bytesField wireType b fun v => some { pack with sequenceId := v }
  | 9 => r.bytesField wireType b fun v => some { pack with contractId := copyProtoBytes v }
  | 3 => r.varintField wireType b fun v => { pack with sequenceNumber := v }
  | 4 => r.varintField wireType b fun v => { pack with head := decodeBool v }
  | 6 => r.varintField wireType b fun v => { pack with nack := decodeBool v }
  | 5 => r.bytesField wireType b fun v =>
      (decodeFrame r v).map fun f => { pack with frames := pack.frames ++ [f] }
  | 7 => r.bytesField wireType b fun v =>
      (decodeFrame r v).map fun f => { pack with contractFrame := some f }
  | 8 => r.bytesField wireType b fun v => (decodeTag r v).map fun tg => { pack with tag := some tg }
  | _ => r.skipField number wireType b pack

def decodePack (b : List UInt8) : Option ProtoPack := r.readMessage (decodePackField r) b {}

-- there is no case for field 8, the receive window
def decodeAckField (number wireType : ℕ) (b : List UInt8) (ack : ProtoAck) : Option (ProtoAck × ℕ) :=
  match number with
  | 1 => r.bytesField wireType b fun v => some { ack with messageId := v }
  | 2 => r.bytesField wireType b fun v => some { ack with sequenceId := v }
  | 3 => r.varintField wireType b fun v => { ack with selective := decodeBool v }
  | 4 => r.bytesField wireType b fun v => (decodeTag r v).map fun tg => { ack with tag := some tg }
  | _ => r.skipField number wireType b ack

def decodeAck (b : List UInt8) : Option ProtoAck := r.readMessage (decodeAckField r) b {}

def unmarshalTransferFrameField (decodePath : Bool) (number wireType : ℕ) (b : List UInt8)
    (tf : ProtoTransferFrame) : Option (ProtoTransferFrame × ℕ) :=
  match number with
  | 1 => r.bytesField wireType b fun v =>
      if decodePath then (decodeTransferPathProto r v).map fun p => { tf with transferPath := some p }
      else some tf
  | 2 => r.bytesField wireType b fun v => (decodeFrame r v).map fun f => { tf with frame := some f }
  | 3 => r.varintField wireType b fun _ => tf
  | 4 => r.bytesField wireType b fun v => (decodePack r v).map fun p => { tf with pack := some p }
  | 5 => r.bytesField wireType b fun v => (decodeAck r v).map fun a => { tf with ack := some a }
  | 6 => r.bytesField wireType b fun v => some { tf with encryptedTransferFrame := copyProtoBytes v }
  | 7 => r.varintField wireType b fun v => { tf with sessionRole := some (decodeEnum v) }
  | 8 => r.varintField wireType b fun v => { tf with sessionCompanion := some (decodeBool v) }
  | _ => r.skipField number wireType b tf

/-- `none` is malformed input. -/
def unmarshalTransferFrame (b : List UInt8) (tf : ProtoTransferFrame) (decodePath : Bool) :
    Option ProtoTransferFrame :=
  r.readMessage (unmarshalTransferFrameField r decodePath) b tf

end UrConnect.Wire
