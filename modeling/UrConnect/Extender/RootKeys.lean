import Mathlib
import UrConnect.Base

/-! Signed directory records and revocations, and the root keys that validate them. -/

namespace UrConnect.Extender

abbrev Bytes := List UInt8

abbrev Text := List Char

inductive Addr
  | zero
  | v4 (bits : BitVec 32)
  | v6 (bits : BitVec 128) (zone : Text)
deriving DecidableEq

namespace Addr

def is4In6 : Addr → Bool
  | .v6 bits _ => bits.toNat / 2 ^ 32 == 0xffff
  | _ => false

def unmap : Addr → Addr
  | .v6 bits zone => if (Addr.v6 bits zone).is4In6 then .v4 (bits.truncate 32) else .v6 bits zone
  | ip => ip

end Addr

inductive Carrier
  | tcp
  | quic
  | dns
  | webRtc
  | other (name : Text)
deriving DecidableEq

structure RecordAddress where
  ip : Text
  carriers : List Carrier
deriving DecidableEq

structure RecordBody where
  publicKey : Bytes
  addresses : List RecordAddress
  tcpPort : ℕ
  udpPort : ℕ
  dnsPort : ℕ
  dnsPorts : List ℕ
  dnsTld : Text
  countryCode : Text
  continentCode : Text
  networkHost : Text
  issueTimeMs : ℕ
  expireTimeMs : ℕ
  directoryTier : ℕ
  webRtcClientId : Bytes
  canaryChannel : Text
deriving DecidableEq

structure RevocationBody where
  publicKey : Bytes
  issueTimeMs : ℕ
  networkHost : Text
deriving DecidableEq

def hexDigit (n : ℕ) : Char := "0123456789abcdef".toList.getD n '0'

def encodeToString (bytes : Bytes) : Text :=
  bytes.flatMap fun b => [hexDigit (b.toNat / 16), hexDigit (b.toNat % 16)]

/-- What the directory calls of the standard library, of ed25519 and of protobuf: no bytes decode to a body that names
a key, and hex digits are in lower case. -/
structure Primitives where
  verify : Bytes → Bytes → Bytes → Bool
  extenderKeyId : Bytes → Bytes
  recordBody : Bytes → Option RecordBody
  revocationBody : Bytes → Option RevocationBody
  parseAddr : Text → Option Addr
  addrString : Addr → Text
  trimSpace : Text → Text
  toLower : Text → Text
  toUpper : Text → Text
  hmac : Bytes → Bytes → Bytes
  recordBody_nil : ∀ body, recordBody [] = some body → body.publicKey = []
  revocationBody_nil : ∀ body, revocationBody [] = some body → body.publicKey = []
  toLower_hex : ∀ bytes, toLower (encodeToString bytes) = encodeToString bytes

variable (P : Primitives)

variable {P}

section Sample

def sampleRecordBody : Bytes → Option RecordBody
  | [key, issueTimeMs, expireTimeMs, address] =>
    some
      { publicKey := [key]
        addresses := [⟨[Char.ofNat address.toNat], []⟩]
        tcpPort := 0
        udpPort := 0
        dnsPort := 0
        dnsPorts := []
        dnsTld := []
        countryCode := []
        continentCode := []
        networkHost := ['h']
        issueTimeMs := issueTimeMs.toNat
        expireTimeMs := expireTimeMs.toNat
        directoryTier := 0
        webRtcClientId := []
        canaryChannel := [] }
  | _ => none

def sampleRevocationBody : Bytes → Option RevocationBody
  | [key, issueTimeMs] => some ⟨[key], issueTimeMs.toNat, ['h']⟩
  | _ => none

def Primitives.sample : Primitives where
  verify rootPublicKey _ signature := rootPublicKey == signature
  extenderKeyId := id
  recordBody := sampleRecordBody
  revocationBody := sampleRevocationBody
  parseAddr
    | [c] => some (.v4 (BitVec.ofNat 32 c.toNat))
    | _ => none
  addrString
    | .v4 bits => [Char.ofNat bits.toNat]
    | _ => []
  trimSpace := id
  toLower := id
  toUpper := id
  hmac _ _ := []
  recordBody_nil := nofun
  revocationBody_nil := nofun
  toLower_hex _ := rfl

end Sample

end UrConnect.Extender
