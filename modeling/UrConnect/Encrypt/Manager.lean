import UrConnect.Encrypt.Session
import UrConnect.Lib.Table

/-! The sessions of a client, one for each peer, companion mode and role. A session is named by its
place among all that were ever opened; a sequence keeps its session after it is unregistered. -/

namespace UrConnect.Encrypt

open Lib

inductive EncryptionMode where
  | off
  | opportunistic
  | required
deriving DecidableEq

structure SessionKey where
  peerId : Id
  companion : Bool
  role : SequenceTlsRole
deriving DecidableEq

structure PeerSession (κ : Type) where
  key : SessionKey
  session : PeerEncryptionSession κ

end UrConnect.Encrypt
