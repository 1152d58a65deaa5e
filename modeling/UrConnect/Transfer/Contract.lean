import UrConnect.Protocol

/-! The byte ledger of one contract inside a sequence. -/

namespace UrConnect.Transfer

def float32 (n : ℕ) : ℕ :=
  let dropped := n.log2 + 1 - 24
  let unit := 2 ^ dropped
  let kept := n / unit
  let rest := n % unit
  if unit < 2 * rest ∨ (2 * rest = unit ∧ kept % 2 = 1) then (kept + 1) * unit else kept * unit

/-- The conversion of a `float32` to `int64`, which is indefinite out of range. -/
def int64OfFloat32 (n : ℕ) : ℤ := if n < 2 ^ 63 then n else -2 ^ 63

def wholeFill (transferByteCount : ℕ) : ℤ := int64OfFloat32 (float32 transferByteCount)

def contractExpiredAt (deadline : Option ℤ) (nowUnixMilli : ℤ) : Bool :=
  deadline.any fun deadline => decide (deadline ≤ nowUnixMilli)

structure SequenceContract where
  localId : ℕ
  contract : Contract
  contractId : Id
  transferByteCount : ℕ
  effectiveTransferByteCount : ℤ
  provideMode : ProvideMode
  expirationTimeUnixMilli : Option ℤ
  minUpdateByteCount : ℤ
  path : TransferPath
  ackedByteCount : ℤ
  unackedByteCount : ℤ
deriving DecidableEq

/-- `fill` gives the effective byte count that the fill fraction leaves of a transfer byte count. -/
def newSequenceContract (localId : ℕ) (contract : Contract) (minUpdateByteCount : ℤ) (fill : ℕ → ℤ) :
    Except Fault SequenceContract := do
  match contract.stored with
  | none => throw .protobuf
  | some stored =>
    let contractId ← idFromBytes stored.contractId
    let path ← transferPathFromBytes stored.sourceId stored.destinationId stored.streamId
    return {
      localId := localId
      contract := contract
      contractId := contractId
      transferByteCount := stored.transferByteCount
      effectiveTransferByteCount := fill stored.transferByteCount
      provideMode := contract.provideMode
      expirationTimeUnixMilli := stored.expirationTimeUnixMilli
      minUpdateByteCount := minUpdateByteCount
      path := path
      ackedByteCount := 0
      unackedByteCount := 0 }

namespace SequenceContract

variable (c : SequenceContract)

def expired (now : ℤ) : Bool := contractExpiredAt c.expirationTimeUnixMilli now

def effectiveByteCount (byteCount : ℤ) : ℤ := max c.minUpdateByteCount byteCount

def hasRoom (byteCount : ℤ) : Bool :=
  !decide (c.effectiveTransferByteCount <
    c.ackedByteCount + c.unackedByteCount + c.effectiveByteCount byteCount)

/-- The debit of a message: `none` where the contract refuses it. -/
def update (now byteCount : ℤ) : Option SequenceContract :=
  if c.expired now then none
  else if c.hasRoom byteCount then
    some { c with unackedByteCount := c.unackedByteCount + c.effectiveByteCount byteCount }
  else none

/-- The credit of a debited message: `none` is the panic `Bad accounting`. -/
def ack (byteCount : ℤ) : Option SequenceContract :=
  if c.unackedByteCount < c.effectiveByteCount byteCount then none
  else some { c with
    unackedByteCount := c.unackedByteCount - c.effectiveByteCount byteCount
    ackedByteCount := c.ackedByteCount + c.effectiveByteCount byteCount }

variable {c} {d : SequenceContract} {now byteCount : ℤ}

lemma update_some (h : c.update now byteCount = some d) :
    d = { c with unackedByteCount := c.unackedByteCount + c.effectiveByteCount byteCount } ∧
      c.expired now = false ∧
      c.ackedByteCount + c.unackedByteCount + c.effectiveByteCount byteCount ≤
        c.effectiveTransferByteCount := by
  unfold update at h
  split at h
  · cases h
  · rename_i he
    split at h
    · rename_i hr
      simp only [hasRoom, Bool.not_eq_true', decide_eq_false_iff_not, not_lt] at hr
      exact ⟨(Option.some.inj h).symm, by simpa using he, hr⟩
    · cases h

lemma ack_some (h : c.ack byteCount = some d) :
    d = { c with
      unackedByteCount := c.unackedByteCount - c.effectiveByteCount byteCount
      ackedByteCount := c.ackedByteCount + c.effectiveByteCount byteCount } ∧
      c.effectiveByteCount byteCount ≤ c.unackedByteCount := by
  unfold ack at h
  split at h
  · cases h
  · exact ⟨(Option.some.inj h).symm, by omega⟩

end SequenceContract

lemma newSequenceContract_ok {localId : ℕ} {contract : Contract} {minUpdateByteCount : ℤ} {fill : ℕ → ℤ}
    {c : SequenceContract} (h : newSequenceContract localId contract minUpdateByteCount fill = .ok c) :
    ∃ stored, contract.stored = some stored ∧ idFromBytes stored.contractId = .ok c.contractId ∧
      stored.transferByteCount = c.transferByteCount ∧ c.minUpdateByteCount = minUpdateByteCount ∧
      c.effectiveTransferByteCount = fill c.transferByteCount ∧
      c.ackedByteCount = 0 ∧ c.unackedByteCount = 0 ∧ c.localId = localId := by
  rw [newSequenceContract] at h
  cases hs : contract.stored with
  | none => simp [hs, throw, throwThe, MonadExceptOf.throw] at h
  | some stored =>
    simp only [hs] at h
    cases hid : idFromBytes stored.contractId with
    | error e => simp [hid, bind, Except.bind] at h
    | ok id =>
      cases hp : transferPathFromBytes stored.sourceId stored.destinationId stored.streamId with
      | error e => simp [hid, hp, bind, Except.bind] at h
      | ok path =>
        simp only [hid, hp, bind, Except.bind, pure, Except.pure, Except.ok.injEq] at h
        subst h
        exact ⟨stored, rfl, hid, rfl, rfl, rfl, rfl, rfl, rfl⟩

end UrConnect.Transfer
