import UrConnect.Transport.H3Datagram
import UrConnect.Protocol

/-! The choice between datagrams and the stream for one message, and the hybrid send that falls back. -/

namespace UrConnect.Transport.H3

def payloadByteCountOf (maxDatagramByteCount : ℤ) : ℤ := int64 (maxDatagramByteCount - headerByteCount)

def fragmentCountOf (messageByteCount fragmentPayloadByteCount : ℤ) : ℤ :=
  (int64 (messageByteCount + fragmentPayloadByteCount - 1)).tdiv fragmentPayloadByteCount

namespace Settings

variable (s : Settings)

def useDatagramForPath (messageByteCount maxDatagramByteCount : ℤ) : Bool :=
  let fragmentPayloadByteCount := payloadByteCountOf maxDatagramByteCount
  if messageByteCount ≤ 0 ∨ min s.hybridDatagramMessageByteCount s.maxMessageByteCount < messageByteCount then false
  else if fragmentPayloadByteCount < 1 then false
  else decide (fragmentCountOf messageByteCount fragmentPayloadByteCount ≤ s.maxFragmentCount)

def h3DatagramTransferFrameByteLimit (maxDatagramByteCount : ℤ) : ℤ :=
  let fragmentPayloadByteCount := payloadByteCountOf maxDatagramByteCount
  if s.maxFragmentCount ≤ 0 then 0
  else if fragmentPayloadByteCount ≤ 0 then 0
  else
    let pathLimit := int64 (fragmentPayloadByteCount * s.maxFragmentCount)
    let limit := min (min s.hybridDatagramMessageByteCount s.maxMessageByteCount) pathLimit
    if limit ≤ 0 then 0 else limit

def Carried (messageByteCount maxDatagramByteCount : ℤ) : Prop :=
  1 ≤ messageByteCount ∧
    messageByteCount ≤ min s.hybridDatagramMessageByteCount s.maxMessageByteCount ∧
    messageByteCount ≤ (maxDatagramByteCount - headerByteCount) * s.maxFragmentCount

end Settings

def PathLimit (maxDatagramByteCount : ℤ) : Prop :=
  -2 ^ 63 ≤ maxDatagramByteCount - headerByteCount ∧ maxDatagramByteCount < 2 ^ 63

instance (d : ℤ) : Decidable (PathLimit d) :=
  inferInstanceAs (Decidable (-2 ^ 63 ≤ d - headerByteCount ∧ d < 2 ^ 63))

variable {s : Settings} {n d : ℤ}

lemma int64_of_range {x : ℤ} (hlow : -2 ^ 63 ≤ x) (hhigh : x < 2 ^ 63) : int64 x = x := by
  rw [int64, Int.bmod]
  omega

lemma payloadByteCountOf_eq (hd : PathLimit d) : payloadByteCountOf d = d - headerByteCount := by
  obtain ⟨hlow, hhigh⟩ := hd
  apply int64_of_range hlow
  rw [headerByteCount]
  omega

lemma fragmentCountOf_eq {p : ℤ} (hn : 1 ≤ n) (hp : 1 ≤ p) (hsum : n + p - 1 < 2 ^ 63) :
    fragmentCountOf n p = (n + p - 1) / p := by
  rw [fragmentCountOf, int64_of_range (by omega) hsum, Int.tdiv_eq_ediv_of_nonneg (by omega)]

lemma fragmentCountOf_le_iff {p k : ℤ} (hn : 1 ≤ n) (hmax : n < 2 ^ 32) (hp : 1 ≤ p) (hrange : p < 2 ^ 63)
    (hk : 1 ≤ k) : fragmentCountOf n p ≤ k ↔ n ≤ p * k := by
  by_cases hsum : n + p - 1 < 2 ^ 63
  · rw [fragmentCountOf_eq hn hp hsum, ← Int.lt_add_one_iff, Int.ediv_lt_iff_lt_mul (by omega), Int.add_mul, Int.one_mul,
      Int.mul_comm k]
    omega
  · have hwrap : int64 (n + p - 1) ≤ 0 := by
      rw [int64, Int.bmod]
      omega
    have hquot : 0 ≤ (-int64 (n + p - 1)).tdiv p := Int.tdiv_nonneg (by omega) (by omega)
    rw [Int.neg_tdiv, ← fragmentCountOf] at hquot
    have hroom : p * 1 ≤ p * k := Int.mul_le_mul_of_nonneg_left hk (by omega)
    constructor
    · intro _
      omega
    · intro _
      omega

lemma useDatagramForPath_iff (hs : s.validate = .ok ()) (hd : PathLimit d) :
    s.useDatagramForPath n d = true ↔ s.Carried n d := by
  obtain ⟨⟨hfew, _⟩, ⟨_, hmax⟩, _⟩ := Settings.bounds_of_validate hs
  rw [Settings.useDatagramForPath, Settings.Carried, payloadByteCountOf_eq hd]
  obtain ⟨p, hp⟩ : ∃ p, d - headerByteCount = p := ⟨_, rfl⟩
  have hrange : p < 2 ^ 63 := by
    rw [← hp, headerByteCount]
    have := hd.2
    omega
  rw [hp]
  by_cases hsize : n ≤ 0 ∨ min s.hybridDatagramMessageByteCount s.maxMessageByteCount < n
  · rw [if_pos hsize]
    constructor
    · intros
      contradiction
    · rintro ⟨hone, hle, -⟩
      omega
  · rw [if_neg hsize]
    have hn : 1 ≤ n := by omega
    have hle : n ≤ min s.hybridDatagramMessageByteCount s.maxMessageByteCount := by omega
    by_cases hnone : p < 1
    · have hzero : p * s.maxFragmentCount ≤ 0 := Int.mul_nonpos_of_nonpos_of_nonneg (by omega) (by omega)
      rw [if_pos hnone]
      constructor
      · intros
        contradiction
      · rintro ⟨-, -, hpath⟩
        omega
    · rw [if_neg hnone, decide_eq_true_iff, fragmentCountOf_le_iff hn (by omega) (by omega) hrange hfew]
      exact ⟨fun h => ⟨hn, hle, h⟩, fun h => h.2.2⟩

lemma limit_iff (hs : s.validate = .ok ()) (hd : PathLimit d)
    (hproduct : (d - headerByteCount) * s.maxFragmentCount < 2 ^ 63) :
    1 ≤ n ∧ n ≤ s.h3DatagramTransferFrameByteLimit d ↔ s.Carried n d := by
  obtain ⟨⟨hfew, _⟩, _⟩ := Settings.bounds_of_validate hs
  rw [Settings.h3DatagramTransferFrameByteLimit, Settings.Carried, payloadByteCountOf_eq hd, if_neg (by omega)]
  by_cases hnone : d - headerByteCount ≤ 0
  · have hzero : (d - headerByteCount) * s.maxFragmentCount ≤ 0 :=
      Int.mul_nonpos_of_nonpos_of_nonneg hnone (by omega)
    rw [if_pos hnone]
    omega
  · have hpos : 0 ≤ (d - headerByteCount) * s.maxFragmentCount := Int.mul_nonneg (by omega) (by omega)
    dsimp only
    rw [if_neg hnone, int64_of_range (by omega) hproduct]
    split
    · omega
    · omega

/-- What the fragmenter can tell of an error of the carrier: `errors.Is` for the full flight, `errors.As` for the
size that a datagram may have. -/
structure CarrierError where
  flightFull : Bool
  maxDatagramPayloadSize : Option ℤ
deriving DecidableEq

inductive SendError
  | messageTooLarge
  | carrier (err : CarrierError)
deriving DecidableEq

def SendError.isFlightFull : SendError → Bool
  | messageTooLarge => false
  | carrier err => err.flightFull

def SendError.asTooLarge : SendError → Option ℤ
  | messageTooLarge => none
  | carrier err => err.maxDatagramPayloadSize

def maxAlloc : ℤ := 2 ^ 48

structure Scratch where
  byteCount : ℤ
  allocated : byteCount ≤ maxAlloc

def Scratch.grow (scratch : Scratch) (maxDatagramByteCount : ℤ) : Option Scratch :=
  if scratch.byteCount < maxDatagramByteCount then
    if h : maxDatagramByteCount ≤ maxAlloc then some ⟨maxDatagramByteCount, h⟩ else none
  else some scratch

lemma Scratch.le_of_grow {scratch scratch' : Scratch} (h : scratch.grow d = some scratch') : d ≤ maxAlloc := by
  rw [grow] at h
  split at h
  · split at h
    · assumption
    · cases h
  · rename_i hle
    exact Int.le_trans (Int.not_lt.mp hle) scratch.allocated

structure Lane (σ : Type) where
  fragmenter : Fragmenter
  scratch : Scratch
  carrier : σ
  attempts : List Sent
  accepted : List Fragment

namespace Lane

variable {σ : Type} (carry : σ → List UInt8 → Option CarrierError × σ)

def carryAll : ℕ → List Fragment → Lane σ → Option ((ℕ × Option SendError) × Lane σ)
  | fragmentIndex, [], l => some ((fragmentIndex, none), l)
  | fragmentIndex, fragment :: fragments, l =>
    if l.scratch.byteCount < headerByteCount + fragment.payload.length then none
    else
      match carry l.carrier fragment.encode with
      | (some err, carrier) => some ((fragmentIndex, some (.carrier err)), { l with carrier })
      | (none, carrier) =>
        carryAll (fragmentIndex + 1) fragments { l with carrier, accepted := l.accepted ++ [fragment] }

def begin (l : Lane σ) (scratch : Scratch) (sent : Sent) : Lane σ :=
  { l with fragmenter := ⟨sent.messageId⟩, scratch, attempts := l.attempts ++ [sent] }

variable (settings : Settings) (l : Lane σ) (message : List UInt8) (maxDatagramByteCount : ℤ)

def send : Option ((ℕ × Option SendError) × Lane σ) :=
  let fragmentPayloadByteCount := payloadByteCountOf maxDatagramByteCount
  let fragmentCount := fragmentCountOf message.length fragmentPayloadByteCount
  if message.length < 1 ∨ settings.maxMessageByteCount < message.length then some ((0, some .messageTooLarge), l)
  else if fragmentPayloadByteCount < 1 then some ((0, some .messageTooLarge), l)
  else if settings.maxFragmentCount < fragmentCount ∨ 65535 < fragmentCount then
    some ((0, some .messageTooLarge), l)
  else
    let sent : Sent := ⟨l.fragmenter.nextId, message, fragmentPayloadByteCount.toNat⟩
    (l.scratch.grow maxDatagramByteCount).bind fun scratch =>
      carryAll carry 0 ((List.range fragmentCount.toNat).map sent.fragment) (l.begin scratch sent)

def retry (size : ℤ) : Option ((Bool × ℤ × Option SendError) × Lane σ) :=
  if settings.useDatagramForPath message.length size then
    (l.send carry settings message size).map fun (result, l) =>
      if result.2.any SendError.isFlightFull then ((true, size, none), l) else ((false, size, result.2), l)
  else some ((true, size, none), l)

def fallBack (err : SendError) : Option ((Bool × ℤ × Option SendError) × Lane σ) :=
  if err.isFlightFull then some ((true, maxDatagramByteCount, none), l)
  else
    match err.asTooLarge with
    | none => some ((false, maxDatagramByteCount, some err), l)
    | some size =>
      if size ≤ headerByteCount then some ((true, maxDatagramByteCount, none), l)
      else if maxDatagramByteCount ≤ size then some ((false, maxDatagramByteCount, some err), l)
      else l.retry carry settings message size

/-- Whether the message is left to the stream, the limit of the path from now on, and the error. -/
def sendHybrid : Option ((Bool × ℤ × Option SendError) × Lane σ) :=
  if settings.useDatagramForPath message.length maxDatagramByteCount then
    (l.send carry settings message maxDatagramByteCount).bind fun (result, l) =>
      match result.2 with
      | none => some ((false, maxDatagramByteCount, none), l)
      | some err => l.fallBack carry settings message maxDatagramByteCount err
  else some ((true, maxDatagramByteCount, none), l)

end Lane

def Sent.first (sent : Sent) (j : ℕ) : List Fragment := (List.range j).map sent.fragment

lemma Sent.mem_first {sent : Sent} {j : ℕ} {f : Fragment} : f ∈ sent.first j ↔ ∃ i < j, sent.fragment i = f := by
  simp [first]

lemma Sent.fragment_notMem_first (sent : Sent) (j : ℕ) : sent.fragment j ∉ sent.first j := by
  intro h
  obtain ⟨i, hi, heq⟩ := mem_first.mp h
  have hindex : i = j := congrArg Fragment.fragmentIndex heq
  omega

lemma Sent.messageId_of_mem_first {sent : Sent} {j : ℕ} {f : Fragment} (h : f ∈ sent.first j) :
    f.messageId = sent.messageId := by
  obtain ⟨i, _, rfl⟩ := mem_first.mp h
  rfl

lemma Fragmenter.nextId_ne (f : Fragmenter) : f.nextId ≠ f.nextMessageId := by
  rw [nextId]
  split
  · rename_i hwrap
    intro h
    rw [hwrap] at h
    rw [← h] at hwrap
    revert hwrap
    decide
  · intro h
    have hone : (1 : UInt64) = 0 := by
      rw [← add_eq_left (a := f.nextMessageId)]
      exact h
    revert hone
    decide

namespace Lane

variable {σ : Type} {carry : σ → List UInt8 → Option CarrierError × σ} {settings : Settings} {l l' : Lane σ}
  {message : List UInt8} {err : Option SendError}

def Left (l : Lane σ) : Prop := ∀ sent ∈ l.attempts, ∃ i < sent.fragmentCount, sent.fragment i ∉ l.accepted

def Whole (message : List UInt8) (l : Lane σ) : Prop :=
  ∃ sent ∈ l.attempts, sent.message = message ∧ (∀ i < sent.fragmentCount, sent.fragment i ∈ l.accepted) ∧
    ∀ p < message.length, ∃ i < sent.fragmentCount,
      (sent.fragment i).offset ≤ p ∧ (sent.fragment i).payload[p - (sent.fragment i).offset]? = message[p]?

structure Fresh (l : Lane σ) : Prop where
  attempts : ∀ sent ∈ l.attempts, sent.messageId ≠ l.fragmenter.nextId
  accepted : ∀ f ∈ l.accepted, f.messageId ≠ l.fragmenter.nextId

structure Opens (l : Lane σ) (message : List UInt8) (sent : Sent) (l' : Lane σ) : Prop where
  message : sent.message = message
  messageId : sent.messageId = l.fragmenter.nextId
  fragmenter : l'.fragmenter = ⟨sent.messageId⟩
  attempts : l'.attempts = l.attempts ++ [sent]

inductive Sends (settings : Settings) (l : Lane σ) (message : List UInt8) : Option SendError → Lane σ → Prop
  | refused : Sends settings l message (some .messageTooLarge) l
  | broken {sent : Sent} {l' : Lane σ} {e : CarrierError} {j : ℕ} : Opens l message sent l' → j < sent.fragmentCount →
      l'.accepted = l.accepted ++ sent.first j → Sends settings l message (some (.carrier e)) l'
  | whole {sent : Sent} {l' : Lane σ} : Opens l message sent l' → sent.Fits settings →
      l'.accepted = l.accepted ++ sent.first sent.fragmentCount → Sends settings l message none l'

lemma carryAll_spec {fragments : List Fragment} {k n : ℕ}
    (h : carryAll carry k fragments l = some ((n, err), l')) :
    l'.fragmenter = l.fragmenter ∧ l'.attempts = l.attempts ∧
      (err = none ∧ l'.accepted = l.accepted ++ fragments ∨
        ∃ e j, err = some (.carrier e) ∧ j < fragments.length ∧ l'.accepted = l.accepted ++ fragments.take j) := by
  induction fragments generalizing k l with
  | nil =>
    cases h
    exact ⟨rfl, rfl, .inl ⟨rfl, (List.append_nil _).symm⟩⟩
  | cons fragment fragments ih =>
    rw [carryAll] at h
    split at h
    · cases h
    · split at h
      · rename_i e carrier _
        cases h
        exact ⟨rfl, rfl, .inr ⟨e, 0, rfl, Nat.succ_pos _, (List.append_nil _).symm⟩⟩
      · obtain ⟨hfragmenter, hattempts, hrest⟩ := ih h
        refine ⟨hfragmenter, hattempts, ?_⟩
        rcases hrest with ⟨hnone, haccepted⟩ | ⟨e, j, herr, hj, haccepted⟩
        · rw [List.append_assoc] at haccepted
          exact .inl ⟨hnone, haccepted⟩
        · rw [List.append_assoc] at haccepted
          exact .inr ⟨e, j + 1, herr, Nat.succ_lt_succ hj, haccepted⟩

lemma sends_of_send (hs : settings.validate = .ok ()) {n : ℕ} (hd : PathLimit d)
    (h : l.send carry settings message d = some ((n, err), l')) : Sends settings l message err l' := by
  obtain ⟨_, ⟨_, hmax⟩, _⟩ := Settings.bounds_of_validate hs
  rw [send, payloadByteCountOf_eq hd] at h
  split at h
  · cases h
    exact .refused
  · rename_i hmessage
    split at h
    · cases h
      exact .refused
    · rename_i hpayload
      split at h
      · cases h
        exact .refused
      · rename_i hcount
        obtain ⟨scratch, hscratch, h⟩ := Option.bind_eq_some_iff.mp h
        have halloc := Scratch.le_of_grow hscratch
        rw [maxAlloc] at halloc
        obtain ⟨sent, hsent⟩ : ∃ sent : Sent, sent = ⟨l.fragmenter.nextId, message, (d - headerByteCount).toNat⟩ :=
          ⟨_, rfl⟩
        have hsize : sent.message.length = message.length := by rw [hsent]
        have hpiece : (sent.fragmentPayloadByteCount : ℤ) = d - headerByteCount := by
          rw [hsent]
          exact Int.toNat_of_nonneg (by omega)
        have hfragments : fragmentCountOf message.length (d - headerByteCount) = sent.fragmentCount := by
          rw [fragmentCountOf_eq (by omega) (by omega) (by rw [headerByteCount]; omega), Sent.fragmentCount, hsize,
            ← hpiece, Int.natCast_ediv]
          congr 1
          omega
        rw [hfragments] at hcount h
        rw [← hsent, Int.toNat_natCast] at h
        obtain ⟨hfragmenter, hattempts, hrest⟩ := carryAll_spec h
        have hopens : Opens l message sent l' := ⟨by rw [hsent], by rw [hsent], hfragmenter, hattempts⟩
        rcases hrest with ⟨rfl, haccepted⟩ | ⟨e, j, rfl, hj, haccepted⟩
        · refine .whole hopens ⟨?_, by omega, by omega, by omega, by omega⟩ haccepted
          rw [hopens.messageId]
          exact l.fragmenter.nextId_ne_zero
        · rw [List.length_map, List.length_range] at hj
          refine .broken hopens hj ?_
          rw [haccepted, ← List.map_take, List.take_range, Nat.min_eq_left hj.le]
          rfl

lemma left_of_sends {e : SendError} (hfresh : l.Fresh) (hleft : l.Left) (h : Sends settings l message (some e) l') :
    l'.Left := by
  cases h with
  | refused => exact hleft
  | @broken sent _ _ j hopens hj haccepted =>
    intro tried htried
    rw [hopens.attempts] at htried
    rw [haccepted]
    rcases List.mem_append.mp htried with hold | hnew
    · obtain ⟨i, hi, hmissing⟩ := hleft tried hold
      refine ⟨i, hi, ?_⟩
      intro hmem
      rcases List.mem_append.mp hmem with hmem | hmem
      · exact hmissing hmem
      · apply hfresh.attempts tried hold
        rw [← hopens.messageId]
        exact Sent.messageId_of_mem_first hmem
    · rw [List.mem_singleton.mp hnew]
      refine ⟨j, hj, ?_⟩
      intro hmem
      rcases List.mem_append.mp hmem with hmem | hmem
      · exact hfresh.accepted _ hmem hopens.messageId
      · exact sent.fragment_notMem_first j hmem

lemma fresh_of_sends {e : SendError} (hattempts : l.attempts = []) (haccepted : l.accepted = [])
    (h : Sends settings l message (some e) l') : l'.Fresh := by
  cases h with
  | refused =>
    constructor
    · rw [hattempts]
      nofun
    · rw [haccepted]
      nofun
  | @broken sent _ _ j hopens _ hnow =>
    have hnext : sent.messageId ≠ l'.fragmenter.nextId := by
      have hne := l'.fragmenter.nextId_ne
      rw [hopens.fragmenter] at hne ⊢
      exact hne.symm
    constructor
    · intro tried htried
      rw [hopens.attempts, hattempts, List.nil_append, List.mem_singleton] at htried
      rw [htried]
      exact hnext
    · intro f hf
      rw [hnow, haccepted, List.nil_append] at hf
      rw [Sent.messageId_of_mem_first hf]
      exact hnext

lemma whole_of_sends (h : Sends settings l message none l') : l'.Whole message := by
  cases h with
  | @whole sent _ hopens hfits haccepted =>
    obtain rfl := hopens.message
    refine ⟨sent, ?_, rfl, ?_, ?_⟩
    · rw [hopens.attempts]
      exact List.mem_append_right _ (List.mem_singleton_self sent)
    · intro i hi
      rw [haccepted]
      exact List.mem_append_right _ (Sent.mem_first.mpr ⟨i, hi, rfl⟩)
    · intro p hp
      obtain ⟨hstart, hstop⟩ := (hfits.mem_payload_iff hp).mpr rfl
      exact ⟨_, hfits.index_lt hp, hstart, Sent.getElem?_payload hstart hstop⟩

variable {useStream : Bool} {next : ℤ}

lemma lanes_of_retry (hs : settings.validate = .ok ()) {size : ℤ} (hsize : PathLimit size) (hfresh : l.Fresh)
    (hleft : l.Left) (h : l.retry carry settings message size = some ((useStream, next, err), l')) :
    (useStream = true → l'.Left) ∧ (useStream = false → err = none → l'.Whole message) := by
  rw [retry] at h
  split at h
  · obtain ⟨⟨⟨n, e⟩, l''⟩, hsend, h⟩ := Option.map_eq_some_iff.mp h
    have hsends := sends_of_send hs hsize hsend
    cases e with
    | none =>
      cases h
      exact ⟨nofun, fun _ _ => whole_of_sends hsends⟩
    | some e =>
      have hleft' := left_of_sends hfresh hleft hsends
      dsimp only [Option.any_some] at h
      split at h
      · cases h
        exact ⟨fun _ => hleft', nofun⟩
      · cases h
        exact ⟨nofun, nofun⟩
  · cases h
    exact ⟨fun _ => hleft, nofun⟩

lemma lanes_of_fallBack (hs : settings.validate = .ok ()) (hd : PathLimit d) {e : SendError} (hfresh : l.Fresh)
    (hleft : l.Left) (h : l.fallBack carry settings message d e = some ((useStream, next, err), l')) :
    (useStream = true → l'.Left) ∧ (useStream = false → err = none → l'.Whole message) := by
  rw [fallBack] at h
  split at h
  · cases h
    exact ⟨fun _ => hleft, nofun⟩
  · split at h
    · cases h
      exact ⟨nofun, nofun⟩
    · rename_i size _
      split at h
      · cases h
        exact ⟨fun _ => hleft, nofun⟩
      · rename_i hheader
        split at h
        · cases h
          exact ⟨nofun, nofun⟩
        · rename_i hsmaller
          apply lanes_of_retry hs _ hfresh hleft h
          have hhigh := hd.2
          exact ⟨by omega, by omega⟩

lemma lanes_of_sendHybrid (hs : settings.validate = .ok ()) (hd : PathLimit d) (hattempts : l.attempts = [])
    (haccepted : l.accepted = [])
    (h : l.sendHybrid carry settings message d = some ((useStream, next, err), l')) :
    (useStream = true → l'.Left) ∧ (useStream = false → err = none → l'.Whole message) := by
  have hleft : l.Left := by
    intro sent hsent
    rw [hattempts] at hsent
    cases hsent
  have hfresh : l.Fresh := by
    constructor
    · rw [hattempts]
      nofun
    · rw [haccepted]
      nofun
  rw [sendHybrid] at h
  split at h
  · obtain ⟨⟨⟨n, e⟩, l''⟩, hsend, h⟩ := Option.bind_eq_some_iff.mp h
    have hsends := sends_of_send hs hd hsend
    cases e with
    | none =>
      cases h
      exact ⟨nofun, fun _ _ => whole_of_sends hsends⟩
    | some e =>
      apply lanes_of_fallBack hs hd _ _ h
      · exact fresh_of_sends hattempts haccepted hsends
      · exact left_of_sends hfresh hleft hsends
  · cases h
    exact ⟨fun _ => hleft, nofun⟩

end Lane

theorem hybrid_lanes (s : Settings) (hs : s.validate = .ok ()) :
    (∀ n d, PathLimit d → (d - headerByteCount) * s.maxFragmentCount < 2 ^ 63 →
      (s.useDatagramForPath n d = true ↔ 1 ≤ n ∧ n ≤ s.h3DatagramTransferFrameByteLimit d)) ∧
    (∀ n d n' d', PathLimit d → PathLimit d' → 1 ≤ n' → n' ≤ n → d ≤ d' →
      s.useDatagramForPath n d = true → s.useDatagramForPath n' d' = true) ∧
    ∀ (σ : Type) (carry : σ → List UInt8 → Option CarrierError × σ) (l : Lane σ) (message : List UInt8) (d : ℤ)
      (useStream : Bool) (next : ℤ) (err : Option SendError) (l' : Lane σ), PathLimit d → l.attempts = [] →
      l.accepted = [] → l.sendHybrid carry s message d = some ((useStream, next, err), l') →
      (useStream = true → l'.Left) ∧ (useStream = false → err = none → l'.Whole message) := by
  refine ⟨?_, ?_, ?_⟩
  · intro n d hd hproduct
    rw [useDatagramForPath_iff hs hd, limit_iff hs hd hproduct]
  · intro n d n' d' hd hd' hone hle hpath huse
    rw [useDatagramForPath_iff hs hd] at huse
    rw [useDatagramForPath_iff hs hd']
    obtain ⟨-, hsize, hroom⟩ := huse
    have hfew := (Settings.bounds_of_validate hs).fragments.1
    have hmore : (d - headerByteCount) * s.maxFragmentCount ≤ (d' - headerByteCount) * s.maxFragmentCount :=
      Int.mul_le_mul_of_nonneg_right (by omega) (by omega)
    exact ⟨hone, by omega, by omega⟩
  · intro σ carry l message d useStream next err l' hd hattempts haccepted h
    exact Lane.lanes_of_sendHybrid hs hd hattempts haccepted h

def sampleSettings : Settings := ⟨1200, 4, 4096, 8, 65536, 65536, 1000, 2048⟩

def shrinkingCarrier (taken : ℕ) (_ : List UInt8) : Option CarrierError × ℕ :=
  (if taken = 1 then some ⟨false, some 31⟩ else none, taken + 1)

def emptyLane : Lane ℕ := ⟨⟨0⟩, ⟨0, by decide⟩, 0, [], []⟩

theorem hybrid_lanes_of_shrinkingCarrier :
    (sampleSettings.useDatagramForPath 10 32 = true ↔
      (1 : ℤ) ≤ 10 ∧ 10 ≤ sampleSettings.h3DatagramTransferFrameByteLimit 32) ∧
    sampleSettings.h3DatagramTransferFrameByteLimit 32 = 16 ∧ sampleSettings.useDatagramForPath 3 40 = true ∧
    ∃ l, emptyLane.sendHybrid shrinkingCarrier sampleSettings [1, 2, 3, 4, 5] 32 = some ((false, 31, none), l) ∧
      l.accepted.length = 3 ∧ l.Whole [1, 2, 3, 4, 5] := by
  have hs : sampleSettings.validate = .ok () := by decide +kernel
  obtain ⟨hthreshold, hmono, hlanes⟩ := hybrid_lanes sampleSettings hs
  have hpath : PathLimit 32 := by decide
  refine ⟨hthreshold 10 32 hpath (by decide), by decide +kernel, ?_, _, rfl, by decide +kernel, ?_⟩
  · exact hmono 10 32 3 40 hpath (by decide) (by decide) (by decide) (by decide) (by decide +kernel)
  · exact (hlanes ℕ shrinkingCarrier emptyLane [1, 2, 3, 4, 5] 32 false 31 none _ hpath rfl rfl rfl).2 rfl rfl

theorem extreme_paths_break_the_threshold :
    sampleSettings.validate = .ok () ∧
    sampleSettings.useDatagramForPath 1 (2 ^ 62 + 28) = true ∧
    sampleSettings.h3DatagramTransferFrameByteLimit (2 ^ 62 + 28) = 0 ∧
    sampleSettings.useDatagramForPath 100 (-2 ^ 63) = true ∧ sampleSettings.useDatagramForPath 100 0 = false := by
  decide +kernel

end UrConnect.Transport.H3
