import Mathlib.Algebra.Order.BigOperators.Group.List
import Mathlib.Tactic.Ring
import UrConnect.Transfer.FlightLimits

/-! The items of a send sequence and their part in the unreliable flight. An item is charged by
the length of its frame when it is tracked, and released by the length of the frame it has then. -/

namespace UrConnect.Transfer.Flight

open Lib Lib.Runs Lib.SignedWord

/-- `frame` is the length of the encoded frame. `charged` is no field of the source: it keeps what
the item was charged when it was last tracked. -/
structure Item where
  sequenceNumber : ℕ
  frame : ℕ
  messageByteCount : Int64
  head : Bool
  schedulingKey : SchedulingKey
  unreliableFlightTracked : Bool
  unreliableFlowReserve : Bool
  selectiveAcked : Bool
  charged : Int64

def Item.byteCount (item : Item) : Int64 :=
  if 0 < item.frame then Int64.ofNat item.frame else item.messageByteCount

structure Sequence where
  controller : Controller
  sendItems : List Item
  nextSequenceNumber : ℕ

/-- The answer of a write: an error, or whether the carrier is an unreliable one. -/
inductive Write
  | failed
  | reliable
  | unreliable
deriving DecidableEq

inductive SendEvent
  | applyPolicy (policy : Policy)
  | send (frame : ℕ) (messageByteCount : Int64) (key : SchedulingKey) (ack : Bool) (write : Write)
  | resend (sequenceNumber : ℕ) (headFrame : Option ℕ) (policy : Policy) (write : Write)
  | selectiveAck (sequenceNumber : ℕ)
  | ack (sequenceNumber : ℕ)
  | drop (sequenceNumber : ℕ)

def trackUnreliableFlight (c : Controller) (item : Item) : Controller × Item :=
  if item.unreliableFlightTracked then (c, item)
  else
    ((c.sendForKey item.byteCount item.schedulingKey).2, { item with
      unreliableFlightTracked := true
      unreliableFlowReserve := (c.sendForKey item.byteCount item.schedulingKey).1
      charged := item.byteCount })

def untracked (item : Item) : Item :=
  { item with unreliableFlightTracked := false, unreliableFlowReserve := false }

/-- `none` is the panic of a division by zero. -/
def releaseUnreliableFlight (c : Controller) (item : Item) : Option (Controller × Item) :=
  if ¬ item.unreliableFlightTracked then some (c, item)
  else (c.acknowledgeForKey item.byteCount item.schedulingKey item.unreliableFlowReserve).map
    fun c => (c, untracked item)

def forgetUnreliableFlight (c : Controller) (item : Item) : Controller × Item :=
  if ¬ item.unreliableFlightTracked then (c, item)
  else (c.forget item.byteCount item.schedulingKey item.unreliableFlowReserve, untracked item)

def observeCarrierWrite (c : Controller) (item : Item) (write : Write) : Controller × Item :=
  if write = .unreliable then trackUnreliableFlight c item else (c, item)

def observeUnreliableResendTimeout (c : Controller) (item : Item) (policy : Policy) :
    Controller × Item :=
  if policy.reliableRouteAvailable then forgetUnreliableFlight c.reduceForLoss.2 item
  else (c.reduceForLoss.2, item)

/-- An item that a cumulative acknowledgement covers: its first release is skipped after a
selective acknowledgement, the one of `ackItem` never is. -/
def settle (c : Controller) (item : Item) : Option Controller :=
  if item.selectiveAcked then (releaseUnreliableFlight c item).map Prod.fst
  else (releaseUnreliableFlight c item).bind fun (c, item) =>
    (releaseUnreliableFlight c item).map Prod.fst

def settleAll (c : Controller) (items : List Item) : Option Controller := items.foldlM settle c

namespace Sequence

def new (settings : Option Settings) : Sequence := ⟨newSendFlightController settings, [], 0⟩

def rewrite (c : Controller) (item : Item) (policy : Policy) (write : Write) : Controller × Item :=
  let c := c.applyPolicy policy
  let (c, item) := if item.unreliableFlightTracked then observeUnreliableResendTimeout c item policy
    else (c, item)
  observeCarrierWrite c item write

def split (items : List Item) (n : ℕ) : Option (List Item × Item × List Item) :=
  match items.dropWhile (·.sequenceNumber ≠ n) with
  | [] => none
  | item :: rest => some (items.takeWhile (·.sequenceNumber ≠ n), item, rest)

def promotes (before : List Item) (item : Item) : Bool := before.isEmpty && !item.head

def promote (before : List Item) (item : Item) (headFrame : ℕ) : Item :=
  if promotes before item then { item with head := true, frame := headFrame } else item

def dropItem (s : Sequence) (before : List Item) (item : Item) (after : List Item) :
    Option Sequence :=
  (releaseUnreliableFlight s.controller item).map fun (c, _) =>
    { s with controller := c, sendItems := before ++ after }

def send (s : Sequence) (frame : ℕ) (messageByteCount : Int64) (key : SchedulingKey) (ack : Bool)
    (write : Write) : Option Sequence :=
  let item : Item := ⟨if ack then s.nextSequenceNumber else 0, frame, messageByteCount,
    ack && s.sendItems.isEmpty, key, false, false, false, 0⟩
  let (c, item) := observeCarrierWrite s.controller item write
  if ack then some ⟨c, s.sendItems ++ [item], s.nextSequenceNumber + 1⟩
  else (releaseUnreliableFlight c item).map fun (c, _) => { s with controller := c }

def onItem (s : Sequence) (n : ℕ) (f : List Item → Item → List Item → Option Sequence) :
    Option Sequence :=
  match split s.sendItems n with
  | none => some s
  | some (before, item, after) => f before item after

def resend (s : Sequence) (headFrame : Option ℕ) (policy : Policy) (write : Write)
    (before : List Item) (item : Item) (after : List Item) : Option Sequence :=
  if headFrame = none ∧ promotes before item then s.dropItem before item after
  else
    let (c, item) :=
      rewrite s.controller (promote before item (headFrame.getD item.frame)) policy write
    some { s with controller := c, sendItems := before ++ item :: after }

def selectiveAck (s : Sequence) (before : List Item) (item : Item) (after : List Item) :
    Option Sequence :=
  if item.selectiveAcked then some s
  else (releaseUnreliableFlight s.controller item).map fun (c, item) =>
    { s with
      controller := c
      sendItems := before ++ { item with selectiveAcked := true } :: after }

def cumulativeAck (s : Sequence) (before : List Item) (item : Item) (after : List Item) :
    Option Sequence :=
  (settleAll s.controller (before ++ [item])).map fun c =>
    { s with controller := c, sendItems := after }

def step (s : Sequence) : SendEvent → Option Sequence
  | .applyPolicy policy => some { s with controller := s.controller.applyPolicy policy }
  | .send frame messageByteCount key ack write => s.send frame messageByteCount key ack write
  | .resend n headFrame policy write => s.onItem n (s.resend headFrame policy write)
  | .selectiveAck n => s.onItem n s.selectiveAck
  | .ack n => s.onItem n s.cumulativeAck
  | .drop n => s.onItem n s.dropItem

end Sequence

section tally

structure Tally (c : Controller) (bytes messages holders : ℤ) : Prop where
  bytes : c.byteCount.toInt = bytes
  messages : c.messageCount.toInt = messages
  holders : (if c.flowReserveInUse then 1 else 0) = holders

variable {c b : Controller} {bytes messages holders : ℤ}

structure SameCounts (c b : Controller) : Prop where
  bytes : b.byteCount = c.byteCount
  messages : b.messageCount = c.messageCount
  inUse : b.flowReserveInUse = c.flowReserveInUse

lemma Tally.same (h : Tally c bytes messages holders) (hs : SameCounts c b) :
    Tally b bytes messages holders :=
  ⟨by rw [hs.bytes, h.bytes], by rw [hs.messages, h.messages], by rw [hs.inUse, h.holders]⟩

lemma Tally.applyPolicy (h : Tally c bytes messages holders) (policy : Policy) :
    Tally (c.applyPolicy policy) bytes messages holders := by
  unfold Controller.applyPolicy
  dsimp only
  split
  · exact h
  · split
    · exact h.same ⟨rfl, rfl, rfl⟩
    · exact h.same ⟨rfl, rfl, rfl⟩

lemma Tally.reduceForLoss (h : Tally c bytes messages holders) :
    Tally c.reduceForLoss.2 bytes messages holders := by
  unfold Controller.reduceForLoss
  split
  · exact h
  · exact h.same ⟨rfl, rfl, rfl⟩

lemma Tally.sendForKey (h : Tally c bytes messages holders) {n : Int64} (key : SchedulingKey)
    (hn : 0 < n.toInt) (hbytes : bytes + n.toInt < 2 ^ 63) (hmessages : messages + 1 < 2 ^ 63)
    (hb : 0 ≤ bytes) (hm : 0 ≤ messages) :
    Tally (c.sendForKey n key).2 (bytes + n.toInt) (messages + 1)
      (holders + if (c.sendForKey n key).1 then 1 else 0) := by
  have hpos : 0 < n := Int64.lt_iff_toInt_lt.mpr hn
  have hone : (1 : Int64).toInt = 1 := by decide
  unfold Controller.sendForKey
  dsimp only
  rw [if_pos hpos]
  refine ⟨?_, ?_, ?_⟩
  · change (c.byteCount + n).toInt = _
    rw [toInt_add_of_range, h.bytes]
    · rw [h.bytes]
      omega
    · rw [h.bytes]
      exact hbytes
  · change (c.messageCount + 1).toInt = _
    rw [toInt_add_of_range, h.messages, hone]
    · rw [h.messages, hone]
      omega
    · rw [h.messages, hone]
      exact hmessages
  · change (if c.flowReserveInUse || c.reserves key then 1 else 0) = _
    have hholders := h.holders
    cases hr : c.reserves key with
    | false =>
        rw [Bool.or_false, hholders]
        simp
    | true =>
        have hfree : c.flowReserveInUse = false := by
          have := of_decide_eq_true hr
          simpa using this.2.2.2.1
        rw [hfree] at hholders ⊢
        simp at hholders ⊢
        omega

lemma toInt_sub_min {x y : Int64} (hx : 0 ≤ x.toInt) (hy : x.toInt ≤ y.toInt) :
    (y - min x y).toInt = y.toInt - x.toInt := by
  have hmax := y.toInt_lt
  have hmin : (min x y).toInt = x.toInt := by
    rw [toInt_min]
    omega
  rw [toInt_sub_of_range, hmin]
  · rw [hmin]
    omega
  · rw [hmin]
    omega

lemma Tally.uncount {n : Int64} (h : Tally c (bytes + n.toInt) (messages + 1) holders)
    (key : SchedulingKey) (hn : 0 ≤ n.toInt) (hb : 0 ≤ bytes) (hm : 0 ≤ messages) :
    Tally (c.uncount n key) bytes messages holders := by
  have hbytes := h.bytes
  have hmessages := h.messages
  have hone : (1 : Int64).toInt = 1 := by decide
  refine ⟨?_, ?_, h.holders⟩
  · change (c.byteCount - min n c.byteCount).toInt = _
    rw [toInt_sub_min hn (by omega)]
    omega
  · change (if 0 < c.messageCount then c.messageCount - 1 else c.messageCount).toInt = _
    have hpos : 0 < c.messageCount := by
      rw [Int64.lt_iff_toInt_lt, Int64.toInt_zero]
      omega
    have hmax := c.messageCount.toInt_lt
    rw [if_pos hpos, toInt_sub_of_range (by omega) (by omega)]
    omega

lemma Tally.unreserve {held : Bool}
    (h : Tally c bytes messages (holders + if held then 1 else 0)) (hh : 0 ≤ holders) :
    Tally (c.unreserve held) bytes messages holders := by
  refine ⟨h.bytes, h.messages, ?_⟩
  have hholders := h.holders
  change (if c.flowReserveInUse && !held then 1 else 0) = holders
  cases held with
  | false => simpa using hholders
  | true =>
      simp only [Bool.not_true, Bool.and_false, Bool.false_eq_true, if_false, if_true] at hholders ⊢
      split at hholders
      · omega
      · omega

lemma SameCounts.of_grown {p : Prop} [Decidable p] {g : Option (Int64 × Int64)}
    {f : Int64 × Int64 → Controller} (hf : ∀ q, SameCounts c (f q))
    (h : (if p then g.map f else some c) = some b) : SameCounts c b := by
  split at h
  · obtain ⟨q, -, rfl⟩ := Option.map_eq_some_iff.mp h
    exact hf q
  · cases h
    exact ⟨rfl, rfl, rfl⟩

lemma SameCounts.trans {x : Controller} (h : SameCounts c x) (h' : SameCounts x b) :
    SameCounts c b :=
  ⟨h'.bytes.trans h.bytes, h'.messages.trans h.messages, h'.inUse.trans h.inUse⟩

lemma credit_counts {d m : Int64} (h : c.credit d m = some b) : SameCounts c b := by
  unfold Controller.credit at h
  split at h
  · cases h
    exact ⟨rfl, rfl, rfl⟩
  · split at h
    · obtain ⟨x, hx, hb⟩ := Option.bind_eq_some_iff.mp h
      unfold Controller.slowStartBytes at hx
      unfold Controller.slowStartMessages at hb
      refine (SameCounts.of_grown ?_ hx).trans (SameCounts.of_grown ?_ hb)
      · exact fun _ => ⟨rfl, rfl, rfl⟩
      · exact fun _ => ⟨rfl, rfl, rfl⟩
    · obtain ⟨x, hx, hb⟩ := Option.bind_eq_some_iff.mp h
      unfold Controller.additiveBytes at hx
      unfold Controller.additiveMessages at hb
      refine (SameCounts.of_grown ?_ hx).trans (SameCounts.of_grown ?_ hb)
      · exact fun _ => ⟨rfl, rfl, rfl⟩
      · exact fun _ => ⟨rfl, rfl, rfl⟩

lemma Tally.acknowledgeForKey {n : Int64} {held : Bool} {key : SchedulingKey}
    (h : Tally c (bytes + n.toInt) (messages + 1) (holders + if held then 1 else 0))
    (hn : 0 < n.toInt) (hb : 0 ≤ bytes) (hm : 0 ≤ messages) (hh : 0 ≤ holders)
    (ha : c.acknowledgeForKey n key held = some b) : Tally b bytes messages holders := by
  unfold Controller.acknowledgeForKey at ha
  have hpos : ¬ n ≤ 0 := by
    rw [Int64.le_iff_toInt_le, Int64.toInt_zero]
    omega
  rw [if_neg hpos] at ha
  exact ((h.unreserve hh).uncount key hn.le hb hm).same (credit_counts ha)

lemma Tally.forget {n : Int64} {held : Bool} (key : SchedulingKey)
    (h : Tally c (bytes + n.toInt) (messages + 1) (holders + if held then 1 else 0))
    (hn : 0 < n.toInt) (hb : 0 ≤ bytes) (hm : 0 ≤ messages) (hh : 0 ≤ holders) :
    Tally (c.forget n key held) bytes messages holders :=
  (h.uncount key hn.le hb hm).unreserve hh

end tally

section shares

variable {c : Controller} {item : Item}

namespace Item

def bytes (item : Item) : ℤ := if item.unreliableFlightTracked then item.charged.toInt else 0

def messages (item : Item) : ℤ := if item.unreliableFlightTracked then 1 else 0

def holders (item : Item) : ℤ :=
  if item.unreliableFlightTracked then if item.unreliableFlowReserve then 1 else 0 else 0

structure Exact (item : Item) : Prop where
  pos : 0 < item.frame
  fits : (item.frame : ℤ) < 2 ^ 63
  charged : item.unreliableFlightTracked = true → item.charged = item.byteCount

lemma toInt_byteCount (hpos : 0 < item.frame) (hfits : (item.frame : ℤ) < 2 ^ 63) :
    item.byteCount.toInt = item.frame := by
  rw [byteCount, if_pos hpos]
  exact Int64.toInt_ofNat_of_lt (by omega)

lemma Exact.byteCount_pos (h : item.Exact) : 0 < item.byteCount.toInt := by
  have := h.pos
  rw [toInt_byteCount h.pos h.fits]
  omega

lemma Exact.bytes_nonneg (h : item.Exact) : 0 ≤ item.bytes := by
  unfold bytes
  split
  · next ht =>
      rw [h.charged ht]
      exact h.byteCount_pos.le
  · exact le_refl _

lemma messages_nonneg : 0 ≤ item.messages := by
  unfold messages
  split
  · decide
  · decide

lemma holders_nonneg : 0 ≤ item.holders := by
  unfold holders
  split
  · split
    · decide
    · decide
  · decide

end Item

variable {bytes messages holders : ℤ}

structure Held (c : Controller) (item : Item) (bytes messages holders : ℤ) : Prop where
  exact : item.Exact
  bytes_nonneg : 0 ≤ bytes
  messages_nonneg : 0 ≤ messages
  holders_nonneg : 0 ≤ holders
  tally : Tally c (bytes + item.bytes) (messages + item.messages) (holders + item.holders)

lemma Held.tracked (h : Held c item bytes messages holders)
    (ht : item.unreliableFlightTracked = true) :
    Tally c (bytes + item.byteCount.toInt) (messages + 1)
      (holders + if item.unreliableFlowReserve then 1 else 0) := by
  have := h.tally
  unfold Item.bytes Item.messages Item.holders at this
  rw [if_pos ht, if_pos ht, if_pos ht, h.exact.charged ht] at this
  exact this

lemma Held.untracked (h : Held c item bytes messages holders)
    (ht : item.unreliableFlightTracked = false) : Tally c bytes messages holders := by
  have := h.tally
  unfold Item.bytes Item.messages Item.holders at this
  simpa [ht] using this

lemma Held.release {b : Controller} (h : Held c item bytes messages holders) {item' : Item}
    (hr : releaseUnreliableFlight c item = some (b, item')) :
    Held b item' bytes messages holders ∧ Tally b bytes messages holders ∧
      item'.unreliableFlightTracked = false ∧ item'.frame = item.frame := by
  unfold releaseUnreliableFlight at hr
  split at hr
  · next ht =>
      cases hr
      rw [Bool.not_eq_true] at ht
      exact ⟨h, h.untracked ht, ht, rfl⟩
  · next ht =>
      rw [Bool.not_eq_true, Bool.not_eq_false] at ht
      obtain ⟨b', hb', heq⟩ := Option.map_eq_some_iff.mp hr
      cases heq
      have htally := (h.tracked ht).acknowledgeForKey h.exact.byteCount_pos h.bytes_nonneg
        h.messages_nonneg h.holders_nonneg hb'
      refine ⟨⟨⟨h.exact.pos, h.exact.fits, fun ht' => Bool.noConfusion ht'⟩, h.bytes_nonneg,
        h.messages_nonneg, h.holders_nonneg, ?_⟩, htally, rfl, rfl⟩
      simpa [Flight.untracked, Item.bytes, Item.messages, Item.holders] using htally

lemma Held.forgetUnreliableFlight (h : Held c item bytes messages holders) :
    Held (forgetUnreliableFlight c item).1 (forgetUnreliableFlight c item).2 bytes messages
      holders := by
  unfold Flight.forgetUnreliableFlight
  split
  · exact h
  · next ht =>
      rw [Bool.not_eq_true, Bool.not_eq_false] at ht
      have htally := (h.tracked ht).forget item.schedulingKey h.exact.byteCount_pos
        h.bytes_nonneg h.messages_nonneg h.holders_nonneg
      refine ⟨⟨h.exact.pos, h.exact.fits, fun ht' => Bool.noConfusion ht'⟩, h.bytes_nonneg,
        h.messages_nonneg, h.holders_nonneg, ?_⟩
      simpa [Flight.untracked, Item.bytes, Item.messages, Item.holders] using htally

lemma Held.trackUnreliableFlight (h : Held c item bytes messages holders)
    (hbytes : bytes + item.frame < 2 ^ 63) (hmessages : messages + 1 < 2 ^ 63) :
    Held (trackUnreliableFlight c item).1 (trackUnreliableFlight c item).2 bytes messages
      holders := by
  unfold Flight.trackUnreliableFlight
  split
  · exact h
  · next ht =>
      rw [Bool.not_eq_true] at ht
      have hlen := Item.toInt_byteCount h.exact.pos h.exact.fits
      have htally := (h.untracked ht).sendForKey item.schedulingKey h.exact.byteCount_pos
        (by omega) hmessages h.bytes_nonneg h.messages_nonneg
      exact ⟨⟨h.exact.pos, h.exact.fits, fun _ => rfl⟩, h.bytes_nonneg, h.messages_nonneg,
        h.holders_nonneg, htally⟩

end shares

namespace Sequence

/-- Frames are not empty and the counts fit into their words, and the promotion of an item on an
unreliable carrier keeps the length of its frame. -/
def Steady (s : Sequence) : SendEvent → Prop
  | .send frame _ _ _ _ =>
    0 < frame ∧ s.controller.byteCount.toInt + frame < 2 ^ 63 ∧
      s.controller.messageCount.toInt + 1 < 2 ^ 63
  | .resend n headFrame _ _ =>
    match split s.sendItems n with
    | none => True
    | some (before, item, _) =>
      0 < (promote before item (headFrame.getD item.frame)).frame ∧
        s.controller.byteCount.toInt + (promote before item (headFrame.getD item.frame)).frame <
          2 ^ 63 ∧
        s.controller.messageCount.toInt + 1 < 2 ^ 63 ∧
        (item.unreliableFlightTracked = true →
          (promote before item (headFrame.getD item.frame)).frame = item.frame)
  | _ => True

instance (s : Sequence) : (e : SendEvent) → Decidable (s.Steady e)
  | .send .. => inferInstanceAs (Decidable (_ ∧ _ ∧ _))
  | .resend n headFrame _ _ =>
    match h : split s.sendItems n with
    | none => decidable_of_iff True (by rw [Steady, h])
    | some (before, item, after) =>
      decidable_of_iff (0 < (promote before item (headFrame.getD item.frame)).frame ∧
        s.controller.byteCount.toInt + (promote before item (headFrame.getD item.frame)).frame <
          2 ^ 63 ∧
        s.controller.messageCount.toInt + 1 < 2 ^ 63 ∧
        (item.unreliableFlightTracked = true →
          (promote before item (headFrame.getD item.frame)).frame = item.frame))
        (by rw [Steady, h])
  | .applyPolicy _ | .selectiveAck _ | .ack _ | .drop _ => inferInstanceAs (Decidable True)

def bytes (items : List Item) : ℤ := (items.map Item.bytes).sum

def messages (items : List Item) : ℤ := (items.map Item.messages).sum

def holders (items : List Item) : ℤ := (items.map Item.holders).sum

structure Ledger (c : Controller) (items : List Item) : Prop where
  exact : ∀ item ∈ items, item.Exact
  tally : Tally c (bytes items) (messages items) (holders items)

section ledger

variable {c b : Controller} {before after items : List Item} {item : Item} {n : ℕ}

lemma split_eq (h : split items n = some (before, item, after)) :
    items = before ++ item :: after := by
  unfold split at h
  split at h
  · cases h
  · next item' rest hdrop =>
      cases h
      rw [← hdrop, List.takeWhile_append_dropWhile]

lemma nonneg (h : ∀ item ∈ items, item.Exact) :
    0 ≤ bytes items ∧ 0 ≤ messages items ∧ 0 ≤ holders items := by
  refine ⟨List.sum_nonneg ?_, List.sum_nonneg ?_, List.sum_nonneg ?_⟩
  · intro x hx
    obtain ⟨item, hitem, rfl⟩ := List.mem_map.mp hx
    exact (h item hitem).bytes_nonneg
  · intro x hx
    obtain ⟨item, -, rfl⟩ := List.mem_map.mp hx
    exact Item.messages_nonneg
  · intro x hx
    obtain ⟨item, -, rfl⟩ := List.mem_map.mp hx
    exact Item.holders_nonneg

lemma ledger_iff : Ledger c (before ++ item :: after) ↔
    (∀ x ∈ before ++ after, x.Exact) ∧
      Held c item (bytes (before ++ after)) (messages (before ++ after))
        (holders (before ++ after)) := by
  have hbytes : bytes (before ++ item :: after) = bytes (before ++ after) + item.bytes := by
    simp [bytes]
    ring
  have hmessages :
      messages (before ++ item :: after) = messages (before ++ after) + item.messages := by
    simp [messages]
    ring
  have hholders : holders (before ++ item :: after) = holders (before ++ after) + item.holders := by
    simp [holders]
    ring
  constructor
  · intro h
    have hothers : ∀ x ∈ before ++ after, x.Exact := by
      intro x hx
      apply h.exact
      rcases List.mem_append.mp hx with hx | hx
      · exact List.mem_append_left _ hx
      · exact List.mem_append_right _ (List.mem_cons_of_mem _ hx)
    obtain ⟨h₁, h₂, h₃⟩ := nonneg hothers
    refine ⟨hothers, h.exact item (by simp), h₁, h₂, h₃, ?_⟩
    rw [← hbytes, ← hmessages, ← hholders]
    exact h.tally
  · rintro ⟨hothers, hheld⟩
    refine ⟨fun x hx => ?_, ?_⟩
    · rcases List.mem_append.mp hx with hx | hx
      · exact hothers x (List.mem_append_left _ hx)
      · rcases List.mem_cons.mp hx with rfl | hx
        · exact hheld.exact
        · exact hothers x (List.mem_append_right _ hx)
    · rw [hbytes, hmessages, hholders]
      exact hheld.tally

lemma Ledger.released {item' : Item} (h : Ledger c (before ++ item :: after))
    (hr : releaseUnreliableFlight c item = some (b, item')) :
    Ledger b (before ++ after) ∧ Ledger b (before ++ item' :: after) := by
  obtain ⟨hothers, hheld⟩ := ledger_iff.mp h
  obtain ⟨hheld', htally, -, -⟩ := hheld.release hr
  exact ⟨⟨hothers, htally⟩, ledger_iff.mpr ⟨hothers, hheld'⟩⟩

lemma Ledger.settled (h : Ledger c (item :: after)) (hs : settle c item = some b) :
    Ledger b after := by
  have hfirst : Ledger c ([] ++ item :: after) := h
  unfold settle at hs
  split at hs
  · obtain ⟨⟨b', item'⟩, hr, rfl⟩ := Option.map_eq_some_iff.mp hs
    exact (hfirst.released hr).1
  · obtain ⟨⟨b', item'⟩, hr, hs⟩ := Option.bind_eq_some_iff.mp hs
    obtain ⟨⟨b'', item''⟩, hr', rfl⟩ := Option.map_eq_some_iff.mp hs
    have hreleased : Ledger b' ([] ++ item' :: after) := (hfirst.released hr).2
    exact (hreleased.released hr').1

lemma Ledger.settledAll (h : Ledger c (items ++ after)) (hs : settleAll c items = some b) :
    Ledger b after := by
  induction items generalizing c with
  | nil =>
      cases hs
      exact h
  | cons item items ih =>
      unfold settleAll at hs
      rw [List.foldlM_cons] at hs
      obtain ⟨c', hc', hs⟩ := Option.bind_eq_some_iff.mp hs
      exact ih (h.settled hc') hs

lemma held_observeCarrierWrite {B M H : ℤ} (h : Held c item B M H) (hbytes : B + item.frame < 2 ^ 63)
    (hmessages : M + 1 < 2 ^ 63) (write : Write) :
    Held (observeCarrierWrite c item write).1 (observeCarrierWrite c item write).2 B M H := by
  unfold Flight.observeCarrierWrite
  split
  · exact h.trackUnreliableFlight hbytes hmessages
  · exact h

lemma held_rewrite {B M H : ℤ} (h : Held c item B M H) (hbytes : B + item.frame < 2 ^ 63)
    (hmessages : M + 1 < 2 ^ 63) (policy : Policy) (write : Write) :
    Held (rewrite c item policy write).1 (rewrite c item policy write).2 B M H := by
  have hpolicy : Held (c.applyPolicy policy) item B M H :=
    ⟨h.exact, h.bytes_nonneg, h.messages_nonneg, h.holders_nonneg, h.tally.applyPolicy policy⟩
  have hloss : Held (c.applyPolicy policy).reduceForLoss.2 item B M H :=
    ⟨h.exact, h.bytes_nonneg, h.messages_nonneg, h.holders_nonneg, hpolicy.tally.reduceForLoss⟩
  unfold Sequence.rewrite
  dsimp only
  split
  · unfold observeUnreliableResendTimeout
    split
    · refine held_observeCarrierWrite hloss.forgetUnreliableFlight ?_ hmessages write
      unfold Flight.forgetUnreliableFlight
      split
      · exact hbytes
      · exact hbytes
    · exact held_observeCarrierWrite hloss hbytes hmessages write
  · exact held_observeCarrierWrite hpolicy hbytes hmessages write

lemma promote_frame_tracked (before : List Item) (item : Item) (headFrame : ℕ) :
    (promote before item headFrame).unreliableFlightTracked = item.unreliableFlightTracked ∧
      (promote before item headFrame).charged = item.charged ∧
      (promote before item headFrame).unreliableFlowReserve = item.unreliableFlowReserve := by
  unfold promote
  split
  · exact ⟨rfl, rfl, rfl⟩
  · exact ⟨rfl, rfl, rfl⟩

lemma held_promote {B M H : ℤ} (h : Held c item B M H) {headFrame : ℕ}
    (hpos : 0 < (promote before item headFrame).frame)
    (hfits : ((promote before item headFrame).frame : ℤ) < 2 ^ 63)
    (hkeep : item.unreliableFlightTracked = true →
      (promote before item headFrame).frame = item.frame) :
    Held c (promote before item headFrame) B M H := by
  obtain ⟨htracked, hcharged, hreserve⟩ := promote_frame_tracked before item headFrame
  refine ⟨⟨hpos, hfits, fun ht => ?_⟩, h.bytes_nonneg, h.messages_nonneg, h.holders_nonneg, ?_⟩
  · rw [htracked] at ht
    rw [hcharged, h.exact.charged ht, ← Int64.toInt_inj, Item.toInt_byteCount hpos hfits,
      Item.toInt_byteCount h.exact.pos h.exact.fits, hkeep ht]
  · have := h.tally
    unfold Item.bytes Item.messages Item.holders at this ⊢
    rw [htracked, hcharged, hreserve]
    exact this

end ledger

variable {s s' : Sequence} {e : SendEvent}

lemma ledger_onItem {n : ℕ} {f : List Item → Item → List Item → Option Sequence}
    (h : Ledger s.controller s.sendItems)
    (hf : ∀ before item after, split s.sendItems n = some (before, item, after) →
      Ledger s.controller (before ++ item :: after) → f before item after = some s' →
      Ledger s'.controller s'.sendItems)
    (hs : s.onItem n f = some s') : Ledger s'.controller s'.sendItems := by
  unfold onItem at hs
  cases hsplit : split s.sendItems n with
  | none =>
      rw [hsplit] at hs
      cases hs
      exact h
  | some p =>
      obtain ⟨before, item, after⟩ := p
      rw [hsplit] at hs
      exact hf before item after hsplit (split_eq hsplit ▸ h) hs

lemma ledger_dropItem {before after : List Item} {item : Item}
    (h : Ledger s.controller (before ++ item :: after))
    (hd : s.dropItem before item after = some s') : Ledger s'.controller s'.sendItems := by
  obtain ⟨⟨b, item'⟩, hr, rfl⟩ := Option.map_eq_some_iff.mp hd
  exact (h.released hr).1

lemma ledger_send {frame : ℕ} {messageByteCount : Int64} {key : SchedulingKey} {ack : Bool}
    {write : Write} (h : Ledger s.controller s.sendItems) (hpos : 0 < frame)
    (hbytes : s.controller.byteCount.toInt + frame < 2 ^ 63)
    (hmessages : s.controller.messageCount.toInt + 1 < 2 ^ 63)
    (hs : s.send frame messageByteCount key ack write = some s') :
    Ledger s'.controller s'.sendItems := by
  obtain ⟨h₁, h₂, h₃⟩ := nonneg h.exact
  have hb := h.tally.bytes
  have hm := h.tally.messages
  unfold send at hs
  dsimp only at hs
  set item : Item := ⟨if ack then s.nextSequenceNumber else 0, frame, messageByteCount,
    ack && s.sendItems.isEmpty, key, false, false, false, 0⟩ with hitem
  have hfresh : Held s.controller item (bytes s.sendItems) (messages s.sendItems)
      (holders s.sendItems) := by
    refine ⟨⟨hpos, by change (frame : ℤ) < _; omega, fun ht => Bool.noConfusion ht⟩, h₁, h₂, h₃, ?_⟩
    simpa [hitem, Item.bytes, Item.messages, Item.holders] using h.tally
  have hheld := held_observeCarrierWrite hfresh (by change _ + (frame : ℤ) < _; omega) (by omega)
    write
  split at hs
  · cases hs
    apply ledger_iff.mpr
    simpa using ⟨h.exact, hheld⟩
  · obtain ⟨⟨b, item'⟩, hr, rfl⟩ := Option.map_eq_some_iff.mp hs
    exact ⟨h.exact, (hheld.release hr).2.1⟩

lemma ledger_resend {headFrame : Option ℕ} {policy : Policy} {write : Write}
    {before after : List Item} {item : Item} (h : Ledger s.controller (before ++ item :: after))
    (hpos : 0 < (promote before item (headFrame.getD item.frame)).frame)
    (hbytes : s.controller.byteCount.toInt +
      (promote before item (headFrame.getD item.frame)).frame < 2 ^ 63)
    (hmessages : s.controller.messageCount.toInt + 1 < 2 ^ 63)
    (hkeep : item.unreliableFlightTracked = true →
      (promote before item (headFrame.getD item.frame)).frame = item.frame)
    (hs : s.resend headFrame policy write before item after = some s') :
    Ledger s'.controller s'.sendItems := by
  unfold resend at hs
  split at hs
  · exact ledger_dropItem h hs
  · cases hs
    obtain ⟨hothers, hheld⟩ := ledger_iff.mp h
    have hb := hheld.tally.bytes
    have hm := hheld.tally.messages
    have hb₀ := hheld.exact.bytes_nonneg
    have hb₁ := hheld.bytes_nonneg
    have hm₀ : 0 ≤ item.messages := Item.messages_nonneg
    apply ledger_iff.mpr
    refine ⟨hothers, held_rewrite (held_promote hheld hpos (by omega) hkeep) ?_ ?_ policy write⟩
    · omega
    · omega

lemma ledger_selectiveAck {before after : List Item} {item : Item}
    (heq : s.sendItems = before ++ item :: after)
    (h : Ledger s.controller (before ++ item :: after))
    (hs : s.selectiveAck before item after = some s') : Ledger s'.controller s'.sendItems := by
  unfold selectiveAck at hs
  split at hs
  · cases hs
    rw [heq]
    exact h
  · obtain ⟨⟨b, item'⟩, hr, rfl⟩ := Option.map_eq_some_iff.mp hs
    obtain ⟨hothers, hheld⟩ := ledger_iff.mp (h.released hr).2
    exact ledger_iff.mpr ⟨hothers, ⟨hheld.exact.pos, hheld.exact.fits, hheld.exact.charged⟩,
      hheld.bytes_nonneg, hheld.messages_nonneg, hheld.holders_nonneg, hheld.tally⟩

lemma ledger_step (h : Ledger s.controller s.sendItems) (hs : s.Steady e)
    (hstep : s.step e = some s') : Ledger s'.controller s'.sendItems := by
  cases e with
  | applyPolicy policy =>
      cases hstep
      exact ⟨h.exact, h.tally.applyPolicy policy⟩
  | send frame messageByteCount key ack write => exact ledger_send h hs.1 hs.2.1 hs.2.2 hstep
  | resend n headFrame policy write =>
      refine ledger_onItem h (fun before item after hsplit h => ?_) hstep
      unfold Steady at hs
      dsimp only at hs
      rw [hsplit] at hs
      exact ledger_resend h hs.1 hs.2.1 hs.2.2.1 hs.2.2.2
  | selectiveAck n =>
      exact ledger_onItem h (fun _ _ _ hsplit h => ledger_selectiveAck (split_eq hsplit) h) hstep
  | ack n =>
      refine ledger_onItem h (fun before item after _ h hs => ?_) hstep
      obtain ⟨b, hb, rfl⟩ := Option.map_eq_some_iff.mp hs
      rw [← List.singleton_append, ← List.append_assoc] at h
      exact h.settledAll hb
  | drop n => exact ledger_onItem h (fun _ _ _ _ h => ledger_dropItem h) hstep

lemma ledger_new (settings : Option Settings) : Ledger (new settings).controller [] := by
  have hzero : (newSendFlightController settings).byteCount = 0 ∧
      (newSendFlightController settings).messageCount = 0 ∧
      (newSendFlightController settings).flowReserveInUse = false := by
    unfold newSendFlightController
    split
    · exact ⟨rfl, rfl, rfl⟩
    · dsimp only
      split
      · exact ⟨rfl, rfl, rfl⟩
      · split
        · exact ⟨rfl, rfl, rfl⟩
        · exact ⟨rfl, rfl, rfl⟩
  refine ⟨fun _ hx => absurd hx List.not_mem_nil, ?_, ?_, ?_⟩
  · rw [new, hzero.1]
    rfl
  · rw [new, hzero.2.1]
    rfl
  · rw [new, hzero.2.2]
    rfl

def tracked (s : Sequence) : List Item := s.sendItems.filter (·.unreliableFlightTracked)

lemma sum_tracked (items : List Item) :
    bytes items = ((items.filter (·.unreliableFlightTracked)).map (·.charged.toInt)).sum ∧
    messages items = (items.filter (·.unreliableFlightTracked)).length ∧
    holders items = ((items.filter (·.unreliableFlightTracked)).filter
      (·.unreliableFlowReserve)).length := by
  unfold bytes messages holders
  induction items with
  | nil => exact ⟨rfl, rfl, rfl⟩
  | cons item items ih =>
      obtain ⟨h₁, h₂, h₃⟩ := ih
      cases ht : item.unreliableFlightTracked with
      | false =>
          rw [List.filter_cons_of_neg (by simp [ht])]
          simp [Item.bytes, Item.messages, Item.holders, ht, h₁, h₂, h₃]
      | true =>
          rw [List.filter_cons_of_pos (p := fun x : Item => x.unreliableFlightTracked) ht]
          have hlength : ((item :: items.filter (·.unreliableFlightTracked)).filter
              (·.unreliableFlowReserve)).length = ((items.filter (·.unreliableFlightTracked)).filter
                (·.unreliableFlowReserve)).length + if item.unreliableFlowReserve then 1 else 0 := by
            rw [List.filter_cons]
            split
            · rw [List.length_cons]
            · rfl
          refine ⟨?_, ?_, ?_⟩
          · rw [List.map_cons, List.sum_cons, h₁, List.map_cons, List.sum_cons, Item.bytes, if_pos ht]
          · rw [List.map_cons, List.sum_cons, h₂, List.length_cons, Item.messages, if_pos ht]
            omega
          · rw [List.map_cons, List.sum_cons, h₃, hlength, Item.holders, if_pos ht]
            split
            · omega
            · omega

/-- In a run whose promotions keep the frame length of items on unreliable carriers, the flight
counts are those of the tracked items, by what each was charged, and the reserve is in use exactly
when one of them holds it. -/
theorem flight_accounting_exact (settings : Option Settings) (es : List SendEvent) (s : Sequence)
    (hs : MeetsM Steady step (new settings) es) (hr : es.foldlM step (new settings) = some s) :
    s.controller.byteCount.toInt = (s.tracked.map (·.charged.toInt)).sum ∧
    s.controller.messageCount.toInt = s.tracked.length ∧
    (s.controller.flowReserveInUse = true ↔
      (s.tracked.filter (·.unreliableFlowReserve)).length = 1) ∧
    (s.tracked.filter (·.unreliableFlowReserve)).length ≤ 1 ∧
    (s.tracked = [] → s.controller.byteCount = 0 ∧ s.controller.messageCount = 0) := by
  have h : Ledger s.controller s.sendItems :=
    foldlM_some (I := fun s => Ledger s.controller s.sendItems)
      (fun _ _ _ h hs hstep => ledger_step h hs hstep) (ledger_new settings) hs hr
  obtain ⟨h₁, h₂, h₃⟩ := sum_tracked s.sendItems
  have hb := h.tally.bytes.trans h₁
  have hm := h.tally.messages.trans h₂
  have hh := h.tally.holders.trans h₃
  refine ⟨hb, hm, ?_, ?_, fun hnone => ?_⟩
  · unfold tracked
    cases hu : s.controller.flowReserveInUse with
    | false =>
        rw [hu, if_neg Bool.false_ne_true] at hh
        exact ⟨fun h => Bool.noConfusion h, fun h => by omega⟩
    | true =>
        rw [hu, if_pos rfl] at hh
        exact ⟨fun _ => by omega, fun _ => rfl⟩
  · unfold tracked
    split at hh
    · omega
    · omega
  · unfold tracked at hnone
    rw [hnone] at hb hm
    exact ⟨Int64.toInt_inj.mp hb, Int64.toInt_inj.mp hm⟩

def limitedPolicy : Policy := ⟨1, true, 0, 0, false, false⟩

/-- Three items on an unreliable carrier; the first is acknowledged, and the second is resent as
the new head with a frame of this length, and then acknowledged. -/
def promotionRun (headFrame : ℕ) : List SendEvent :=
  [.applyPolicy limitedPolicy, .send 80 0 sampleKey true .unreliable,
    .send 100 0 sampleKey true .unreliable, .send 60 0 sampleKey true .unreliable, .ack 0,
    .resend 1 (some headFrame) limitedPolicy .unreliable, .ack 1]

theorem flight_accounting_exact_same_length :
    ((promotionRun 100).foldlM step (new (some sampleSettings))).map
      (·.controller.byteCount.toInt) = some 60 := by
  have hs : MeetsM Steady step (new (some sampleSettings)) (promotionRun 100) := by decide +kernel
  have hsome : ((promotionRun 100).foldlM step (new (some sampleSettings))).isSome = true := by
    decide +kernel
  obtain ⟨s, hr⟩ := Option.isSome_iff_exists.mp hsome
  have hcharged : ((promotionRun 100).foldlM step (new (some sampleSettings))).map
      (fun s => (s.tracked.map (·.charged.toInt)).sum) = some 60 := by decide +kernel
  rw [hr] at hcharged ⊢
  rw [Option.map_some] at hcharged ⊢
  rw [(flight_accounting_exact _ _ s hs hr).1]
  exact hcharged

theorem flight_accounting_drifts :
    ((promotionRun 140).foldlM step (new (some sampleSettings))).map
      (fun s => (s.controller.byteCount.toInt, s.tracked.map (·.charged.toInt))) =
        some (20, [60]) := by
  decide +kernel

end Sequence

end UrConnect.Transfer.Flight
