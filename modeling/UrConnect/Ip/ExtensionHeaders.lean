import Mathlib
import UrConnect.Lib.Bytes

/-! The walk over the extension headers of an IPv6 packet. A read out of the packet's range is the outer `none`. -/

namespace UrConnect.Ip.Ipv6

open UrConnect.Lib.Bytes

def headerSize : ℕ := 40

def fragmentHeaderSize : ℕ := 8

def maxExtensionHeaderCount : ℕ := 16

def nextHeaderFragment : UInt8 := 44

def nextHeaderAuthentication : UInt8 := 51

/-- Hop-by-hop, routing, destination options, mobility, host identity and shim6: headers of one layout. -/
def optionHeaders : List UInt8 := [0, 43, 60, 135, 139, 140]

def isIpv6ExtensionHeader (nextHeader : UInt8) : Bool :=
  nextHeader ∈ optionHeaders ∨ nextHeader = nextHeaderFragment ∨ nextHeader = nextHeaderAuthentication

structure FragmentInfo where
  headerOffset : ℕ
  precedingNextHeaderFieldOffset : ℕ
  nextHeader : UInt8
  offset : ℕ
  moreFragments : Bool
  identification : ℕ
deriving DecidableEq

structure HeaderWalk where
  nextHeader : UInt8
  transportOffset : ℕ
  payloadEnd : ℕ
  fragment : Option FragmentInfo
  fragmented : Bool
deriving DecidableEq

structure WalkState where
  nextHeader : UInt8
  offset : ℕ
  nextHeaderFieldOffset : ℕ
  fragment : Option FragmentInfo

def stepOver (packet : List UInt8) (stop least unit : ℕ) (s : WalkState) : Option (Option WalkState) :=
  if stop < s.offset + 8 then some none
  else do
    let length ← packet[s.offset + 1]?
    let headerByteCount := (length.toNat + least) * unit
    if stop < s.offset + headerByteCount then some none
    else
      let nextHeader ← packet[s.offset]?
      some (some { s with
        nextHeader
        nextHeaderFieldOffset := s.offset
        offset := s.offset + headerByteCount })

def readFragmentHeader (packet : List UInt8) (s : WalkState) : Option FragmentInfo := do
  let offsetAndFlags ← (slice? packet (s.offset + 2) (s.offset + 4)).map ofBigEndian
  let nextHeader ← packet[s.offset]?
  let identification ← (slice? packet (s.offset + 4) (s.offset + 8)).map ofBigEndian
  some
    { headerOffset := s.offset
      precedingNextHeaderFieldOffset := s.nextHeaderFieldOffset
      nextHeader
      offset := offsetAndFlags / 8 * 8
      moreFragments := offsetAndFlags % 2 = 1
      identification }

/-- The loop over the headers; the inner `none` is a walk that is not ok. -/
def walkFrom (packet : List UInt8) (stop : ℕ) : ℕ → WalkState → Option (Option HeaderWalk)
  | 0, _ => some none
  | count + 1, s =>
    if s.nextHeader ∈ optionHeaders then do
      match ← stepOver packet stop 1 8 s with
      | none => some none
      | some s => walkFrom packet stop count s
    else if s.nextHeader = nextHeaderAuthentication then do
      match ← stepOver packet stop 2 4 s with
      | none => some none
      | some s => walkFrom packet stop count s
    else if s.nextHeader = nextHeaderFragment then
      if stop < s.offset + fragmentHeaderSize ∨ s.fragment.isSome then some none
      else do
        let info ← readFragmentHeader packet s
        let transportOffset := s.offset + fragmentHeaderSize
        if info.offset ≠ 0 ∨ info.moreFragments then
          some (some ⟨info.nextHeader, transportOffset, stop, some info, true⟩)
        else
          walkFrom packet stop count ⟨info.nextHeader, transportOffset, s.offset, some info⟩
    else some (some ⟨s.nextHeader, s.offset, stop, s.fragment, false⟩)

def walkIpv6ExtensionHeaders (packet : List UInt8) : Option (Option HeaderWalk) :=
  if packet.length < headerSize then some none
  else do
    let version ← packet[0]?
    if version.toNat / 16 ≠ 6 then some none
    else
      let payloadByteCount ← (slice? packet 4 6).map ofBigEndian
      let stop := headerSize + payloadByteCount
      if packet.length < stop then some none
      else
        let nextHeader ← packet[6]?
        walkFrom packet stop maxExtensionHeaderCount ⟨nextHeader, headerSize, 6, none⟩

def ipv6TransportOffset (packet : List UInt8) : Option (Option (UInt8 × ℕ × ℕ)) :=
  if packet.length < headerSize then some none
  else do
    let version ← packet[0]?
    if version.toNat / 16 ≠ 6 then some none
    else
      let nextHeader ← packet[6]?
      if isIpv6ExtensionHeader nextHeader = false then
        let payloadByteCount ← (slice? packet 4 6).map ofBigEndian
        let payloadEnd := headerSize + payloadByteCount
        if packet.length < payloadEnd then some none else some (some (nextHeader, headerSize, payloadEnd))
      else
        match ← walkIpv6ExtensionHeaders packet with
        | none => some none
        | some walk =>
          if walk.fragmented then some none
          else some (some (walk.nextHeader, walk.transportOffset, walk.payloadEnd))

def isIpv6FragmentPacket (packet : List UInt8) : Option Bool :=
  if packet.length < headerSize then some false
  else do
    let version ← packet[0]?
    if version.toNat / 16 ≠ 6 then some false
    else
      let nextHeader ← packet[6]?
      if isIpv6ExtensionHeader nextHeader = false then some false
      else (← walkIpv6ExtensionHeaders packet).elim (some false) fun walk => some walk.fragmented

structure FragmentInfo.Placed (packet : List UInt8) (transportOffset : ℕ) (info : FragmentInfo) : Prop where
  start : headerSize ≤ info.headerOffset
  room : info.headerOffset + fragmentHeaderSize ≤ transportOffset
  before : info.precedingNextHeaderFieldOffset < info.headerOffset
  field : packet[info.precedingNextHeaderFieldOffset]? = some nextHeaderFragment
  next : packet[info.headerOffset]? = some info.nextHeader

def FragmentInfo.piece (info : FragmentInfo) : Bool := info.offset ≠ 0 ∨ info.moreFragments

structure WalkState.Placed (packet : List UInt8) (stop : ℕ) (s : WalkState) : Prop where
  start : headerSize ≤ s.offset
  room : s.offset ≤ stop
  before : s.nextHeaderFieldOffset < s.offset
  field : packet[s.nextHeaderFieldOffset]? = some s.nextHeader
  fragment : ∀ info ∈ s.fragment, info.Placed packet s.offset ∧ info.piece = false

structure HeaderWalk.Sound (packet : List UInt8) (stop : ℕ) (walk : HeaderWalk) : Prop where
  payloadEnd : walk.payloadEnd = stop
  start : headerSize ≤ walk.transportOffset
  room : walk.transportOffset ≤ stop
  transport : walk.fragmented = false → isIpv6ExtensionHeader walk.nextHeader = false
  fragment : ∀ info ∈ walk.fragment, info.Placed packet walk.transportOffset
  fragmented : walk.fragmented = walk.fragment.any FragmentInfo.piece

variable {packet : List UInt8} {stop : ℕ} {s : WalkState}

lemma stepOver_spec {least unit : ℕ} (hleast : 0 < least * unit) (hstop : stop ≤ packet.length)
    (h : s.Placed packet stop) :
    ∃ next, stepOver packet stop least unit s = some next ∧ ∀ s' ∈ next, s'.Placed packet stop := by
  obtain ⟨hstart, hroom, hbefore, -, hfragment⟩ := h
  rw [stepOver]
  split
  · exact ⟨none, rfl, by simp⟩
  · have hlength : packet[s.offset + 1]? = _ := List.getElem?_eq_getElem (by omega)
    have hnext : packet[s.offset]? = _ := List.getElem?_eq_getElem (by omega)
    simp only [hlength, hnext, Option.bind_eq_bind, Option.bind_some]
    split
    · exact ⟨none, rfl, by simp⟩
    · refine ⟨_, rfl, ?_⟩
      rintro s' ⟨⟩
      have hgrows : least * unit ≤ ((packet[s.offset + 1]).toNat + least) * unit :=
        Nat.mul_le_mul_right unit (Nat.le_add_left _ _)
      refine ⟨?_, ?_, ?_, hnext, fun info hinfo => ?_⟩
      any_goals dsimp only; omega
      obtain ⟨hplaced, hwhole⟩ := hfragment info hinfo
      exact ⟨{ hplaced with room := hplaced.room.trans (Nat.le_add_right _ _) }, hwhole⟩

lemma readFragmentHeader_spec (hstop : stop ≤ packet.length) (h : s.Placed packet stop)
    (hroom : s.offset + fragmentHeaderSize ≤ stop) (hnext : s.nextHeader = nextHeaderFragment) :
    ∃ info, readFragmentHeader packet s = some info ∧ info.Placed packet (s.offset + fragmentHeaderSize) ∧
      packet[s.offset]? = some info.nextHeader := by
  have hin : s.offset + 8 ≤ stop := hroom
  have hflags : slice? packet (s.offset + 2) (s.offset + 4) = _ := slice?_of_le (by omega) (by omega)
  have hbyte : packet[s.offset]? = _ := List.getElem?_eq_getElem (by omega)
  have hidentification : slice? packet (s.offset + 4) (s.offset + 8) = _ := slice?_of_le (by omega) (by omega)
  simp only [readFragmentHeader, hflags, hbyte, hidentification, Option.bind_eq_bind, Option.bind_some,
    Option.map_some]
  exact ⟨_, rfl, ⟨h.start, le_rfl, h.before, hnext ▸ h.field, hbyte⟩, rfl⟩

lemma walkFrom_spec (count : ℕ) (hstop : stop ≤ packet.length) (h : s.Placed packet stop) :
    ∃ result, walkFrom packet stop count s = some result ∧ ∀ walk ∈ result, walk.Sound packet stop := by
  induction count generalizing s with
  | zero => exact ⟨none, rfl, by simp⟩
  | succ count ih =>
    -- both layouts of a header that is stepped over go on from the state behind it
    have hover : ∀ least unit, 0 < least * unit →
        ∃ result, (do
            match ← stepOver packet stop least unit s with
            | none => some none
            | some s => walkFrom packet stop count s) = some result ∧
          ∀ walk ∈ result, walk.Sound packet stop := by
      intro least unit hleast
      obtain ⟨next, hstep, hplaced⟩ := stepOver_spec hleast hstop h
      rw [hstep]
      cases next with
      | none => exact ⟨none, rfl, by simp⟩
      | some s' => exact ih (hplaced s' rfl)
    rw [walkFrom]
    by_cases hoption : s.nextHeader ∈ optionHeaders
    · rw [if_pos hoption]
      exact hover 1 8 (by decide)
    rw [if_neg hoption]
    by_cases hauthentication : s.nextHeader = nextHeaderAuthentication
    · rw [if_pos hauthentication]
      exact hover 2 4 (by decide)
    rw [if_neg hauthentication]
    by_cases hfragment : s.nextHeader = nextHeaderFragment
    · rw [if_pos hfragment]
      split
      · exact ⟨none, rfl, by simp⟩
      · rename_i hroom
        obtain ⟨hroom, hfirst⟩ := not_or.mp hroom
        obtain ⟨info, hinfo, hplaced, hnext⟩ := readFragmentHeader_spec hstop h (not_lt.mp hroom) hfragment
        have hstart : headerSize ≤ s.offset + fragmentHeaderSize := h.start.trans (Nat.le_add_right _ _)
        rw [hinfo, Option.bind_eq_bind, Option.bind_some]
        dsimp only
        split
        · rename_i hpiece
          refine ⟨_, rfl, ?_⟩
          rintro walk ⟨⟩
          exact ⟨rfl, hstart, not_lt.mp hroom, by simp, by simpa using hplaced, by simpa [FragmentInfo.piece] using hpiece⟩
        · rename_i hwhole
          refine ih ⟨hstart, not_lt.mp hroom, Nat.lt_add_of_pos_right (by decide), hnext, ?_⟩
          rintro info' ⟨⟩
          exact ⟨hplaced, decide_eq_false hwhole⟩
    · rw [if_neg hfragment]
      refine ⟨_, rfl, ?_⟩
      rintro walk ⟨⟩
      refine ⟨rfl, h.start, h.room, fun _ => decide_eq_false ?_, fun info hinfo => (h.fragment info hinfo).1, ?_⟩
      · rintro (hin | hin | hin)
        · exact hoption hin
        · exact hfragment hin
        · exact hauthentication hin
      · cases hinfo : s.fragment with
        | none => rfl
        | some info => exact (h.fragment info hinfo).2.symm

lemma base_reads (h : ¬ packet.length < headerSize) : ∃ version nextHeader payload, packet[0]? = some version ∧
    packet[6]? = some nextHeader ∧ (slice? packet 4 6).map ofBigEndian = some payload := by
  have hmin : 40 ≤ packet.length := not_lt.mp h
  rw [slice?_of_le (by decide) (by omega)]
  exact ⟨_, _, _, List.getElem?_eq_getElem (by omega), List.getElem?_eq_getElem (by omega), rfl⟩

/-- No read of the walk leaves the packet, and what it accepts lies within the declared payload. -/
theorem walk_stays_in_packet (packet : List UInt8) :
    ∃ result, walkIpv6ExtensionHeaders packet = some result ∧ ∀ walk ∈ result, ∃ payload,
      (slice? packet 4 6).map ofBigEndian = some payload ∧ headerSize + payload ≤ packet.length ∧
        walk.Sound packet (headerSize + payload) := by
  rw [walkIpv6ExtensionHeaders]
  split
  · exact ⟨none, rfl, by simp⟩
  · rename_i hshort
    obtain ⟨version, nextHeader, payload, hversion, hnext, hpayload⟩ := base_reads hshort
    simp only [hversion, hnext, hpayload, Option.bind_eq_bind, Option.bind_some]
    split
    · exact ⟨none, rfl, by simp⟩
    split
    · exact ⟨none, rfl, by simp⟩
    · rename_i hstop
      obtain ⟨result, hresult, hsound⟩ := walkFrom_spec (s := ⟨nextHeader, headerSize, 6, none⟩)
        maxExtensionHeaderCount (not_lt.mp hstop)
        ⟨le_rfl, Nat.le_add_right _ _, Nat.le_of_ble_eq_true rfl, hnext, by simp⟩
      exact ⟨result, hresult, fun walk hwalk => ⟨_, rfl, not_lt.mp hstop, hsound walk hwalk⟩⟩

lemma walkFrom_transport (count : ℕ) (h : isIpv6ExtensionHeader s.nextHeader = false) :
    walkFrom packet stop (count + 1) s = some (some ⟨s.nextHeader, s.offset, stop, s.fragment, false⟩) := by
  obtain ⟨hoption, hfragment, hauthentication⟩ : s.nextHeader ∉ optionHeaders ∧ s.nextHeader ≠ nextHeaderFragment ∧
      s.nextHeader ≠ nextHeaderAuthentication := by simpa [isIpv6ExtensionHeader] using h
  rw [walkFrom, if_neg hoption, if_neg hauthentication, if_neg hfragment]

end UrConnect.Ip.Ipv6
