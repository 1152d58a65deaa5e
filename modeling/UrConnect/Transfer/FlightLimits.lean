import UrConnect.Transfer.Flight

/-! The limits of a flight controller stay in their range. The words are compared by their values;
a step that would leave their range is outside `Fits`. -/

namespace UrConnect.Transfer.Flight

open Lib Lib.Runs Lib.SignedWord

def Settings.Ordered (s : Settings) : Prop :=
  0 < s.unreliableInitialFlightMessageCount ∨
    s.unreliableMinimumFlightMessageCount ≤ s.unreliableMaximumFlightMessageCount ∧
      0 ≤ s.unreliableFlightIncreaseMessageCount

instance (s : Settings) : Decidable s.Ordered := inferInstanceAs (Decidable (_ ∨ _))

def Room (limit remainder : Int64) (amount : ℤ) : Prop :=
  remainder.toInt + amount < 2 ^ 63 ∧ limit.toInt + (remainder.toInt + amount) < 2 ^ 63

instance (limit remainder : Int64) (amount : ℤ) : Decidable (Room limit remainder amount) :=
  inferInstanceAs (Decidable (_ ∧ _))

lemma grow_spec {limit maximum remainder amount divisor : Int64} (hr : 0 ≤ remainder.toInt)
    (ha : 0 ≤ amount.toInt) (hd : 0 < divisor.toInt) (hl : limit.toInt < maximum.toInt)
    (hroom : Room limit remainder amount.toInt) :
    ∃ limit' remainder', grow limit maximum remainder amount divisor = some (limit', remainder') ∧
      limit.toInt ≤ limit'.toInt ∧ limit'.toInt ≤ maximum.toInt ∧ 0 ≤ remainder'.toInt := by
  obtain ⟨hsum, htotal⟩ := hroom
  have hmin := limit.le_toInt
  have hnum : (remainder + amount).toInt = remainder.toInt + amount.toInt :=
    toInt_add_of_range (by omega) hsum
  have hnonneg : 0 ≤ (remainder + amount).toInt := by omega
  have hq : ((remainder + amount) / divisor).toInt = (remainder + amount).toInt / divisor.toInt :=
    toInt_div_of_nonneg hnonneg hd
  have hq_nonneg : 0 ≤ (remainder + amount).toInt / divisor.toInt := Int.ediv_nonneg hnonneg hd.le
  have hq_le : (remainder + amount).toInt / divisor.toInt ≤ (remainder + amount).toInt :=
    Int.ediv_le_self _ hnonneg
  have hnew : (limit + (remainder + amount) / divisor).toInt =
      limit.toInt + (remainder + amount).toInt / divisor.toInt := by
    rw [← hq]
    apply toInt_add_of_range
    · omega
    · omega
  have hne : divisor ≠ 0 := by
    rintro rfl
    exact absurd hd (by decide)
  refine ⟨_, _, if_neg hne, ?_, ?_, ?_⟩
  · rw [toInt_min, hnew]
    omega
  · rw [toInt_min]
    omega
  · rw [toInt_mod_of_nonneg hnonneg]
    exact Int.emod_nonneg _ (by omega)

structure Controller.Sized (c : Controller) : Prop where
  minimum : 0 < c.minimumByteCount.toInt
  maximum : c.minimumByteCount.toInt ≤ c.maximumByteCount.toInt
  increase : 0 < c.increaseByteCount.toInt
  divisor : 0 < c.slowStartDivisor.toInt
  messages : c.minimumMessageCount.toInt ≤ c.maximumMessageCount.toInt
  increaseMessages : 0 ≤ c.increaseMessageCount.toInt

structure Controller.Within (c : Controller) : Prop where
  bytes_pos : 0 < c.activeMinimumByteCount.toInt
  bytes_min : c.activeMinimumByteCount.toInt ≤ c.byteLimit.toInt
  bytes_max : c.byteLimit.toInt ≤ c.activeMaximumByteCount.toInt
  messages_min : c.activeMinimumMessageCount.toInt ≤ c.messageLimit.toInt
  messages_max : c.messageLimit.toInt ≤ c.activeMaximumMessageCount.toInt
  slowBytes : 0 ≤ c.slowStartIncreaseRemainder.toInt
  slowMessages : 0 ≤ c.slowStartMessageRemainder.toInt
  addBytes : 0 ≤ c.additiveIncreaseRemainder.toInt
  addMessages : 0 ≤ c.additiveMessageRemainder.toInt

structure Controller.Bounded (c : Controller) : Prop where
  sized : 0 < c.initialByteCount → c.Sized
  limited : c.limited = true → 0 < c.initialByteCount ∧ c.Within
  byteCount : 0 ≤ c.byteCount.toInt
  messageCount : 0 ≤ c.messageCount.toInt

section settings

variable (n m : Int64)

lemma toInt_floorOf (h : 0 < n.toInt) : 0 < (floorOf n m).toInt := by
  unfold floorOf
  split
  · exact h
  · next hm =>
      rw [Int64.le_iff_toInt_le, Int.not_le] at hm
      exact hm

lemma toInt_ceilingOf : n.toInt ≤ (ceilingOf n m).toInt := by
  unfold ceilingOf
  split
  · exact le_refl _
  · next hm =>
      rw [Int64.lt_iff_toInt_lt, Int.not_lt] at hm
      exact hm

lemma toInt_atLeastOne : 0 < (atLeastOne n).toInt := by
  unfold atLeastOne
  split
  · decide
  · next hn =>
      rw [Int64.le_iff_toInt_le, Int.not_le] at hn
      exact hn

end settings

lemma Controller.inert_bounded : Controller.inert.Bounded :=
  ⟨fun h => absurd h (by decide), fun h => Bool.noConfusion h, le_refl _, le_refl _⟩

lemma newSendFlightController_bounded (settings : Option Settings)
    (hs : ∀ s ∈ settings, s.Ordered) : (newSendFlightController settings).Bounded := by
  cases settings with
  | none => exact Controller.inert_bounded
  | some s =>
      unfold newSendFlightController
      dsimp only
      split
      · exact Controller.inert_bounded
      · next hpos =>
          rw [Int64.le_iff_toInt_le, Int.not_le] at hpos
          have hmin := toInt_floorOf _ s.unreliableMinimumFlightByteCount hpos
          split
          · refine ⟨fun _ => ⟨hmin, toInt_ceilingOf _ _, toInt_atLeastOne _, toInt_atLeastOne _,
              toInt_ceilingOf _ _, (toInt_atLeastOne _).le⟩, ?_, le_refl _, le_refl _⟩
            exact fun h => Bool.noConfusion h
          · next hnot =>
              obtain ⟨hle, hinc⟩ := (hs s rfl).resolve_left hnot
              refine ⟨fun _ => ⟨hmin, toInt_ceilingOf _ _, toInt_atLeastOne _, toInt_atLeastOne _,
                Int64.le_iff_toInt_le.mp hle, Int64.le_iff_toInt_le.mp hinc⟩, ?_, le_refl _, le_refl _⟩
              exact fun h => Bool.noConfusion h

namespace Controller

variable {c : Controller} {byteCount : Int64} {key : SchedulingKey} {reserved : Bool}

lemma Sized.restart (h : c.Sized) (policy : Policy) (limited : Bool) :
    ((c.adopt policy limited).restart policy).Within := by
  have hmin := h.minimum
  have hmax := h.maximum
  have hmsg := h.messages
  refine ⟨?_, ?_, ?_, ?_, ?_, le_refl _, le_refl _, le_refl _, le_refl _⟩
  all_goals
    unfold Controller.restart Controller.adopt
    dsimp only
    simp only [toInt_min, toInt_max]
  · split
    · next hp =>
        rw [Int64.lt_iff_toInt_lt, Int64.toInt_zero] at hp
        rw [toInt_min]
        omega
    · omega
  · omega
  · omega
  · split
    · rw [toInt_min, toInt_min]
      omega
    · omega
  · omega

lemma Bounded.applyPolicy (h : c.Bounded) (policy : Policy) : (c.applyPolicy policy).Bounded := by
  unfold Controller.applyPolicy
  dsimp only
  split
  · exact h
  · split
    · next hlim =>
        have hinit := (of_decide_eq_true hlim).2
        have hsized := h.sized hinit
        exact ⟨fun _ => { hsized with }, fun _ => ⟨hinit, hsized.restart policy _⟩, h.byteCount,
          h.messageCount⟩
    · next hlim =>
        refine ⟨fun hinit => ?_, fun hl => absurd hl hlim, h.byteCount, h.messageCount⟩
        have hsized := h.sized hinit
        exact { hsized with }

lemma Bounded.counted (h : c.Bounded) {bytes messages : Int64} (hb : 0 ≤ bytes.toInt)
    (hm : 0 ≤ messages.toInt) (byKey : SchedulingKey → Int64) (inUse : Bool) :
    { c with
      byteCount := bytes
      messageCount := messages
      messageCountByKey := byKey
      flowReserveInUse := inUse }.Bounded := by
  refine ⟨fun hinit => ?_, fun hl => ?_, hb, hm⟩
  · have hsized := h.sized hinit
    exact { hsized with }
  · obtain ⟨hinit, hwithin⟩ := h.limited hl
    exact ⟨hinit, { hwithin with }⟩

lemma Bounded.sendForKey (h : c.Bounded)
    (hfit : 0 < byteCount → c.byteCount.toInt + byteCount.toInt < 2 ^ 63 ∧
      c.messageCount.toInt + 1 < 2 ^ 63) : (c.sendForKey byteCount key).2.Bounded := by
  have hb := h.byteCount
  have hm := h.messageCount
  unfold Controller.sendForKey
  dsimp only
  split
  · next hpos =>
      obtain ⟨hbytes, hmessages⟩ := hfit hpos
      rw [Int64.lt_iff_toInt_lt, Int64.toInt_zero] at hpos
      refine h.counted ?_ ?_ _ _
      · rw [toInt_add_of_range (by omega) hbytes]
        omega
      · have hone : (1 : Int64).toInt = 1 := by decide
        rw [toInt_add_of_range (by omega) (by omega)]
        omega
  · exact h.counted hb hm _ _

lemma toInt_uncount (key : SchedulingKey) (h : c.Bounded) (hfit : c.byteCount.toInt - byteCount.toInt < 2 ^ 63) :
    (c.uncount byteCount key).byteCount.toInt =
        c.byteCount.toInt - min byteCount.toInt c.byteCount.toInt ∧
      (c.uncount byteCount key).messageCount.toInt = max 0 (c.messageCount.toInt - 1) := by
  have hb := h.byteCount
  have hm := h.messageCount
  have hmax := c.byteCount.toInt_lt
  have hone : (1 : Int64).toInt = 1 := by decide
  unfold Controller.uncount
  dsimp only
  constructor
  · rw [toInt_sub_of_range, toInt_min]
    · rw [toInt_min]
      omega
    · rw [toInt_min]
      omega
  · split
    · next hpos =>
        have hmmax := c.messageCount.toInt_lt
        rw [Int64.lt_iff_toInt_lt, Int64.toInt_zero] at hpos
        rw [toInt_sub_of_range (by omega) (by omega)]
        omega
    · next hpos =>
        rw [Int64.lt_iff_toInt_lt, Int64.toInt_zero] at hpos
        omega

lemma Bounded.uncount (h : c.Bounded) (hfit : c.byteCount.toInt - byteCount.toInt < 2 ^ 63) :
    (c.uncount byteCount key).Bounded := by
  obtain ⟨hbytes, hmessages⟩ := toInt_uncount key h hfit
  have hb := h.byteCount
  apply h.counted
  · unfold Controller.uncount at hbytes
    dsimp only at hbytes
    rw [hbytes]
    omega
  · unfold Controller.uncount at hmessages
    dsimp only at hmessages
    rw [hmessages]
    omega

lemma Bounded.unreserve (h : c.Bounded) (reserved : Bool) : (c.unreserve reserved).Bounded :=
  h.counted h.byteCount h.messageCount _ _

lemma Bounded.forget (h : c.Bounded) (hfit : c.byteCount.toInt - byteCount.toInt < 2 ^ 63) :
    (c.forget byteCount key reserved).Bounded :=
  (h.uncount hfit).unreserve reserved

section credit

variable {d : Int64}

lemma Bounded.slowStartBytes (h : c.Bounded) (hl : c.limited = true) (hd : 0 ≤ d.toInt)
    (hroom : Room c.byteLimit c.slowStartIncreaseRemainder d.toInt) :
    ∃ limit remainder,
      c.slowStartBytes d =
        some { c with byteLimit := limit, slowStartIncreaseRemainder := remainder } ∧
      c.byteLimit.toInt ≤ limit.toInt ∧ limit.toInt ≤ c.activeMaximumByteCount.toInt ∧
      0 ≤ remainder.toInt := by
  obtain ⟨hinit, hw⟩ := h.limited hl
  unfold Controller.slowStartBytes
  split
  · next hc =>
      obtain ⟨limit, remainder, hgrow, hspec⟩ := grow_spec hw.slowBytes hd (h.sized hinit).divisor
        (Int64.lt_iff_toInt_lt.mp hc.2) hroom
      rw [hgrow]
      exact ⟨limit, remainder, rfl, hspec⟩
  · exact ⟨_, _, rfl, le_refl _, hw.bytes_max, hw.slowBytes⟩

lemma Bounded.slowStartMessages (h : c.Bounded) (hl : c.limited = true) (hd : 0 ≤ d.toInt)
    (hroom : Room c.messageLimit c.slowStartMessageRemainder d.toInt) :
    ∃ limit remainder,
      c.slowStartMessages d =
        some { c with messageLimit := limit, slowStartMessageRemainder := remainder } ∧
      c.messageLimit.toInt ≤ limit.toInt ∧ limit.toInt ≤ c.activeMaximumMessageCount.toInt ∧
      0 ≤ remainder.toInt := by
  obtain ⟨hinit, hw⟩ := h.limited hl
  unfold Controller.slowStartMessages
  split
  · next hc =>
      obtain ⟨limit, remainder, hgrow, hspec⟩ := grow_spec hw.slowMessages hd
        (h.sized hinit).divisor (Int64.lt_iff_toInt_lt.mp hc.2) hroom
      rw [hgrow]
      exact ⟨limit, remainder, rfl, hspec⟩
  · exact ⟨_, _, rfl, le_refl _, hw.messages_max, hw.slowMessages⟩

lemma toInt_share {quantum remainder : Int64} (hq : 0 ≤ quantum.toInt) (hd : 0 ≤ d.toInt)
    (hr : 0 ≤ remainder.toInt) (hfit : remainder.toInt + quantum.toInt * d.toInt < 2 ^ 63) :
    (quantum * d).toInt = quantum.toInt * d.toInt ∧ 0 ≤ quantum.toInt * d.toInt := by
  have hnonneg : 0 ≤ quantum.toInt * d.toInt := Int.mul_nonneg hq hd
  exact ⟨toInt_mul_of_range (by omega) (by omega), hnonneg⟩

lemma Bounded.additiveBytes (h : c.Bounded) (hl : c.limited = true) (hd : 0 ≤ d.toInt)
    (hroom : Room c.byteLimit c.additiveIncreaseRemainder
      (c.increaseByteCount.toInt * d.toInt)) :
    ∃ limit remainder,
      c.additiveBytes d =
        some { c with byteLimit := limit, additiveIncreaseRemainder := remainder } ∧
      c.byteLimit.toInt ≤ limit.toInt ∧ limit.toInt ≤ c.activeMaximumByteCount.toInt ∧
      0 ≤ remainder.toInt := by
  obtain ⟨hinit, hw⟩ := h.limited hl
  obtain ⟨hmul, hnonneg⟩ := toInt_share (h.sized hinit).increase.le hd hw.addBytes hroom.1
  unfold Controller.additiveBytes
  split
  · next hc =>
      rw [← hmul] at hroom hnonneg
      obtain ⟨limit, remainder, hgrow, hspec⟩ := grow_spec hw.addBytes hnonneg
        (hw.bytes_pos.trans_le hw.bytes_min) (Int64.lt_iff_toInt_lt.mp hc.2) hroom
      rw [hgrow]
      exact ⟨limit, remainder, rfl, hspec⟩
  · exact ⟨_, _, rfl, le_refl _, hw.bytes_max, hw.addBytes⟩

lemma Bounded.additiveMessages (h : c.Bounded) (hl : c.limited = true) (hd : 0 ≤ d.toInt)
    (hroom : Room c.messageLimit c.additiveMessageRemainder
      (c.increaseMessageCount.toInt * d.toInt)) :
    ∃ limit remainder,
      c.additiveMessages d =
        some { c with messageLimit := limit, additiveMessageRemainder := remainder } ∧
      c.messageLimit.toInt ≤ limit.toInt ∧ limit.toInt ≤ c.activeMaximumMessageCount.toInt ∧
      0 ≤ remainder.toInt := by
  obtain ⟨hinit, hw⟩ := h.limited hl
  obtain ⟨hmul, hnonneg⟩ := toInt_share (h.sized hinit).increaseMessages hd hw.addMessages hroom.1
  unfold Controller.additiveMessages
  split
  · next hc =>
      rw [← hmul] at hroom hnonneg
      obtain ⟨limit, remainder, hgrow, hspec⟩ := grow_spec hw.addMessages hnonneg
        (Int64.lt_iff_toInt_lt.mp hc.2.1) (Int64.lt_iff_toInt_lt.mp hc.2.2) hroom
      rw [hgrow]
      exact ⟨limit, remainder, rfl, hspec⟩
  · exact ⟨_, _, rfl, le_refl _, hw.messages_max, hw.addMessages⟩

def CreditFits (c : Controller) (bytes messages : ℤ) : Prop :=
  c.limited = true →
    if c.slowStart then
      Room c.byteLimit c.slowStartIncreaseRemainder bytes ∧
        Room c.messageLimit c.slowStartMessageRemainder messages
    else
      Room c.byteLimit c.additiveIncreaseRemainder (c.increaseByteCount.toInt * bytes) ∧
        Room c.messageLimit c.additiveMessageRemainder (c.increaseMessageCount.toInt * messages)

instance (bytes messages : ℤ) : Decidable (c.CreditFits bytes messages) := by
  unfold CreditFits
  infer_instance

structure Raised (c b : Controller) : Prop where
  bounded : b.Bounded
  byteCount : b.byteCount = c.byteCount
  messageCount : b.messageCount = c.messageCount
  inUse : b.flowReserveInUse = c.flowReserveInUse
  bytes : c.byteLimit.toInt ≤ b.byteLimit.toInt
  messages : c.messageLimit.toInt ≤ b.messageLimit.toInt

lemma Bounded.credit (h : c.Bounded) {m : Int64} (hd : 0 ≤ d.toInt) (hm : 0 ≤ m.toInt)
    (hfit : c.CreditFits d.toInt m.toInt) : ∃ b, c.credit d m = some b ∧ c.Raised b := by
  unfold Controller.credit
  split
  · exact ⟨c, rfl, h, rfl, rfl, rfl, le_refl _, le_refl _⟩
  · next hl =>
      rw [Bool.not_eq_true, Bool.not_eq_false] at hl
      obtain ⟨hinit, hw⟩ := h.limited hl
      have hsized := h.sized hinit
      have hroom := hfit hl
      have hmin := hw.bytes_min
      have hmmin := hw.messages_min
      split
      · next hslow =>
          rw [if_pos hslow] at hroom
          obtain ⟨limit, remainder, hbytes, hge, hle, hrem⟩ := h.slowStartBytes hl hd hroom.1
          have h' : { c with byteLimit := limit, slowStartIncreaseRemainder := remainder }.Bounded :=
            ⟨fun _ => { hsized with }, fun _ => ⟨hinit, { hw with
              bytes_min := hmin.trans hge, bytes_max := hle, slowBytes := hrem }⟩,
              h.byteCount, h.messageCount⟩
          obtain ⟨mlimit, mremainder, hmessages, hmge, hmle, hmrem⟩ :=
            h'.slowStartMessages hl hm hroom.2
          rw [hbytes, Option.bind_some, hmessages]
          obtain ⟨-, hw'⟩ := h'.limited hl
          exact ⟨_, rfl, ⟨fun _ => { hsized with }, fun _ => ⟨hinit, { hw' with
            messages_min := hmmin.trans hmge, messages_max := hmle, slowMessages := hmrem }⟩,
            h.byteCount, h.messageCount⟩, rfl, rfl, rfl, hge, hmge⟩
      · next hslow =>
          rw [if_neg hslow] at hroom
          obtain ⟨limit, remainder, hbytes, hge, hle, hrem⟩ := h.additiveBytes hl hd hroom.1
          have h' : { c with byteLimit := limit, additiveIncreaseRemainder := remainder }.Bounded :=
            ⟨fun _ => { hsized with }, fun _ => ⟨hinit, { hw with
              bytes_min := hmin.trans hge, bytes_max := hle, addBytes := hrem }⟩,
              h.byteCount, h.messageCount⟩
          obtain ⟨mlimit, mremainder, hmessages, hmge, hmle, hmrem⟩ :=
            h'.additiveMessages hl hm hroom.2
          rw [hbytes, Option.bind_some, hmessages]
          obtain ⟨-, hw'⟩ := h'.limited hl
          exact ⟨_, rfl, ⟨fun _ => { hsized with }, fun _ => ⟨hinit, { hw' with
            messages_min := hmmin.trans hmge, messages_max := hmle, addMessages := hmrem }⟩,
            h.byteCount, h.messageCount⟩, rfl, rfl, rfl, hge, hmge⟩

end credit

lemma Bounded.acknowledgeForKey (h : c.Bounded) (key : SchedulingKey) (reserved : Bool)
    (hfit : c.CreditFits (min byteCount c.byteCount).toInt
      (if 0 < c.messageCount then 1 else 0 : Int64).toInt) :
    ∃ b, c.acknowledgeForKey byteCount key reserved = some b ∧ b.Bounded ∧
      c.byteLimit.toInt ≤ b.byteLimit.toInt ∧ c.messageLimit.toInt ≤ b.messageLimit.toInt := by
  unfold Controller.acknowledgeForKey
  split
  · exact ⟨_, rfl, h.unreserve reserved, le_refl _, le_refl _⟩
  · next hpos =>
      rw [Int64.le_iff_toInt_le, Int.not_le, Int64.toInt_zero] at hpos
      have hb := h.byteCount
      have hmax := c.byteCount.toInt_lt
      have hcounted : ((c.unreserve reserved).uncount byteCount key).Bounded :=
        (h.unreserve reserved).uncount (by change c.byteCount.toInt - _ < _; omega)
      have hamount : 0 ≤ (min byteCount c.byteCount).toInt := by
        rw [toInt_min]
        omega
      have hmsg : 0 ≤ (if 0 < c.messageCount then 1 else 0 : Int64).toInt := by
        split
        · decide
        · decide
      obtain ⟨b, hb, hraised⟩ := hcounted.credit hamount hmsg hfit
      exact ⟨b, hb, hraised.bounded, hraised.bytes, hraised.messages⟩

lemma toInt_half {n : Int64} (h : 0 < n.toInt) : (n / 2).toInt = n.toInt / 2 :=
  toInt_div_of_nonneg h.le (by decide)

lemma Bounded.reduceForLoss (h : c.Bounded) : c.reduceForLoss.2.Bounded ∧
    c.reduceForLoss.2.byteLimit.toInt ≤ c.byteLimit.toInt ∧
    c.reduceForLoss.2.messageLimit.toInt ≤ c.messageLimit.toInt := by
  unfold Controller.reduceForLoss
  split
  · exact ⟨h, le_refl _, le_refl _⟩
  · next hl =>
      rw [Bool.not_eq_true, Bool.not_eq_false] at hl
      obtain ⟨hinit, hw⟩ := h.limited hl
      have hsized := h.sized hinit
      have hpos := hw.bytes_pos
      have hmin := hw.bytes_min
      have hmax := hw.bytes_max
      have hbytes : c.activeMinimumByteCount.toInt ≤
            (max c.activeMinimumByteCount (c.byteLimit / 2)).toInt ∧
          (max c.activeMinimumByteCount (c.byteLimit / 2)).toInt ≤ c.byteLimit.toInt := by
        rw [toInt_max, toInt_half (by omega)]
        omega
      have hmessages : c.activeMinimumMessageCount.toInt ≤
            (if 0 < c.messageLimit then max c.activeMinimumMessageCount (c.messageLimit / 2)
              else c.messageLimit).toInt ∧
          (if 0 < c.messageLimit then max c.activeMinimumMessageCount (c.messageLimit / 2)
              else c.messageLimit).toInt ≤ c.messageLimit.toInt := by
        have hmmin := hw.messages_min
        split
        · next hm =>
            rw [Int64.lt_iff_toInt_lt, Int64.toInt_zero] at hm
            rw [toInt_max, toInt_half hm]
            omega
        · exact ⟨hmmin, le_refl _⟩
      dsimp only
      exact ⟨⟨fun _ => { hsized with }, fun _ => ⟨hinit, hpos, hbytes.1, hbytes.2.trans hmax,
        hmessages.1, hmessages.2.trans hw.messages_max, le_refl _, le_refl _, le_refl _, le_refl _⟩,
        h.byteCount, h.messageCount⟩, hbytes.2, hmessages.2⟩

def Fits (c : Controller) : Event → Prop
  | .sendForKey byteCount _ =>
    0 < byteCount → c.byteCount.toInt + byteCount.toInt < 2 ^ 63 ∧ c.messageCount.toInt + 1 < 2 ^ 63
  | .acknowledgeForKey byteCount _ _ =>
    c.CreditFits (min byteCount c.byteCount).toInt
      (if 0 < c.messageCount then 1 else 0 : Int64).toInt
  | .forget byteCount _ _ => c.byteCount.toInt - byteCount.toInt < 2 ^ 63
  | .applyPolicy _ | .reduceForLoss => True

instance : (e : Event) → Decidable (c.Fits e)
  | .sendForKey .. => inferInstanceAs (Decidable (_ → _ ∧ _))
  | .acknowledgeForKey .. => inferInstanceAs (Decidable (CreditFits _ _ _))
  | .forget .. => inferInstanceAs (Decidable (_ < _))
  | .applyPolicy _ => inferInstanceAs (Decidable True)
  | .reduceForLoss => inferInstanceAs (Decidable True)

lemma Bounded.stepped (h : c.Bounded) {e : Event} (hfit : c.Fits e) :
    ∃ b, c.step e = some b ∧ b.Bounded := by
  cases e with
  | applyPolicy policy => exact ⟨_, rfl, h.applyPolicy policy⟩
  | sendForKey byteCount key => exact ⟨_, rfl, h.sendForKey hfit⟩
  | acknowledgeForKey byteCount key reserved =>
      obtain ⟨b, hb, hbounded, -, -⟩ := h.acknowledgeForKey key reserved hfit
      exact ⟨b, hb, hbounded⟩
  | forget byteCount key reserved => exact ⟨_, rfl, h.forget hfit⟩
  | reduceForLoss => exact ⟨_, rfl, h.reduceForLoss.1⟩

end Controller

/-- With message settings in order, a run whose words stay in range divides by zero nowhere; in
every state of it the limits of a limited controller are in their ranges, no count is negative, a
loss raises no limit, and an acknowledgement lowers none. -/
theorem flight_limits_bounded (settings : Option Settings) (hs : ∀ s ∈ settings, s.Ordered)
    (es : List Event)
    (hfit : MeetsM Controller.Fits Controller.step (newSendFlightController settings) es) :
    ∃ c, es.foldlM Controller.step (newSendFlightController settings) = some c ∧
      (c.limited = true →
        0 < c.activeMinimumByteCount ∧ c.activeMinimumByteCount ≤ c.byteLimit ∧
        c.byteLimit ≤ c.activeMaximumByteCount ∧
        c.activeMinimumMessageCount ≤ c.messageLimit ∧
        c.messageLimit ≤ c.activeMaximumMessageCount) ∧
      0 ≤ c.byteCount ∧ 0 ≤ c.messageCount ∧
      (c.reduceForLoss.2.byteLimit ≤ c.byteLimit ∧
        c.reduceForLoss.2.messageLimit ≤ c.messageLimit) ∧
      ∀ byteCount key reserved, c.Fits (.acknowledgeForKey byteCount key reserved) →
        ∃ b, c.acknowledgeForKey byteCount key reserved = some b ∧ c.byteLimit ≤ b.byteLimit ∧
          c.messageLimit ≤ b.messageLimit := by
  obtain ⟨c, hrun, h⟩ := foldlM_meets (fun c e h hfit => Controller.Bounded.stepped h hfit)
    (newSendFlightController_bounded settings hs) hfit
  simp only [Int64.le_iff_toInt_le, Int64.lt_iff_toInt_lt, Int64.toInt_zero]
  refine ⟨c, hrun, fun hl => ?_, h.byteCount, h.messageCount, h.reduceForLoss.2,
    fun byteCount key reserved hack => ?_⟩
  · have hw := (h.limited hl).2
    exact ⟨hw.bytes_pos, hw.bytes_min, hw.bytes_max, hw.messages_min, hw.messages_max⟩
  · obtain ⟨b, hb, -, hbytes, hmessages⟩ := h.acknowledgeForKey key reserved hack
    exact ⟨b, hb, hbytes, hmessages⟩

def sampleSettings : Settings := ⟨1024, 512, 4096, 100, 4, 8, 4, 32, 1⟩

def sampleKey : SchedulingKey := ⟨false⟩

def sampleEvents : List Event :=
  [.applyPolicy ⟨1, true, 0, 16, false, false⟩, .sendForKey 600 sampleKey, .sendForKey 500 sampleKey,
    .acknowledgeForKey 600 sampleKey false, .reduceForLoss, .acknowledgeForKey 500 sampleKey false]

theorem flight_limits_bounded_loss :
    ∃ c, sampleEvents.foldlM Controller.step (newSendFlightController (some sampleSettings)) =
        some c ∧ 0 ≤ c.byteCount ∧ c.limited = true ∧ c.byteLimit ≤ c.activeMaximumByteCount := by
  obtain ⟨c, hrun, hlimits, hcount, -⟩ := flight_limits_bounded (some sampleSettings)
    (by rintro s ⟨⟩; decide) sampleEvents (by decide +kernel)
  have hlimited : (sampleEvents.foldlM Controller.step
    (newSendFlightController (some sampleSettings))).map (·.limited) = some true := by decide +kernel
  rw [hrun] at hlimited
  have hl : c.limited = true := Option.some.inj hlimited
  exact ⟨c, hrun, hcount, hl, (hlimits hl).2.2.1⟩

theorem flight_loss_raises_limit :
    ((newSendFlightController (some ⟨1024, 512, 4096, 100, 4, 0, 5, 3, 1⟩)).applyPolicy
      ⟨1, true, 0, 0, false, false⟩).limited = true ∧
    ((newSendFlightController (some ⟨1024, 512, 4096, 100, 4, 0, 5, 3, 1⟩)).applyPolicy
      ⟨1, true, 0, 0, false, false⟩).messageLimit = 3 ∧
    ((newSendFlightController (some ⟨1024, 512, 4096, 100, 4, 0, 5, 3, 1⟩)).applyPolicy
      ⟨1, true, 0, 0, false, false⟩).activeMinimumMessageCount = 5 ∧
    ((newSendFlightController (some ⟨1024, 512, 4096, 100, 4, 0, 5, 3, 1⟩)).applyPolicy
      ⟨1, true, 0, 0, false, false⟩).reduceForLoss.2.messageLimit = 5 := by
  decide +kernel

end UrConnect.Transfer.Flight
