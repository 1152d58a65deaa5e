import UrConnect.Lib.Runs
import UrConnect.Lib.Word

/-! The flight controller of a send sequence: what is on unreliable carriers without an answer,
and the limits that delivery raises and loss lowers. -/

namespace UrConnect.Transfer.Flight

open Lib Lib.Runs Lib.SignedWord

structure Settings where
  unreliableInitialFlightByteCount : Int64
  unreliableMinimumFlightByteCount : Int64
  unreliableMaximumFlightByteCount : Int64
  unreliableFlightIncreaseByteCount : Int64
  unreliableSlowStartGrowthDivisor : Int64
  unreliableInitialFlightMessageCount : Int64
  unreliableMinimumFlightMessageCount : Int64
  unreliableMaximumFlightMessageCount : Int64
  unreliableFlightIncreaseMessageCount : Int64

structure Policy where
  generation : UInt64
  limited : Bool
  byteLimit : Int64
  messageLimit : Int64
  flowReserve : Bool
  reliableRouteAvailable : Bool

structure SchedulingKey where
  valid : Bool
deriving DecidableEq

structure Controller where
  initialByteCount : Int64
  minimumByteCount : Int64
  maximumByteCount : Int64
  increaseByteCount : Int64
  initialMessageCount : Int64
  minimumMessageCount : Int64
  maximumMessageCount : Int64
  increaseMessageCount : Int64
  slowStartDivisor : Int64
  activeMinimumByteCount : Int64
  activeMaximumByteCount : Int64
  policyByteLimit : Int64
  activeMinimumMessageCount : Int64
  activeMaximumMessageCount : Int64
  policyMessageLimit : Int64
  flowReserveEnabled : Bool
  generation : UInt64
  limited : Bool
  slowStart : Bool
  byteCount : Int64
  byteLimit : Int64
  messageCount : Int64
  messageLimit : Int64
  messageCountByKey : SchedulingKey → Int64
  flowReserveInUse : Bool
  additiveIncreaseRemainder : Int64
  slowStartIncreaseRemainder : Int64
  additiveMessageRemainder : Int64
  slowStartMessageRemainder : Int64

def Controller.inert : Controller :=
  { initialByteCount := 0, minimumByteCount := 0, maximumByteCount := 0, increaseByteCount := 0,
    initialMessageCount := 0, minimumMessageCount := 0, maximumMessageCount := 0,
    increaseMessageCount := 0, slowStartDivisor := 0, activeMinimumByteCount := 0,
    activeMaximumByteCount := 0, policyByteLimit := 0, activeMinimumMessageCount := 0,
    activeMaximumMessageCount := 0, policyMessageLimit := 0, flowReserveEnabled := false,
    generation := 0, limited := false, slowStart := false, byteCount := 0, byteLimit := 0,
    messageCount := 0, messageLimit := 0, messageCountByKey := fun _ => 0,
    flowReserveInUse := false, additiveIncreaseRemainder := 0, slowStartIncreaseRemainder := 0,
    additiveMessageRemainder := 0, slowStartMessageRemainder := 0 }

def floorOf (initial minimum : Int64) : Int64 := if minimum ≤ 0 then initial else minimum

def ceilingOf (minimum maximum : Int64) : Int64 := if maximum < minimum then minimum else maximum

def atLeastOne (n : Int64) : Int64 := if n ≤ 0 then 1 else n

/-- The message settings are put in order only when a message limit is set. -/
def newSendFlightController (settings : Option Settings) : Controller :=
  match settings with
  | none => .inert
  | some s =>
    if s.unreliableInitialFlightByteCount ≤ 0 then .inert
    else
      let minimumByteCount :=
        floorOf s.unreliableInitialFlightByteCount s.unreliableMinimumFlightByteCount
      let maximumByteCount := ceilingOf minimumByteCount s.unreliableMaximumFlightByteCount
      let base : Controller := { Controller.inert with
        initialByteCount :=
          min (max s.unreliableInitialFlightByteCount minimumByteCount) maximumByteCount
        minimumByteCount := minimumByteCount
        maximumByteCount := maximumByteCount
        increaseByteCount := atLeastOne s.unreliableFlightIncreaseByteCount
        slowStartDivisor := atLeastOne s.unreliableSlowStartGrowthDivisor }
      if 0 < s.unreliableInitialFlightMessageCount then
        let minimumMessageCount :=
          floorOf s.unreliableInitialFlightMessageCount s.unreliableMinimumFlightMessageCount
        let maximumMessageCount :=
          ceilingOf minimumMessageCount s.unreliableMaximumFlightMessageCount
        { base with
          initialMessageCount :=
            min (max s.unreliableInitialFlightMessageCount minimumMessageCount) maximumMessageCount
          minimumMessageCount := minimumMessageCount
          maximumMessageCount := maximumMessageCount
          increaseMessageCount := atLeastOne s.unreliableFlightIncreaseMessageCount }
      else
        { base with
          initialMessageCount := s.unreliableInitialFlightMessageCount
          minimumMessageCount := s.unreliableMinimumFlightMessageCount
          maximumMessageCount := s.unreliableMaximumFlightMessageCount
          increaseMessageCount := s.unreliableFlightIncreaseMessageCount }

/-- The carried remainder, the new share and their whole quotient: the new limit and what is left;
`none` is a division by zero. -/
def grow (limit maximum remainder amount divisor : Int64) : Option (Int64 × Int64) :=
  if divisor = 0 then none
  else some (min maximum (limit + (remainder + amount) / divisor), (remainder + amount) % divisor)

namespace Controller

def adopt (c : Controller) (policy : Policy) (limited : Bool) : Controller :=
  { c with
    generation := policy.generation
    limited := limited
    policyByteLimit := policy.byteLimit
    policyMessageLimit := policy.messageLimit
    flowReserveEnabled := policy.flowReserve
    additiveIncreaseRemainder := 0
    slowStartIncreaseRemainder := 0
    additiveMessageRemainder := 0
    slowStartMessageRemainder := 0 }

def restart (c : Controller) (policy : Policy) : Controller :=
  let activeMaximumByteCount :=
    if 0 < policy.byteLimit then min c.maximumByteCount policy.byteLimit else c.maximumByteCount
  let activeMinimumByteCount := min c.minimumByteCount activeMaximumByteCount
  let capped : Bool := 0 < policy.messageLimit ∧ 0 < c.initialMessageCount
  let activeMaximumMessageCount :=
    if capped then min c.maximumMessageCount policy.messageLimit else c.maximumMessageCount
  let activeMinimumMessageCount :=
    if capped then min c.minimumMessageCount activeMaximumMessageCount else c.minimumMessageCount
  { c with
    activeMaximumByteCount := activeMaximumByteCount
    activeMinimumByteCount := activeMinimumByteCount
    byteLimit := min (max c.initialByteCount activeMinimumByteCount) activeMaximumByteCount
    activeMaximumMessageCount := activeMaximumMessageCount
    activeMinimumMessageCount := activeMinimumMessageCount
    messageLimit :=
      min (max c.initialMessageCount activeMinimumMessageCount) activeMaximumMessageCount
    slowStart := true }

def lift (c : Controller) : Controller :=
  { c with
    byteLimit := 0
    activeMinimumByteCount := 0
    activeMaximumByteCount := 0
    messageLimit := 0
    activeMinimumMessageCount := 0
    activeMaximumMessageCount := 0
    slowStart := false }

def applyPolicy (c : Controller) (policy : Policy) : Controller :=
  let limited : Bool := policy.limited ∧ 0 < c.initialByteCount
  if c.generation = policy.generation ∧ c.limited = limited ∧
      c.policyByteLimit = policy.byteLimit ∧ c.policyMessageLimit = policy.messageLimit ∧
      c.flowReserveEnabled = policy.flowReserve then c
  else if limited then (c.adopt policy limited).restart policy
  else (c.adopt policy limited).lift

def reserves (c : Controller) (key : SchedulingKey) : Bool :=
  c.limited ∧ c.flowReserveEnabled ∧ key.valid ∧ ¬ c.flowReserveInUse ∧
    c.messageCountByKey key = 0 ∧
    (c.byteLimit ≤ c.byteCount ∨ 0 < c.messageLimit ∧ c.messageLimit ≤ c.messageCount)

def sendForKey (c : Controller) (byteCount : Int64) (key : SchedulingKey) : Bool × Controller :=
  let b := { c with flowReserveInUse := c.flowReserveInUse || c.reserves key }
  (c.reserves key,
    if 0 < byteCount then
      { b with
        byteCount := c.byteCount + byteCount
        messageCount := c.messageCount + 1
        messageCountByKey :=
          if key.valid then Function.update c.messageCountByKey key (c.messageCountByKey key + 1)
          else c.messageCountByKey }
    else b)

def uncount (c : Controller) (byteCount : Int64) (key : SchedulingKey) : Controller :=
  { c with
    byteCount := c.byteCount - min byteCount c.byteCount
    messageCount := if 0 < c.messageCount then c.messageCount - 1 else c.messageCount
    messageCountByKey :=
      if 0 < c.messageCount ∧ key.valid ∧ 0 < c.messageCountByKey key then
        Function.update c.messageCountByKey key (c.messageCountByKey key - 1)
      else c.messageCountByKey }

def unreserve (c : Controller) (reserved : Bool) : Controller :=
  { c with flowReserveInUse := c.flowReserveInUse && !reserved }

def slowStartBytes (c : Controller) (acknowledged : Int64) : Option Controller :=
  if 0 < acknowledged ∧ c.byteLimit < c.activeMaximumByteCount then
    (grow c.byteLimit c.activeMaximumByteCount c.slowStartIncreaseRemainder acknowledged
      c.slowStartDivisor).map fun (limit, remainder) =>
        { c with byteLimit := limit, slowStartIncreaseRemainder := remainder }
  else some c

def slowStartMessages (c : Controller) (acknowledged : Int64) : Option Controller :=
  if 0 < acknowledged ∧ c.messageLimit < c.activeMaximumMessageCount then
    (grow c.messageLimit c.activeMaximumMessageCount c.slowStartMessageRemainder acknowledged
      c.slowStartDivisor).map fun (limit, remainder) =>
        { c with messageLimit := limit, slowStartMessageRemainder := remainder }
  else some c

def additiveBytes (c : Controller) (acknowledged : Int64) : Option Controller :=
  if 0 < acknowledged ∧ c.byteLimit < c.activeMaximumByteCount then
    (grow c.byteLimit c.activeMaximumByteCount c.additiveIncreaseRemainder
      (c.increaseByteCount * acknowledged) c.byteLimit).map fun (limit, remainder) =>
        { c with byteLimit := limit, additiveIncreaseRemainder := remainder }
  else some c

def additiveMessages (c : Controller) (acknowledged : Int64) : Option Controller :=
  if 0 < acknowledged ∧ 0 < c.messageLimit ∧ c.messageLimit < c.activeMaximumMessageCount then
    (grow c.messageLimit c.activeMaximumMessageCount c.additiveMessageRemainder
      (c.increaseMessageCount * acknowledged) c.messageLimit).map fun (limit, remainder) =>
        { c with messageLimit := limit, additiveMessageRemainder := remainder }
  else some c

def credit (c : Controller) (bytes messages : Int64) : Option Controller :=
  if ¬ c.limited then some c
  else if c.slowStart then (c.slowStartBytes bytes).bind (·.slowStartMessages messages)
  else (c.additiveBytes bytes).bind (·.additiveMessages messages)

def acknowledgeForKey (c : Controller) (byteCount : Int64) (key : SchedulingKey)
    (reserved : Bool) : Option Controller :=
  if byteCount ≤ 0 then some (c.unreserve reserved)
  else ((c.unreserve reserved).uncount byteCount key).credit (min byteCount c.byteCount)
    (if 0 < c.messageCount then 1 else 0)

def reduceForLoss (c : Controller) : Bool × Controller :=
  if ¬ c.limited then (false, c)
  else
    let byteLimit := max c.activeMinimumByteCount (c.byteLimit / 2)
    let messageLimit := if 0 < c.messageLimit then
      max c.activeMinimumMessageCount (c.messageLimit / 2) else c.messageLimit
    (byteLimit < c.byteLimit ∨ messageLimit < c.messageLimit, { c with
      slowStart := false
      additiveIncreaseRemainder := 0
      slowStartIncreaseRemainder := 0
      additiveMessageRemainder := 0
      slowStartMessageRemainder := 0
      byteLimit := byteLimit
      messageLimit := messageLimit })

def forget (c : Controller) (byteCount : Int64) (key : SchedulingKey) (reserved : Bool) :
    Controller :=
  (c.uncount byteCount key).unreserve reserved

end Controller

inductive Event
  | applyPolicy (policy : Policy)
  | sendForKey (byteCount : Int64) (key : SchedulingKey)
  | acknowledgeForKey (byteCount : Int64) (key : SchedulingKey) (reserved : Bool)
  | forget (byteCount : Int64) (key : SchedulingKey) (reserved : Bool)
  | reduceForLoss

def Controller.step (c : Controller) : Event → Option Controller
  | .applyPolicy policy => some (c.applyPolicy policy)
  | .sendForKey byteCount key => some (c.sendForKey byteCount key).2
  | .acknowledgeForKey byteCount key reserved => c.acknowledgeForKey byteCount key reserved
  | .forget byteCount key reserved => some (c.forget byteCount key reserved)
  | .reduceForLoss => some c.reduceForLoss.2

end UrConnect.Transfer.Flight
