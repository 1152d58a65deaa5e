import Mathlib.Data.List.Perm.Basic
import Mathlib.Logic.Function.Basic
import UrConnect.Lib.Table

/-! The routes of a selector, and the sections of a write that runs between changes of the routes. -/

namespace UrConnect.Transfer.Route

open UrConnect.Lib

inductive TransportType
  | unknown
  | h3
  | h1
  | h3Dns
  | h3DnsPump
  | p2p
deriving DecidableEq

structure Transport (τ : Type) where
  key : τ
  transportType : Option TransportType
deriving DecidableEq

structure TransferCarrierProperties where
  unreliable : Bool
deriving DecidableEq

structure TransferWriteDisposition (ρ : Type) where
  transportType : TransportType
  unreliable : Bool
  reliable : Bool
  route : ρ
deriving DecidableEq

/-- `updates` counts the changes that were announced to the waiting writes. -/
structure MultiRouteSelector (τ ρ : Type) where
  transportRoutes : Table (Transport τ) (List ρ)
  routeActive : Table ρ Bool
  routeCarrierProperties : Table ρ TransferCarrierProperties
  routeTransportTypes : Table ρ TransportType
  updates : ℕ

variable {κ τ ρ : Type}

namespace MultiRouteSelector

def new : MultiRouteSelector τ ρ := ⟨∅, ∅, ∅, ∅, 0⟩

variable [DecidableEq ρ]

def unreliableForRoute (s : MultiRouteSelector τ ρ) (route : ρ) : Bool :=
  ((s.routeCarrierProperties.lookup route).map TransferCarrierProperties.unreliable).getD false

def dispositionForRoute (s : MultiRouteSelector τ ρ) (route : ρ) : TransferWriteDisposition ρ where
  transportType := (s.routeTransportTypes.lookup route).getD .unknown
  unreliable := s.unreliableForRoute route
  reliable := !s.unreliableForRoute route
  route := route

def active (s : MultiRouteSelector τ ρ) (route : ρ) : Bool := (s.routeActive.lookup route).getD false

def activeRoutes (s : MultiRouteSelector τ ρ) : List ρ :=
  (s.transportRoutes.entries.flatMap Sigma.snd).filter fun route => s.active route

def setActive (s : MultiRouteSelector τ ρ) (route : ρ) (active : Bool) : MultiRouteSelector τ ρ :=
  { s with routeActive := s.routeActive.modify route fun _ => active }

def delete (s : MultiRouteSelector τ ρ) (routes : List ρ) : MultiRouteSelector τ ρ :=
  { s with
    routeActive := routes.foldl (fun m route => m.erase route) s.routeActive
    routeCarrierProperties := routes.foldl (fun m route => m.erase route) s.routeCarrierProperties
    routeTransportTypes := routes.foldl (fun m route => m.erase route) s.routeTransportTypes }

variable [DecidableEq τ]

def currentRoutes (s : MultiRouteSelector τ ρ) (transport : Transport τ) : List ρ :=
  (s.transportRoutes.lookup transport).getD []

def register (s : MultiRouteSelector τ ρ) (transport : Transport τ) (routes : List ρ)
    (properties : TransferCarrierProperties) : MultiRouteSelector τ ρ :=
  let current := s.currentRoutes transport
  let kept := s.delete (current.filter fun route => route ∉ routes)
  { kept with
    transportRoutes := s.transportRoutes.insert transport routes
    routeActive := (routes.filter fun route => route ∉ current).foldl (fun m route => m.insert route true)
      kept.routeActive
    routeCarrierProperties := routes.foldl (fun m route => m.insert route properties) kept.routeCarrierProperties
    routeTransportTypes := routes.foldl (fun m route => m.insert route (transport.transportType.getD .unknown))
      kept.routeTransportTypes
    updates := s.updates + 1 }

def updateTransportWithProperties (s : MultiRouteSelector τ ρ) (transport : Transport τ) (routes : List ρ)
    (properties : TransferCarrierProperties) : MultiRouteSelector τ ρ :=
  if routes = [] then
    match s.transportRoutes.lookup transport with
    | none => s
    | some current =>
      { s.delete current with
        transportRoutes := s.transportRoutes.erase transport
        updates := s.updates + 1 }
  else s.register transport routes properties

end MultiRouteSelector

/-- How far a write has come; each section of it ends where another goroutine may take the lock. `notify` is the
number of updates when the round began. -/
inductive Write (ρ : Type)
  | idle
  | listing (reliableOnly : Bool) (notify : ℕ)
  | testing (notify : ℕ) (activeRoutes rest reliableRoutes : List ρ)
  | offering (reliableOnly : Bool) (notify : ℕ) (activeRoutes : List ρ)
  | accepted (route : ρ)
  | returned (disposition : TransferWriteDisposition ρ)
  | failed
deriving DecidableEq

/-- Which order the shuffle gives, which channel takes the frame and when the write gives up is not determined. -/
inductive Move (ρ : Type)
  | enter (reliableOnly : Bool)
  | getActiveRoutes (shuffled : List ρ)
  | unreliableForRoute
  | send (route : ρ)
  | transportUpdate
  | giveUp
  | dispositionForRoute

namespace Write

def test (notify : ℕ) (activeRoutes rest reliableRoutes : List ρ) : Write ρ :=
  match rest with
  | [] => .offering true notify (if 0 < reliableRoutes.length then reliableRoutes else activeRoutes)
  | _ :: _ => .testing notify activeRoutes rest reliableRoutes

variable [DecidableEq ρ]

/-- One section of `writeDetailedWithRoutePolicy`. A move that the write cannot make leaves it where it is. -/
def move (s : MultiRouteSelector τ ρ) (write : Write ρ) (m : Move ρ) : Write ρ :=
  match write, m with
  | .idle, .enter reliableOnly => .listing reliableOnly s.updates
  | .listing reliableOnly notify, .getActiveRoutes shuffled =>
    if shuffled.Perm s.activeRoutes then
      if reliableOnly then test notify shuffled shuffled [] else .offering false notify shuffled
    else write
  | .testing notify activeRoutes (route :: rest) reliableRoutes, .unreliableForRoute =>
    test notify activeRoutes rest
      (if s.unreliableForRoute route then reliableRoutes else reliableRoutes ++ [route])
  | .offering _ _ activeRoutes, .send route => if route ∈ activeRoutes then .accepted route else write
  | .offering reliableOnly notify _, .transportUpdate =>
    if notify < s.updates then .listing reliableOnly s.updates else write
  | .offering _ _ _, .giveUp => .failed
  | .accepted route, .dispositionForRoute => .returned (s.dispositionForRoute route)
  | write, _ => write

end Write

/-- A selector with any number of writes under way, each under a key of its own. -/
structure World (κ τ ρ : Type) where
  selector : MultiRouteSelector τ ρ
  writes : κ → Write ρ

inductive Event (κ τ ρ : Type)
  | updateTransportWithProperties (transport : Transport τ) (routes : List ρ) (properties : TransferCarrierProperties)
  | setActive (route : ρ) (active : Bool)
  | write (c : κ) (m : Move ρ)

namespace World

def new : World κ τ ρ := ⟨.new, fun _ => .idle⟩

variable [DecidableEq κ] [DecidableEq τ] [DecidableEq ρ]

def step (w : World κ τ ρ) : Event κ τ ρ → World κ τ ρ
  | .updateTransportWithProperties transport routes properties =>
    { w with selector := w.selector.updateTransportWithProperties transport routes properties }
  | .setActive route active => { w with selector := w.selector.setActive route active }
  | .write c m => { w with writes := Function.update w.writes c ((w.writes c).move w.selector m) }

end World

end UrConnect.Transfer.Route
