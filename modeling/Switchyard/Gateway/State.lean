import Switchyard.Health.Probe
import Switchyard.Hub.Broadcast
import Switchyard.Proxy.Exchange
import Switchyard.Schedule.Agenda
import Switchyard.Settings.Basic

/-! The gateway: all parts under one clock, which counts milliseconds from the start, and
the notices they have given. -/
namespace Switchyard

/-- What a client of a socket sees. -/
inductive Frame where
  | text (s : String)
  | pong (payload : Bytes)
  | close
  | finish
deriving DecidableEq, Repr

/-- A socket between the hub and a client. Without a subscriber it has been refused. -/
structure Socket where
  subscriber : Option Nat
  /-- Frames that the client has not looked at yet. -/
  inbox : List Frame := []
  isOpen : Bool := true
deriving Inhabited

structure Gateway where
  settings : Settings
  /-- The nanosecond of the start, counted from 1970-01-01. -/
  base : Int
  elapsed : Nat := 0
  registry : Registry
  proxy : Proxy
  hub : Hub
  agenda : Agenda := {}
  network : Network := {}
  script : Script := {}
  /-- The pass that the health task has under way. -/
  healthPass : Pass := {}
  drillPass : Pass := {}
  sockets : List Socket := []
  /-- Requests that reached an address from a task in the background. -/
  arrivals : List Outbound := []
  /-- What random choices are drawn from. -/
  draw : Nat := 0
  /-- Whether a task that has been told to stop attends first to a tick that is due, by the
  moment at which it can do either. -/
  ticksFirst : Task → Nat → Bool := fun _ _ => false
  /-- The notices so far, the latest first. -/
  log : List Notice := []

namespace Gateway

def new (settings : Settings) (base : Int)
    (ticksFirst : Task → Nat → Bool := fun _ _ => false) : Gateway :=
  { settings, base, ticksFirst
    registry := { threshold := settings.healthCheck.evictionThreshold }
    proxy := { balancer := { strategy := settings.loadBalancer.strategy } }
    hub := Hub.new settings.broadcast.queueCapacity.toNat }

def now (g : Gateway) : Instant := Instant.ofNanos (g.base + g.elapsed * 1000000)

def startedAt (g : Gateway) : Instant := Instant.ofNanos g.base

/-- Nanoseconds from the start to now. -/
def nanos (g : Gateway) : Nat := g.elapsed * 1000000

def say (g : Gateway) (notices : List Notice) : Gateway :=
  { g with log := notices.reverse ++ g.log }

/-- The notices in their order, and the gateway without them. -/
def takeLog (g : Gateway) : Gateway × List Notice := ({ g with log := [] }, g.log.reverse)

/-! ### The registry -/

/-- Does something with the registry. -/
def withRegistry {α : Type} (g : Gateway) (f : Registry → Outcome Registry α) : Gateway × α :=
  let o := f g.registry
  ({ g with registry := o.state }.say o.notices, o.answer)

def register (g : Gateway) (q : Registration) : Gateway × Except Defect String :=
  g.withRegistry fun r => r.register g.now q

def deregister (g : Gateway) (id : String) : Gateway × Bool :=
  g.withRegistry fun r => r.deregister id

def fold (g : Gateway) (id : String) (healthy : Bool) : Gateway × Folded :=
  g.withRegistry fun r => r.fold g.now id healthy

def foldProbed (g : Gateway) (copy : Instance) (healthy : Bool) : Gateway × Folded :=
  g.withRegistry fun r => r.foldProbed g.now copy healthy

/-! ### The hub -/

/-- Does something with the hub. -/
def withHub {α : Type} (g : Gateway) (f : Hub → Outcome Hub α) : Gateway × α :=
  let o := f g.hub
  ({ g with hub := o.state }.say o.notices, o.answer)

def subscribe (g : Gateway) : Gateway × Except Fault Nat :=
  g.withHub fun h => h.subscribe g.registry.list

def unsubscribe (g : Gateway) (client : Nat) : Gateway × Bool :=
  g.withHub fun h => h.unsubscribe client

def handle (g : Gateway) (client : Nat) (text : String) : Gateway :=
  (g.withHub fun h => h.handle g.now g.registry.list client text).1

def send (g : Gateway) (client : Nat) (m : ServerMessage) : Gateway × Bool :=
  g.withHub fun h => h.send client m

def receive (g : Gateway) (client limit : Nat) : Gateway × List String :=
  let (hub, texts) := g.hub.receive client limit
  ({ g with hub }, texts)

def hangUp (g : Gateway) (client : Nat) : Gateway := { g with hub := g.hub.hangUp client }

end Gateway

end Switchyard
