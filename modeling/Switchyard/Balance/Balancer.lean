import Switchyard.Balance.Strategy
import Switchyard.Fault
import Switchyard.Notice

/-! The balancer chooses an instance for each request. It keeps no instances of its own,
only a cursor per service, which every successful choice moves on by one, and the number
of leases held on each instance. -/
namespace Switchyard

structure Balancer where
  strategy : Strategy := .roundRobin
  cursors : Keyed UInt64 := ∅
  inFlight : Keyed Nat := ∅
deriving Inhabited

/-- A chosen instance. It counts as in flight until the lease is released. -/
structure Lease where
  chosen : Instance
deriving DecidableEq, Inhabited

namespace Balancer

/-! ### The choice -/

/-- The list from its `start`-th item on, and then the items before it. -/
def rotate {α : Type} (start : Nat) (items : List α) : List α :=
  items.drop start ++ items.take start

/-- The first of the items with the least weight, `best` being the first of all. -/
def firstLeast {α : Type} (weight : α → Nat) (best : α) : List α → α
  | [] => best
  | a :: rest => firstLeast weight (if weight a < weight best then a else best) rest

def cursor (b : Balancer) (service : String) : UInt64 := b.cursors.getD service 0

/-- The leases held on an instance. -/
def held (b : Balancer) (id : String) : Nat := b.inFlight.getD id 0

/-- The leases held on all instances. -/
def totalHeld (b : Balancer) : Nat := b.inFlight.values.foldl (· + ·) 0

/-- The instance that the strategy takes of the healthy ones; `draw` is a random number. -/
def choose (b : Balancer) (service : String) (draw : Nat) (healthy : List Instance) :
    Option Instance :=
  let start := (b.cursor service).toNat % healthy.length
  match b.strategy with
  | .roundRobin => (rotate start healthy).head?
  | .leastConnections =>
    match rotate start healthy with
    | [] => none
    | i :: rest => some (firstLeast (fun i => b.held i.id) i rest)
  | .random => healthy[draw % healthy.length]?

/-! ### Leases -/

/-- Takes a lease on an instance of a service. -/
def select (b : Balancer) (service : String) (draw : Nat) (healthy : List Instance) :
    Outcome Balancer (Except Fault Lease) :=
  match b.choose service draw healthy with
  | none => ⟨b, .error (.serviceNotAvailable service), []⟩
  | some i =>
    ⟨{ b with
        cursors := b.cursors.insert service (b.cursor service + 1)
        inFlight := b.inFlight.insert i.id (b.held i.id + 1) },
      .ok ⟨i⟩, [.selected service i.id b.strategy.label]⟩

/-- Gives a lease back. An instance without leases has no count. -/
def release (b : Balancer) (l : Lease) : Balancer :=
  let id := l.chosen.id
  if b.held id ≤ 1 then { b with inFlight := b.inFlight.erase id }
  else { b with inFlight := b.inFlight.insert id (b.held id - 1) }

end Balancer

end Switchyard
