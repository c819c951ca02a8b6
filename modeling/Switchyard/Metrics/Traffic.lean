import Switchyard.Keyed
import Switchyard.Numeric.Binary64

/-! Traffic: how many requests each service has had, how they ended and how long they
took. All counts are modulo `2 ^ 64`, and durations are summed in whole milliseconds. -/
namespace Switchyard

/-- The requests of one service. -/
structure Tally where
  requests : UInt64 := 0
  errors : UInt64 := 0
  cancelled : UInt64 := 0
  inFlight : UInt64 := 0
  millis : UInt64 := 0
deriving DecidableEq, Repr, Inhabited

namespace Tally

/-- Requests that are over. -/
def completed (t : Tally) : Nat := t.requests.toNat - t.inFlight.toNat

/-- The mean duration of the requests that are over, zero if there are none. -/
def average (t : Tally) : Binary64 :=
  if t.completed = 0 then Binary64.zero else Binary64.ofQuotient t.millis.toNat t.completed

def start (t : Tally) : Tally :=
  { t with requests := t.requests + 1, inFlight := t.inFlight + 1 }

/-- One request less in flight, if there is one, after `nanos` nanoseconds. -/
def close (t : Tally) (nanos : Nat) : Tally :=
  { t with
    inFlight := if t.inFlight = 0 then 0 else t.inFlight - 1
    millis := t.millis + (nanos / 1000000).toUInt64 }

end Tally

/-- The requests of all services, by service. -/
structure Traffic where
  begun : UInt64 := 0
  services : Keyed Tally := ∅
deriving DecidableEq, Inhabited

namespace Traffic

/-- How many requests there have been. -/
def total (t : Traffic) : Nat := t.begun.toNat

def tally (t : Traffic) (service : String) : Tally := t.services.getD service {}

def update (t : Traffic) (service : String) (f : Tally → Tally) : Traffic :=
  { t with services := t.services.insert service (f (t.tally service)) }

def isServerError (status : Nat) : Bool := 500 ≤ status && status ≤ 599

def started (t : Traffic) (service : String) : Traffic :=
  { t.update service Tally.start with begun := t.begun + 1 }

/-- A request ended with a response. -/
def ended (t : Traffic) (service : String) (nanos status : Nat) : Traffic :=
  t.update service fun c =>
    let c := c.close nanos
    if isServerError status then { c with errors := c.errors + 1 } else c

/-- The caller went away before there was a response. -/
def cancelled (t : Traffic) (service : String) (nanos : Nat) : Traffic :=
  t.update service fun c =>
    let c := c.close nanos
    { c with cancelled := c.cancelled + 1 }

end Traffic

end Switchyard
