import Switchyard.Notice

/-! The registry: the one owner of the instances' records and of their health. Each
registration has a number of its own, by which the result of a probe finds the very
registration that was probed. The numbers are words of 64 bits and begin again after
the last. -/
namespace Switchyard

/-- Instances by id, with the number of failures in a row that evicts one; zero evicts none. -/
structure Registry where
  records : Keyed Instance := ∅
  threshold : UInt32 := 0
  registrations : Nat := 0
deriving Inhabited

/-- What became of a probe's result. -/
inductive Folded where
  | transition (before after : Status)
  | unchanged (status : Status)
  | evicted (failures : UInt32)
  | missing
  | stale
deriving DecidableEq, Repr

/-- Instances of one service by status. -/
structure StatusCounts where
  healthy : Nat := 0
  unhealthy : Nat := 0
  unknown : Nat := 0
deriving DecidableEq, Repr, Inhabited

namespace StatusCounts

def add (c : StatusCounts) : Status → StatusCounts
  | .healthy => { c with healthy := c.healthy + 1 }
  | .unhealthy => { c with unhealthy := c.unhealthy + 1 }
  | .unknown => { c with unknown := c.unknown + 1 }

end StatusCounts

namespace Registry

/-! ### Views -/

def list (r : Registry) : Keyed Instance := r.records

def get? (r : Registry) (id : String) : Option Instance := r.records.get? id

/-- The healthy instances of a service, by id. -/
def healthy (r : Registry) (name : String) : List Instance :=
  r.records.values.filter fun i => i.name == name && i.isHealthy

def size (r : Registry) : Nat := r.records.size

def isEmpty (r : Registry) : Bool := r.records.entries.isEmpty

def statusCounts (r : Registry) : Keyed StatusCounts :=
  r.records.values.foldl (fun m i => m.insert i.name ((m.getD i.name {}).add i.status)) ∅

/-! ### Ids -/

def numbered (base : String) (n : Nat) : String := base ++ "-" ++ Numeric.natText n

/-- The first of `fuel` numbered ids, from `n` on, that is not taken. -/
def firstFree (taken : String → Bool) (base : String) : Nat → Nat → Option String
  | 0, _ => none
  | fuel + 1, n =>
    if taken (numbered base n) then firstFree taken base fuel (n + 1)
    else some (numbered base n)

/-- Name and time in milliseconds, numbered if that is taken. One of as many numbers
as there are records, and one more, is free. -/
def freshId (records : Keyed Instance) (name : String) (millis : Int) : String :=
  let base := name ++ "-" ++ Numeric.intText millis
  if records.contains base then
    (firstFree records.contains base (records.size + 1) 1).getD base
  else base

/-! ### Changes -/

/-- Stores the record of a registration and answers with its id. -/
def register (r : Registry) (now : Instant) (q : Registration) :
    Outcome Registry (Except Defect String) :=
  match q.defect? with
  | some d => ⟨r, .error d, []⟩
  | none =>
    let id := match q.explicitId with
      | some id => id
      | none => freshId r.records q.name now.millis
    let i : Instance :=
      { id, name := q.name, address := q.address, port := q.port, status := .unknown,
        lastSeen := now, metadata := q.metadata, failures := 0, registration := r.registrations }
    ⟨{ r with
        records := r.records.insert id i
        registrations := (r.registrations + 1) % Numeric.limit64 }, .ok id,
      [.registered id q.name q.address q.port (r.records.contains id)]⟩

/-- Removes a record; answers whether it was there. -/
def deregister (r : Registry) (id : String) : Outcome Registry Bool :=
  match r.get? id with
  | some i => ⟨{ r with records := r.records.erase id }, true, [.deregistered id i.name]⟩
  | none => ⟨r, false, [.unknownDeregistered id]⟩

/-- The record after one more probe. -/
def probed (now : Instant) (healthy : Bool) (i : Instance) : Instance :=
  if healthy then { i with status := .healthy, lastSeen := now, failures := 0 }
  else { i with status := .unhealthy, failures := Instance.nextFailures i.failures }

/-- Whether an instance has failed too often in a row. -/
def evicts (r : Registry) (i : Instance) : Bool :=
  i.status == .unhealthy && 0 < r.threshold && r.threshold ≤ i.failures

/-- Folds the result of a probe into the record that an id has now. -/
def fold (r : Registry) (now : Instant) (id : String) (healthy : Bool) :
    Outcome Registry Folded :=
  match r.get? id with
  | none => ⟨r, .missing, []⟩
  | some i =>
    let j := probed now healthy i
    if r.evicts j then
      ⟨{ r with records := r.records.erase id }, .evicted j.failures,
        [.evicted id i.name j.failures]⟩
    else
      ⟨{ r with records := r.records.insert id j },
        if i.status = j.status then .unchanged j.status else .transition i.status j.status, []⟩

/-- Folds the result of probing a record taken earlier, if its registration still holds. -/
def foldProbed (r : Registry) (now : Instant) (copy : Instance) (healthy : Bool) :
    Outcome Registry Folded :=
  match r.get? copy.id with
  | none => ⟨r, .missing, []⟩
  | some i =>
    if i.registration = copy.registration then r.fold now copy.id healthy else ⟨r, .stale, []⟩

/-! ### Runs -/

/-- A change of the registry. -/
inductive Change where
  | register (q : Registration)
  | deregister (id : String)
  | fold (id : String) (healthy : Bool)
  | foldProbed (copy : Instance) (healthy : Bool)

/-- The registry after a change at `now`, and the notices of it. -/
def Change.run (now : Instant) (r : Registry) : Change → Registry × List Notice
  | .register q => let o := r.register now q; (o.state, o.notices)
  | .deregister id => let o := r.deregister id; (o.state, o.notices)
  | .fold id healthy => let o := r.fold now id healthy; (o.state, o.notices)
  | .foldProbed copy healthy => let o := r.foldProbed now copy healthy; (o.state, o.notices)

/-- The registry after changes at their moments, and all their notices. -/
def run (r : Registry) : List (Instant × Change) → Registry × List Notice
  | [] => (r, [])
  | (now, c) :: rest =>
    let (r, notices) := c.run now r
    let (r, more) := r.run rest
    (r, notices ++ more)

/-- The registry after changes at one moment. -/
def runAt (now : Instant) (r : Registry) (changes : List Change) : Registry × List Notice :=
  r.run (changes.map fun c => (now, c))

end Registry

end Switchyard
