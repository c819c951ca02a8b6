import Switchyard.Calendar.Instant
import Switchyard.Keyed
import Switchyard.Numeric.Digits
import Switchyard.Text.Blank

/-! Service instances and the registrations that create them. An instance carries the
summary of its probes: a status, the moment it was last seen, and the failures since
the last success. -/
namespace Switchyard

/-- What the last probe of an instance said; `unknown` before the first. -/
inductive Status where
  | unknown
  | healthy
  | unhealthy
deriving DecidableEq, Repr, Inhabited

namespace Status

def name : Status → String
  | unknown => "unknown"
  | healthy => "healthy"
  | unhealthy => "unhealthy"

def named : String → Option Status
  | "unknown" => some unknown
  | "healthy" => some healthy
  | "unhealthy" => some unhealthy
  | _ => none

theorem named_name (s : Status) : named s.name = some s := by cases s <;> rfl

end Status

/-- One running backend. `registration` tells apart the registrations of one id. -/
structure Instance where
  id : String
  name : String
  address : String
  port : UInt16
  status : Status
  lastSeen : Instant
  metadata : Keyed String
  failures : UInt32
  registration : Nat
deriving DecidableEq, Inhabited

namespace Instance

/-- Address and port as they stand in a URL. -/
def authority (i : Instance) : String := i.address ++ ":" ++ Numeric.natText i.port.toNat

/-- The URL of the instance without a path. -/
def baseUrl (i : Instance) : String := "http://" ++ i.authority

def isHealthy (i : Instance) : Bool := i.status == .healthy

/-- One failure more, up to the largest count. -/
def nextFailures (n : UInt32) : UInt32 := if n = 0xFFFFFFFF then n else n + 1

end Instance

/-- What a backend says of itself when it registers. -/
structure Registration where
  id : Option String
  name : String
  address : String
  port : UInt16
  metadata : Keyed String
deriving DecidableEq, Inhabited

/-- Why a registration is refused. -/
inductive Defect where
  | noName
  | noAddress
  | noPort
deriving DecidableEq, Repr

namespace Defect

def message : Defect → String
  | noName => "name must not be empty"
  | noAddress => "address must not be empty"
  | noPort => "port must be positive"

end Defect

namespace Registration

def new (name address : String) (port : UInt16) : Registration := ⟨none, name, address, port, ∅⟩

def withId (r : Registration) (id : String) : Registration := { r with id := some id }

def withMetadata (r : Registration) (key value : String) : Registration :=
  { r with metadata := r.metadata.insert key value }

/-- The first thing that keeps an instance from being probed and reached. -/
def defect? (r : Registration) : Option Defect :=
  if Text.isVoid r.name then some .noName
  else if Text.isVoid r.address then some .noAddress
  else if r.port = 0 then some .noPort
  else none

/-- The id that the backend chose, without the blanks around it; a blank id is none. -/
def explicitId (r : Registration) : Option String :=
  match r.id with
  | none => none
  | some id => let id := Text.trim id; if id = "" then none else some id

end Registration

end Switchyard
