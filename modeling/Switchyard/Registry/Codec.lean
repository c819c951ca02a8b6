import Switchyard.Calendar.Rfc3339
import Switchyard.Json.Decoder
import Switchyard.Json.Writer
import Switchyard.Registry.Instance

/-! Instances and registrations as JSON. The number of a registration stays inside: it
is not written, and reads as zero. -/
namespace Switchyard

open Json (Decoder Refusal)
open Json.Decoder

def textMap (m : Keyed String) : Json := .obj (m.entries.map fun e => (e.1, .str e.2))

def timestamp : Decoder Instant := converting string Instant.read?

namespace Status

def toJson (s : Status) : Json := .str s.name

def decoder (lenient : Bool) : Decoder Status := choice lenient named

end Status

namespace Instance

def toJson (i : Instance) : Json :=
  .obj [("id", .str i.id), ("name", .str i.name), ("address", .str i.address),
    ("port", .nat i.port.toNat), ("status", i.status.toJson),
    ("last_seen", .str i.lastSeen.text), ("metadata", textMap i.metadata),
    ("consecutive_failures", .nat i.failures.toNat)]

def slots (lenient : Bool) : List Slot :=
  [slot "id" string, slot "name" string, slot "address" string, slot "port" word16,
    slot "status" (Status.decoder lenient), slot "last_seen" timestamp,
    slot "metadata" (keyed string), slot "consecutive_failures" word32]

def build (lenient : Bool) (given : Given) : Except Refusal Instance := do
  let id ← required given "id" string
  let name ← required given "name" string
  let address ← required given "address" string
  let port ← required given "port" word16
  let status ← required given "status" (Status.decoder lenient)
  let lastSeen ← required given "last_seen" timestamp
  let metadata ← defaulted given "metadata" (keyed string) ∅
  let failures ← defaulted given "consecutive_failures" word32 0
  return ⟨id, name, address, port, status, lastSeen, metadata, failures, 0⟩

def decoder (lenient : Bool) : Decoder Instance := record (slots lenient) (build lenient)

end Instance

namespace Registration

def toJson (r : Registration) : Json :=
  .obj [("id", match r.id with | some id => .str id | none => .null), ("name", .str r.name),
    ("address", .str r.address), ("port", .nat r.port.toNat), ("metadata", textMap r.metadata)]

def slots : List Slot :=
  [slot "id" (option string), slot "name" string, slot "address" string, slot "port" word16,
    slot "metadata" (keyed string)]

def build (given : Given) : Except Refusal Registration := do
  let id ← defaulted given "id" (option string) none
  let name ← defaulted given "name" string ""
  let address ← defaulted given "address" string ""
  let port ← defaulted given "port" word16 0
  let metadata ← defaulted given "metadata" (keyed string) ∅
  return ⟨id, name, address, port, metadata⟩

def decoder : Decoder Registration := record slots build

end Registration

end Switchyard
