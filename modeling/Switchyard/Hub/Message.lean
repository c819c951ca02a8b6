import Switchyard.Registry.Codec

/-! The messages between the hub and its subscribers: JSON objects tagged by `type`. -/
namespace Switchyard

open Json (Decoder Refusal)
open Json.Decoder

/-- A message to a subscriber. -/
inductive ServerMessage where
  | serviceList (services : Keyed Instance)
  | serviceUpdate (services : Keyed Instance) (timestamp : Instant)
  | pong (timestamp : Instant)
deriving DecidableEq

/-- A message from a subscriber. -/
inductive ClientMessage where
  | ping
  | getServices
deriving DecidableEq, Repr

/-- Instances by id, as JSON. -/
def directoryJson (services : Keyed Instance) : Json :=
  .obj (services.entries.map fun e => (e.1, e.2.toJson))

namespace ServerMessage

def kind : ServerMessage → String
  | serviceList _ => "service_list"
  | serviceUpdate .. => "service_update"
  | pong _ => "pong"

def toJson (m : ServerMessage) : Json :=
  .obj (("type", .str m.kind) ::
    match m with
    | serviceList services => [("services", directoryJson services)]
    | serviceUpdate services timestamp =>
      [("services", directoryJson services), ("timestamp", .str timestamp.text)]
    | pong timestamp => [("timestamp", .str timestamp.text)])

/-- The message as it is queued. -/
def encode (m : ServerMessage) : String := m.toJson.write

def directory : Decoder (Keyed Instance) := keyed (Instance.decoder true)

def listDecoder : Decoder ServerMessage :=
  record [slot "services" directory] fun given => do
    let services ← required given "services" directory
    return serviceList services

def updateDecoder : Decoder ServerMessage :=
  record [slot "services" directory, slot "timestamp" timestamp] fun given => do
    let services ← required given "services" directory
    let timestamp ← required given "timestamp" timestamp
    return serviceUpdate services timestamp

def pongDecoder : Decoder ServerMessage :=
  record [slot "timestamp" timestamp] fun given => do
    let timestamp ← required given "timestamp" timestamp
    return pong timestamp

def decoder : Decoder ServerMessage := tagged fun
  | "service_list" => some listDecoder
  | "service_update" => some updateDecoder
  | "pong" => some pongDecoder
  | _ => none

end ServerMessage

namespace ClientMessage

def kind : ClientMessage → String
  | ping => "ping"
  | getServices => "get_services"

def toJson (m : ClientMessage) : Json := .obj [("type", .str m.kind)]

def decoder : Decoder ClientMessage := tagged fun
  | "ping" => some (bare ping)
  | "get_services" => some (bare getServices)
  | _ => none

end ClientMessage

end Switchyard
