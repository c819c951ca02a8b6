import Switchyard.Api.Views
import Switchyard.Http.MediaType
import Switchyard.Registry.Codec

/-! The directory of instances over HTTP: registering, listing, looking up, removing. -/
namespace Switchyard.Api

open Http (Request Response)

/-- The longest body that a registration may have. -/
def maxRegistrationBytes : Nat := 2097152

/-- Why a body is no registration. -/
inductive Unreadable where
  | wrongType
  | unbuffered (reason : String)
  | malformed
  | mistyped
deriving DecidableEq, Repr

/-- What the caller is told; the place and the kind of a fault in JSON are left open. -/
def Unreadable.message : Unreadable → String
  | wrongType => "Expected request with `Content-Type: application/json`"
  | unbuffered reason => "Failed to buffer the request body: " ++ reason
  | malformed => "Failed to parse the request body as JSON: ..."
  | mistyped => "Failed to deserialize the JSON body into the target type: ..."

/-- The registration in a request's body. -/
def registration (r : Request) : Except Unreadable Registration :=
  if !((r.headers.first? "content-type").any Http.MediaType.isJson) then .error .wrongType
  else match r.body.read maxRegistrationBytes with
  | .tooLong => .error (.unbuffered "length limit exceeded")
  | .failed reason => .error (.unbuffered reason)
  | .whole bytes =>
    match Registration.decoder.readFront bytes with
    | .ok q => .ok q
    | .error .malformed => .error .malformed
    | .error .mistyped => .error .mistyped

def registrationRefused (message : String) : Response :=
  .json 400 (.obj [("error", .str message), ("success", .bool false)])

def registerService (g : Gateway) (r : Request) : Gateway × Response :=
  match registration r with
  | .error u => (g, registrationRefused u.message)
  | .ok q =>
    let (g, answer) := g.register q
    match answer with
    | .error d => (g, registrationRefused d.message)
    | .ok id =>
      (g, .json 201 (.obj [("message", .str "Service registered successfully"),
        ("service_id", .str id), ("success", .bool true)]))

def listServices (g : Gateway) : Response := .json 200 (directoryJson g.registry.list)

def getService (g : Gateway) (id : String) : Response :=
  match g.registry.get? id with
  | some i => .json 200 i.toJson
  | none => Proxy.refusal (.instanceNotFound id)

/-- Removes an instance; that it was not there is no fault. -/
def deregisterService (g : Gateway) (id : String) : Gateway × Response :=
  let (g, removed) := g.deregister id
  (g, .json 200 <|
    .obj [("removed", .bool removed), ("service_id", .str id), ("success", .bool true)])

end Switchyard.Api
