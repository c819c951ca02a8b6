import Switchyard.Json.Writer

/-! Faults: what can go wrong, the HTTP status it has, and the sentence that a caller
gets to read. A fault on the server's side keeps its details from the caller. -/
namespace Switchyard

inductive Fault where
  | configuration (detail : String)
  | io (detail : String)
  | json (detail : String)
  | client (detail : String)
  | invalidRegistration (defect : String)
  | requestBody (reason : String)
  | payloadTooLarge (limit : Nat)
  | serviceNotAvailable (service : String)
  | instanceNotFound (id : String)
  | backendUnreachable (id reason : String)
  | timeout (id : String)
  | shuttingDown
  | internal (detail : String)
deriving DecidableEq, Repr

namespace Fault

/-- The fault in full, for those who run the gateway. -/
def message : Fault → String
  | configuration detail => "Configuration error: " ++ detail
  | io detail => "IO error: " ++ detail
  | json detail => "JSON serialization error: " ++ detail
  | client detail => "HTTP client error: " ++ detail
  | invalidRegistration defect => "Invalid registration: " ++ defect
  | requestBody reason => "Invalid request body: " ++ reason
  | payloadTooLarge limit => "Request body exceeds " ++ Numeric.natText limit ++ " bytes"
  | serviceNotAvailable service => "No healthy instances available for service: " ++ service
  | instanceNotFound id => "Instance not found: " ++ id
  | backendUnreachable id reason => "Backend instance " ++ id ++ " unreachable: " ++ reason
  | timeout id => "Backend instance " ++ id ++ " timed out"
  | shuttingDown => "Gateway is shutting down"
  | internal detail => "Internal error: " ++ detail

/-- The HTTP status of the fault. -/
def status : Fault → Nat
  | configuration _ | io _ | internal _ => 500
  | json _ | invalidRegistration _ | requestBody _ => 400
  | client _ | backendUnreachable .. => 502
  | serviceNotAvailable _ | shuttingDown => 503
  | payloadTooLarge _ => 413
  | instanceNotFound _ => 404
  | timeout _ => 504

/-- What a caller gets to read. -/
def publicMessage : Fault → String
  | serviceNotAvailable _ => "Service not available"
  | backendUnreachable .. | client _ => "Service request failed"
  | timeout _ => "Service request timed out"
  | configuration _ | io _ | internal _ => "Internal server error"
  | f => f.message

/-- The body of the response to a fault. -/
def body (f : Fault) : Json := .obj [("error", .str f.publicMessage)]

end Fault

end Switchyard
