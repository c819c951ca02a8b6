import Switchyard.Json.Value
import Switchyard.Registry.Instance

/-! Notices: what the parts of the gateway say about what they do. Each has a level, a
sentence and named fields. An outcome joins the notices of an operation to its answer
and to the state it leaves. -/
namespace Switchyard

/-- How much a notice matters. -/
inductive Level where
  | debug
  | info
  | warn
  | error
deriving DecidableEq, Repr

namespace Level

def name : Level → String
  | debug => "debug"
  | info => "info"
  | warn => "warn"
  | error => "error"

end Level

/-- What kept a message from a subscriber's queue. -/
inductive Rejection where
  | full
  | gone
deriving DecidableEq, Repr

namespace Rejection

def reason : Rejection → String
  | full => "send queue full"
  | gone => "connection closed"

end Rejection

inductive Notice where
  | registered (id name address : String) (port : UInt16) (updated : Bool)
  | deregistered (id name : String)
  | unknownDeregistered (id : String)
  | evicted (id name : String) (failures : UInt32)
  | markedHealthy (id name : String) (before after : Status)
  | markedUnhealthy (id name : String) (before after : Status) (reason : String)
  | probeFailed (id name reason : String)
  | probeCompleted (id : String) (status : Status)
  | deregisteredMeanwhile (id : String)
  | reregisteredMeanwhile (id : String)
  | passCompleted (checked healthy unhealthy evicted : Nat)
  | selected (service id strategy : String)
  | noneHealthy (service : String)
  | forwarding (service id method target : String)
  | forwardFailed (service id target reason : String)
  | forwardCancelled (service : String)
  | subscribed (client : Nat)
  | unsubscribed (client : Nat)
  | messageIgnored (client : Nat)
  | sendFailed (client : Nat) (why : Rejection)
  | updateSent (delivered : Nat)
  | hubClosed (closed : Nat)
  | subscriptionRefused (reason : String)
  | socketBroken (client : Nat)
  | writeFailed (client : Nat)
  | taskStarted (task : String) (intervalMillis : Nat)
  | taskStopped (task : String)
  | taskAborted (task : String)
  | backgroundStopped
deriving DecidableEq

namespace Notice

def level : Notice → Level
  | registered .. | deregistered .. | markedHealthy .. | noneHealthy .. | subscribed ..
  | unsubscribed .. | hubClosed .. | taskStarted .. | taskStopped .. | backgroundStopped => .info
  | unknownDeregistered .. | probeCompleted .. | deregisteredMeanwhile ..
  | reregisteredMeanwhile .. | passCompleted .. | selected .. | forwarding ..
  | forwardCancelled .. | messageIgnored .. | updateSent .. | socketBroken .. => .debug
  | evicted .. | markedUnhealthy .. | probeFailed .. | sendFailed .. | subscriptionRefused ..
  | writeFailed .. | taskAborted .. => .warn
  | forwardFailed .. => .error

def message : Notice → String
  | registered .. => "Service registered"
  | deregistered .. => "Service deregistered"
  | unknownDeregistered .. => "Deregistration of unknown instance ignored"
  | evicted .. => "Instance evicted after consecutive failed probes"
  | markedHealthy .. => "Service marked healthy"
  | markedUnhealthy .. => "Service marked unhealthy"
  | probeFailed .. => "Service health check failed"
  | probeCompleted .. => "Health check completed"
  | deregisteredMeanwhile .. => "Instance deregistered during health check"
  | reregisteredMeanwhile .. => "Instance re-registered during health check, result dropped"
  | passCompleted .. => "Health check pass completed"
  | selected .. => "Selected instance for request"
  | noneHealthy .. => "No healthy instance available"
  | forwarding .. => "Forwarding request"
  | forwardFailed .. => "Proxy request failed"
  | forwardCancelled .. => "Proxied request cancelled by caller"
  | subscribed .. => "Subscriber connected"
  | unsubscribed .. => "Subscriber disconnected"
  | messageIgnored .. => "Ignoring unrecognized subscriber message"
  | sendFailed .. | writeFailed .. => "Failed to send message to subscriber, removing"
  | updateSent .. => "Broadcast service update"
  | hubClosed .. => "Broadcast hub closed"
  | subscriptionRefused .. => "Subscription refused"
  | socketBroken .. => "WebSocket read failed"
  | taskStarted .. => "Started background task"
  | taskStopped .. => "Stopped background task"
  | taskAborted .. => "Background task did not stop in time, aborted"
  | backgroundStopped => "Background tasks stopped"

def fields : Notice → List (String × Json)
  | registered id name address port updated =>
    [("id", .str id), ("name", .str name), ("address", .str address),
      ("port", .nat port.toNat), ("updated", .bool updated)]
  | deregistered id name => [("id", .str id), ("name", .str name)]
  | unknownDeregistered id | deregisteredMeanwhile id | reregisteredMeanwhile id =>
    [("id", .str id)]
  | evicted id name failures =>
    [("id", .str id), ("name", .str name), ("consecutive_failures", .nat failures.toNat)]
  | markedHealthy id name before after =>
    [("id", .str id), ("name", .str name), ("from", .str before.name), ("to", .str after.name)]
  | markedUnhealthy id name before after reason =>
    [("id", .str id), ("name", .str name), ("from", .str before.name), ("to", .str after.name),
      ("reason", .str reason)]
  | probeFailed id name reason =>
    [("id", .str id), ("name", .str name), ("reason", .str reason)]
  | probeCompleted id status => [("id", .str id), ("status", .str status.name)]
  | passCompleted checked healthy unhealthy removed =>
    [("checked", .nat checked), ("healthy", .nat healthy), ("unhealthy", .nat unhealthy),
      ("evicted", .nat removed)]
  | selected service id strategy =>
    [("service", .str service), ("instance", .str id), ("strategy", .str strategy)]
  | noneHealthy service | forwardCancelled service => [("service", .str service)]
  | forwarding service id method target =>
    [("service", .str service), ("instance", .str id), ("method", .str method),
      ("target", .str target)]
  | forwardFailed service id target reason =>
    [("service", .str service), ("instance", .str id), ("target", .str target),
      ("error", .str reason)]
  | subscribed client | unsubscribed client | messageIgnored client | socketBroken client =>
    [("client_id", .nat client)]
  | sendFailed client why => [("client_id", .nat client), ("reason", .str why.reason)]
  | writeFailed client =>
    [("client_id", .nat client), ("error", .str "IO error: broken pipe")]
  | updateSent delivered => [("delivered", .nat delivered)]
  | hubClosed closed => [("closed", .nat closed)]
  | subscriptionRefused reason => [("error", .str reason)]
  | taskStarted task intervalMillis =>
    [("task", .str task), ("interval_ms", .nat intervalMillis)]
  | taskStopped task | taskAborted task => [("task", .str task)]
  | backgroundStopped => []

end Notice

/-- What an operation leaves behind: the new state, its answer and its notices. -/
structure Outcome (σ α : Type) where
  state : σ
  answer : α
  notices : List Notice

end Switchyard
