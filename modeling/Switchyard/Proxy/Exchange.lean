import Switchyard.Balance.Balancer
import Switchyard.Balance.Target
import Switchyard.Metrics.Traffic
import Switchyard.Network.Client

/-! The proxy and its exchanges. An exchange begins when a request comes in. It reads the
body, takes a lease on an instance, waits for the response and passes it on; the lease is
held until the response has been passed on or the exchange ends otherwise. Every exchange
is closed in the traffic counts exactly once: when there is a response, or when the caller
goes away before. -/
namespace Switchyard

/-- How far an exchange has come. -/
inductive Stage where
  | reading
  | waiting (lease : Lease)
  | relaying (lease : Lease)
  | over
deriving DecidableEq, Inhabited

structure Exchange where
  service : String
  /-- The nanosecond at which the request came in. -/
  begun : Nat
  stage : Stage := .reading
deriving DecidableEq, Inhabited

structure Proxy where
  balancer : Balancer := {}
  traffic : Traffic := {}
  exchanges : List Exchange := []
deriving Inhabited

namespace Proxy

/-! ### Headers -/

/-- Headers that concern one hop only, and the host. -/
def hopHeaders : List String :=
  ["connection", "keep-alive", "proxy-authenticate", "proxy-authorization", "te", "trailer",
    "transfer-encoding", "upgrade", "host"]

def forwardable (hs : Http.Headers) : Http.Headers := hs.without hopHeaders

/-! ### Events of an exchange -/

def moveTo (p : Proxy) (n : Nat) (stage : Stage) : Proxy :=
  { p with exchanges := p.exchanges.modify n fun e => { e with stage } }

def stage? (p : Proxy) (n : Nat) : Option Stage := (p.exchanges[n]?).map (·.stage)

/-- Nanoseconds from the beginning of an exchange to `now`. -/
def age (e : Exchange) (now : Nat) : Nat := now - e.begun

/-- Counts an exchange as answered. -/
def answered (p : Proxy) (n now status : Nat) : Proxy :=
  match p.exchanges[n]? with
  | some e => { p with traffic := p.traffic.ended e.service (age e now) status }
  | none => p

def release (p : Proxy) (l : Lease) : Proxy := { p with balancer := p.balancer.release l }

/-- A request comes in; answers with the number of its exchange. -/
def start (p : Proxy) (service : String) (now : Nat) : Proxy × Nat :=
  ({ p with
      traffic := p.traffic.started service
      exchanges := p.exchanges ++ [{ service, begun := now }] }, p.exchanges.length)

/-- The body cannot be taken. -/
def turnAway (p : Proxy) (n now : Nat) (f : Fault) : Proxy :=
  match p.stage? n with
  | some .reading => (p.answered n now f.status).moveTo n .over
  | _ => p

/-- The body has been read, and an instance is selected. -/
def engage (p : Proxy) (n now draw : Nat) (healthy : List Instance) :
    Outcome Proxy (Except Fault Lease) :=
  match p.exchanges[n]? with
  | some { service, stage := .reading, .. } =>
    let o := p.balancer.select service draw healthy
    let q := { p with balancer := o.state }
    match o.answer with
    | .ok lease => ⟨q.moveTo n (.waiting lease), .ok lease, o.notices⟩
    | .error f =>
      ⟨(q.answered n now f.status).moveTo n .over, .error f,
        o.notices ++ [.noneHealthy service]⟩
  | _ => ⟨p, .error (.internal "no such exchange"), []⟩

/-- The instance has sent a response. -/
def relay (p : Proxy) (n now status : Nat) : Proxy :=
  match p.stage? n with
  | some (.waiting lease) => (p.answered n now status).moveTo n (.relaying lease)
  | _ => p

/-- There will be no response. -/
def giveUp (p : Proxy) (n now : Nat) (f : Fault) : Proxy :=
  match p.stage? n with
  | some (.waiting lease) => ((p.release lease).answered n now f.status).moveTo n .over
  | _ => p

/-- The response has been passed on, or nobody wants the rest of it. -/
def finish (p : Proxy) (n : Nat) : Proxy :=
  match p.stage? n with
  | some (.relaying lease) => (p.release lease).moveTo n .over
  | _ => p

/-- The caller goes away before there is a response. -/
def cancel (p : Proxy) (n now : Nat) : Outcome Proxy Unit :=
  match p.exchanges[n]? with
  | none => ⟨p, (), []⟩
  | some e =>
    let left := { p with traffic := p.traffic.cancelled e.service (age e now) }
    match e.stage with
    | .reading => ⟨left.moveTo n .over, (), [.forwardCancelled e.service]⟩
    | .waiting lease => ⟨(left.release lease).moveTo n .over, (), [.forwardCancelled e.service]⟩
    | _ => ⟨p, (), []⟩

/-! ### What is sent and what comes back -/

/-- The fault that a failed journey to an instance amounts to. -/
def fault (i : Instance) : TransportFault → Fault
  | .timedOut => .timeout i.id
  | .failed => .backendUnreachable i.id TransportFault.undescribed

/-- Sends a request on to an instance. -/
def dispatch (net : Network) (timeout : Nat) (i : Instance) (path : String) (r : Http.Request)
    (body : Bytes) : Journey :=
  Client.send net timeout r.method (Target.url i path r.query) (forwardable r.headers) body

/-- The response that passes a reply on. -/
def response (reply : Reply) : Http.Response :=
  { status := reply.status, headers := forwardable reply.headers, body := reply.body,
    ending := reply.ending }

/-- The response to a fault. -/
def refusal (f : Fault) : Http.Response := Http.Response.json f.status f.body

end Proxy

end Switchyard
