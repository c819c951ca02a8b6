import Switchyard.Api.Route
import Switchyard.Api.Services
import Switchyard.Gateway.Background

/-! The gateway's answers to HTTP requests. -/
namespace Switchyard.Api

open Http (Request Response Headers)

/-! ### Requests from other origins -/

def ascii (s : String) : Bytes := Text.bytes s

/-- The headers that every response has. -/
def originHeaders : Headers :=
  [("access-control-allow-origin", ascii "*"),
    ("vary", ascii "origin, access-control-request-method, access-control-request-headers")]

/-- What other origins may send. -/
def preflightHeaders : Headers :=
  [("access-control-allow-headers", ascii "content-type,authorization"),
    ("access-control-allow-methods", ascii "GET,POST,PUT,DELETE,OPTIONS")]

/-- A response with the headers of `extra` in place of its own; a `vary` is added to those
that are there. -/
def overlay (extra : Headers) (r : Response) : Response :=
  let names := (extra.map (·.1)).filter (· ≠ "vary")
  { r with headers := r.headers.without names ++ extra }

def allow (methods? : Option (List String)) (r : Response) : Response :=
  match methods? with
  | some methods => { r with headers := r.headers ++ [("allow", ascii (",".intercalate methods))] }
  | none => r

/-! ### Sockets -/

/-- The first reason not to turn a request into a socket. -/
def upgradeRefusal? (r : Request) : Option Response :=
  let value (name : String) : Option (List Char) :=
    (r.headers.first? name).map fun bs => bs.map fun b => (Char.ofNat b.toNat).toLower
  let upgrades : Bool :=
    ((r.headers.first? "connection").bind Text.ofBytes?).any fun s =>
      (Target.after? "upgrade".toList (s.toList.map Char.toLower)).isSome
  if r.method ≠ "GET" then some (.plain 405 "Request method must be `GET`")
  else if !upgrades then
    some (.plain 400 "Connection header did not include 'upgrade'")
  else if value "upgrade" ≠ some "websocket".toList then
    some (.plain 400 "`Upgrade` header did not include 'websocket'")
  else if value "sec-websocket-version" ≠ some "13".toList then
    some (.plain 400 "`Sec-WebSocket-Version` header did not include '13'")
  else if (value "sec-websocket-key").isNone then
    some (.plain 400 "`Sec-WebSocket-Key` header missing")
  else none

/-- A request for a socket that comes without a connection to turn into one. -/
def socketResponse (r : Request) : Response :=
  (upgradeRefusal? r).getD
    (.plain 426 "WebSocket request couldn't be upgraded since no upgrade state was present")

/-! ### Proxied requests -/

/-- What became of a request. -/
structure Served where
  /-- None if the caller went away before there was a response. -/
  response : Option Response
  /-- The requests that reached an address for it. -/
  requests : List Outbound := []
  /-- The exchange whose response is still to be passed on. -/
  exchange : Option Nat := none

/-- Waits for the end of a journey, but no longer than the caller does. -/
def settleExchange (g : Gateway) (n : Nat) (lease : Lease) (target : String) (j : Journey)
    (patience : Option Nat) : Gateway × Served :=
  if patience.any (· < j.elapsed) then
    let g := g.sleep (patience.getD 0)
    let o := g.proxy.cancel n g.nanos
    ({ g with proxy := o.state }.say o.notices, ⟨none, j.requests, none⟩)
  else
    let g := g.sleep j.elapsed
    match j.result with
    | .ok reply =>
      ({ g with proxy := g.proxy.relay n g.nanos reply.status },
        ⟨some (Proxy.response reply), j.requests, some n⟩)
    | .error t =>
      let i := lease.chosen
      let f := Proxy.fault i t
      let service := ((g.proxy.exchanges[n]?).map (·.service)).getD ""
      ({ g with proxy := g.proxy.giveUp n g.nanos f }.say
          [.forwardFailed service i.id target TransportFault.undescribed],
        ⟨some (Proxy.refusal f), j.requests, none⟩)

/-- Forwards a request to an instance of a service. -/
def forward (g : Gateway) (service path : String) (r : Request) (patience : Option Nat) :
    Gateway × Served :=
  let (proxy, n) := g.proxy.start service g.nanos
  let g := { g with proxy }
  let turnAway (f : Fault) : Gateway × Served :=
    ({ g with proxy := g.proxy.turnAway n g.nanos f }, ⟨some (Proxy.refusal f), [], none⟩)
  let limit := g.settings.proxy.maxBodyBytes.toNat
  match r.body.read limit with
  | .tooLong => turnAway (.payloadTooLarge limit)
  | .failed reason => turnAway (.requestBody reason)
  | .whole body =>
    let o := g.proxy.engage n g.nanos g.draw (g.registry.healthy service)
    let g := { g with proxy := o.state, draw := g.draw + 1 }.say o.notices
    match o.answer with
    | .error f => (g, ⟨some (Proxy.refusal f), [], none⟩)
    | .ok lease =>
      let target := Target.url lease.chosen path r.query
      let g := g.say [.forwarding service lease.chosen.id r.method target]
      let j := Proxy.dispatch g.network g.settings.proxyTimeout lease.chosen path r body
      settleExchange { g with network := j.network } n lease target j patience

/-- The response has been read to its end, or the rest of it is not wanted. -/
def finishExchange (g : Gateway) (n : Nat) : Gateway := { g with proxy := g.proxy.finish n }

/-! ### All together -/

def decoded (segment : String) : String := (Text.Percent.decodeText? segment).getD ""

/-- The answer of a route that takes the request's method and can read its segments. -/
def serveRoute (g : Gateway) (route : Route) (r : Request) (patience : Option Nat) :
    Gateway × Served :=
  let reply (response : Response) : Gateway × Served := (g, ⟨some response, [], none⟩)
  match route with
  | .health => reply (.json 200 (healthJson g))
  | .metrics => reply (.json 200 (metricsJson g))
  | .services =>
    if r.method = "POST" then
      let (g, response) := registerService g r
      (g, ⟨some response, [], none⟩)
    else reply (listServices g)
  | .service id =>
    if r.method = "DELETE" then
      let (g, response) := deregisterService g (decoded id)
      (g, ⟨some response, [], none⟩)
    else reply (getService g (decoded id))
  | .proxyRoot name => forward g (decoded name) "/" r patience
  | .proxyPath name _ => forward g (decoded name) (Target.subPath r.path) r patience
  | .socket => reply (socketResponse r)

/-- Answers a request. A caller with patience goes away after that many milliseconds. -/
def respond (g : Gateway) (r : Request) (patience : Option Nat) : Gateway × Served :=
  let plainly (response : Response) : Gateway × Served :=
    (g, ⟨some (overlay originHeaders response), [], none⟩)
  match Route.ofPath? r.path with
  | none =>
    if r.method = "OPTIONS" then plainly (overlay preflightHeaders (.empty 200))
    else plainly (.empty 404)
  | some route =>
    let methods? := route.methods?
    if r.method = "OPTIONS" then
      plainly (allow methods? (overlay preflightHeaders (.empty 200)))
    else if methods?.any fun methods => !methods.contains r.method then
      plainly (allow methods? (.empty 405))
    else
      let bare (response : Response) : Response :=
        if r.method = "HEAD" ∧ methods?.isSome then { response with body := [] } else response
      match route.illegible? with
      | some field =>
        plainly (bare (.plain 400 ("Invalid URL: Invalid UTF-8 in `" ++ field ++ "`")))
      | none =>
        let (g, served) := serveRoute g route r patience
        (g, { served with response := served.response.map fun x => overlay originHeaders (bare x) })

/-! ### Opening a socket -/

/-- Answers a client that asks for a socket: its number, or the response that refuses it.
With `closing` the hub is closed after the request has been granted. -/
def connect (g : Gateway) (closing : Bool) : Gateway × Except Response Nat :=
  if g.hub.accepting then
    let g := if closing then g.closeHub 0 else g
    let (g, n) := g.openSocket
    (g, .ok n)
  else (g, .error (Proxy.refusal .shuttingDown))

end Switchyard.Api
