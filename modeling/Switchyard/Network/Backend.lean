import Switchyard.Http.Message
import Switchyard.Http.Url
import Switchyard.Keyed

/-! The network as the gateway meets it: addresses, each with answers by path. An address
without answers refuses every request. Of several answers to a path each request uses up
one, and the last one stays. -/
namespace Switchyard

open Http (Headers Url Ending Resolver)

/-- A request to a backend. -/
structure Outbound where
  method : String
  url : Url
  headers : Headers
  body : Bytes
deriving DecidableEq, Repr, Inhabited

/-- What a backend does with a request. -/
inductive Answer where
  /-- It sends a response after `delay` milliseconds. -/
  | reply (delay status : Nat) (headers : Headers) (body : Bytes) (ending : Ending)
  /-- It closes the connection after `delay` milliseconds. -/
  | refuse (delay : Nat := 0)
  /-- It says nothing. -/
  | silent
deriving DecidableEq, Repr, Inhabited

namespace Answer

def notFound : Answer := .reply 0 404 [] [] .complete

end Answer

/-- The answers of one address by path; the path `*` stands for all others. -/
abbrev Routes := Keyed (List Answer)

structure Network where
  hosts : Keyed Routes := ∅
  /-- How texts are read that name addresses. -/
  resolver : Resolver := .plain
deriving Inhabited

namespace Network

/-- Puts answers at an address, in place of those that were there. -/
def install (n : Network) (host : String) (routes : Routes) : Network :=
  { n with hosts := n.hosts.insert host routes }

/-- The key under which the routes answer a path. -/
def routeKey (routes : Routes) (path : String) : String :=
  if routes.contains path then path else "*"

/-- Brings a request to its address. There is no answer if nothing is at the address. -/
def serve (n : Network) (o : Outbound) : Network × Option Answer :=
  let host := o.url.host ++ ":" ++ Numeric.natText o.url.port
  match n.hosts.get? host with
  | none => (n, none)
  | some routes =>
    let key := routeKey routes o.url.path
    match routes.get? key with
    | some (a :: b :: rest) => (n.install host (routes.insert key (b :: rest)), some a)
    | some [a] => (n, some a)
    | _ => (n, some .notFound)

end Network

end Switchyard
