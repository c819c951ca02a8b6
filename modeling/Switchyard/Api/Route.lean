import Switchyard.Text.Percent

/-! The paths that the gateway answers. A variable segment is kept as it was sent; what
it stands for is its percent-decoding. -/
namespace Switchyard.Api

inductive Route where
  | health
  | metrics
  | services
  | service (id : String)
  | proxyRoot (name : String)
  | proxyPath (name path : String)
  | socket
deriving DecidableEq, Repr

namespace Route

def joined : List (List Char) → List Char
  | [] => []
  | [s] => s
  | s :: rest => s ++ '/' :: joined rest

/-- The route of a path. A variable last segment is not empty, and neither is what
follows a service's name. -/
def ofPath? (path : String) : Option Route :=
  match (path.toList.splitOn '/').map String.ofList with
  | ["", "ws"] => some .socket
  | ["", "api", "health"] => some .health
  | ["", "api", "metrics"] => some .metrics
  | ["", "api", "services"] => some .services
  | ["", "api", "services", id] => if id = "" then none else some (.service id)
  | ["", "api", "proxy", name] => if name = "" then none else some (.proxyRoot name)
  | "" :: "api" :: "proxy" :: name :: rest =>
    let path := String.ofList (joined (rest.map String.toList))
    if path = "" then none else some (.proxyPath name path)
  | _ => none

/-- The methods that a route takes; none if it takes any. -/
def methods? : Route → Option (List String)
  | health | metrics | socket => some ["GET", "HEAD"]
  | services => some ["GET", "HEAD", "POST"]
  | service _ => some ["GET", "HEAD", "DELETE"]
  | proxyRoot _ | proxyPath .. => none

/-- The first variable segment whose percent-decoding is no text. -/
def illegible? : Route → Option String
  | service id => if (Text.Percent.decodeText? id).isNone then some "id" else none
  | proxyRoot name => if (Text.Percent.decodeText? name).isNone then some "name" else none
  | proxyPath name path =>
    if (Text.Percent.decodeText? name).isNone then some "name"
    else if (Text.Percent.decodeText? path).isNone then some "path"
    else none
  | _ => none

end Route

end Switchyard.Api
