import Switchyard.Json.Writer
import Switchyard.Text.Utf8

/-! HTTP messages: requests as they come in, with a body that arrives in chunks and may
fail on the way, and responses. Header names are in lower case; a name may occur many
times, and the order of its values counts. -/
namespace Switchyard.Http

abbrev Headers := List (String × Bytes)

namespace Headers

def first? (hs : Headers) (name : String) : Option Bytes := (hs.find? (·.1 = name)).map (·.2)

def contains (hs : Headers) (name : String) : Bool := hs.any (·.1 = name)

/-- The headers whose names are not among `names`. -/
def without (hs : Headers) (names : List String) : Headers :=
  hs.filter fun h => !names.contains h.1

/-- The headers with exactly one value for a name. -/
def replace (hs : Headers) (name : String) (value : Bytes) : Headers :=
  hs.without [name] ++ [(name, value)]

/-- A name as it is kept, whatever case it came in. -/
def lowered (name : String) : String := String.ofList (name.toList.map Char.toLower)

/-- Headers as they are kept. -/
def ofWire (hs : Headers) : Headers := hs.map fun h => (lowered h.1, h.2)

end Headers

/-- A body on its way in: chunks, and the text of a failure after them. -/
structure Inflow where
  chunks : List Bytes := []
  failure : Option String := none
deriving DecidableEq, Repr, Inhabited

/-- What became of reading a body of bounded length. -/
inductive Collected where
  | whole (bytes : Bytes)
  | tooLong
  | failed (reason : String)
deriving DecidableEq, Repr

namespace Inflow

/-- Reads a body of at most `room` bytes. -/
def collect (room : Nat) (failure : Option String) : List Bytes → Collected
  | [] =>
    match failure with
    | some reason => .failed reason
    | none => .whole []
  | chunk :: rest =>
    if room < chunk.length then .tooLong
    else
      match collect (room - chunk.length) failure rest with
      | .whole bytes => .whole (chunk ++ bytes)
      | c => c

def read (body : Inflow) (limit : Nat) : Collected := collect limit body.failure body.chunks

end Inflow

structure Request where
  method : String := "GET"
  path : String
  query : Option String := none
  headers : Headers := []
  body : Inflow := {}
deriving DecidableEq, Repr, Inhabited

/-- How a body that is passed on comes to its end. -/
inductive Ending where
  | complete
  | broken
  | stalled
deriving DecidableEq, Repr, Inhabited

structure Response where
  status : Nat := 200
  headers : Headers := []
  body : Bytes := []
  ending : Ending := .complete
deriving DecidableEq, Repr, Inhabited

namespace Response

def json (status : Nat) (j : Json) : Response :=
  { status, headers := [("content-type", Text.bytes "application/json")]
    body := Text.bytes j.write }

def plain (status : Nat) (text : String) : Response :=
  { status, headers := [("content-type", Text.bytes "text/plain; charset=utf-8")],
    body := Text.bytes text }

def empty (status : Nat) : Response := { status }

end Response

/-- Splits the target of a request into path and query; a fragment is dropped. -/
def splitTarget (target : String) : String × Option String :=
  let cs := target.toList.takeWhile (· ≠ '#')
  let query := match cs.dropWhile (· ≠ '?') with
    | _ :: q => some (String.ofList q)
    | [] => none
  (String.ofList (cs.takeWhile (· ≠ '?')), query)

/-- The usual phrase for a status. -/
def phrase (status : Nat) : String :=
  match status with
  | 100 => "Continue" | 101 => "Switching Protocols" | 102 => "Processing"
  | 200 => "OK" | 201 => "Created" | 202 => "Accepted"
  | 203 => "Non Authoritative Information" | 204 => "No Content" | 205 => "Reset Content"
  | 206 => "Partial Content" | 207 => "Multi-Status" | 208 => "Already Reported"
  | 226 => "IM Used"
  | 300 => "Multiple Choices" | 301 => "Moved Permanently" | 302 => "Found"
  | 303 => "See Other" | 304 => "Not Modified" | 305 => "Use Proxy"
  | 307 => "Temporary Redirect" | 308 => "Permanent Redirect"
  | 400 => "Bad Request" | 401 => "Unauthorized" | 402 => "Payment Required"
  | 403 => "Forbidden" | 404 => "Not Found" | 405 => "Method Not Allowed"
  | 406 => "Not Acceptable" | 407 => "Proxy Authentication Required"
  | 408 => "Request Timeout" | 409 => "Conflict" | 410 => "Gone" | 411 => "Length Required"
  | 412 => "Precondition Failed" | 413 => "Payload Too Large" | 414 => "URI Too Long"
  | 415 => "Unsupported Media Type" | 416 => "Range Not Satisfiable"
  | 417 => "Expectation Failed" | 418 => "I'm a teapot" | 421 => "Misdirected Request"
  | 422 => "Unprocessable Entity" | 423 => "Locked" | 424 => "Failed Dependency"
  | 426 => "Upgrade Required" | 428 => "Precondition Required" | 429 => "Too Many Requests"
  | 431 => "Request Header Fields Too Large" | 451 => "Unavailable For Legal Reasons"
  | 500 => "Internal Server Error" | 501 => "Not Implemented" | 502 => "Bad Gateway"
  | 503 => "Service Unavailable" | 504 => "Gateway Timeout"
  | 505 => "HTTP Version Not Supported" | 506 => "Variant Also Negotiates"
  | 507 => "Insufficient Storage" | 508 => "Loop Detected" | 510 => "Not Extended"
  | 511 => "Network Authentication Required"
  | _ => "<unknown status code>"

end Switchyard.Http
