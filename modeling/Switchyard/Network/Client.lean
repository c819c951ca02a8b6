import Switchyard.Network.Backend

/-! The client sends a request and follows redirections until a response is final, an
attempt fails, or the time is over. A response counts only if it comes before the
timeout, which is counted from the beginning of the whole journey. -/
namespace Switchyard

open Http (Headers Url Ending Resolver)

/-- Why a journey brought no response. -/
inductive TransportFault where
  | timedOut
  | failed
deriving DecidableEq, Repr

/-- What is said of a fault that is not described further. -/
def TransportFault.undescribed : String := "<transport>"

/-- A final response. -/
structure Reply where
  status : Nat
  headers : Headers
  body : Bytes
  ending : Ending
deriving DecidableEq, Repr, Inhabited

/-- What became of a request: the requests that reached an address, the milliseconds it
took, and the response. -/
structure Journey where
  network : Network
  requests : List Outbound
  elapsed : Nat
  result : Except TransportFault Reply

namespace Client

/-- The most redirections that are followed. -/
def maxRedirects : Nat := 10

def contentHeaders : List String :=
  ["content-type", "content-length", "content-encoding", "transfer-encoding"]

/-- Headers that stay with the server they were meant for. -/
def boundHeaders : List String :=
  ["authorization", "cookie", "cookie2", "proxy-authorization", "www-authenticate"]

/-- The method after a redirection, and whether the body is dropped. -/
def redirectedMethod (status : Nat) (method : String) : String × Bool :=
  if status = 303 then (if method = "HEAD" then "HEAD" else "GET", true)
  else if (status = 301 || status = 302) && method = "POST" then ("GET", true)
  else (method, false)

def isRedirect (status : Nat) : Bool := [301, 302, 303, 307, 308].contains status

/-- The host header of a URL, and an accept header if there is none. -/
def dress (url : Url) (hs : Headers) : Headers :=
  let hs := hs.replace "host" (Text.bytes url.authority)
  if hs.contains "accept" then hs else hs ++ [("accept", Text.bytes "*/*")]

/-- The request for another URL that a response asks for instead of one. -/
def redirected (o : Outbound) (status : Nat) (url : Url) : Outbound :=
  let (method, drops) := redirectedMethod status o.method
  let hs := if drops then o.headers.without contentHeaders else o.headers
  let hs := if url.host = o.url.host ∧ url.port = o.url.port then hs else hs.without boundHeaders
  let hs := if o.url.secure ∧ !url.secure then hs
    else hs.replace "referer" (Text.bytes o.url.text)
  { method, url, headers := dress url hs, body := if drops then [] else o.body }

/-- What the client makes of a response. -/
inductive Turn where
  /-- It is the last one. -/
  | final
  /-- It asks for something that is not asked over http. -/
  | astray
  | next (o : Outbound)
deriving DecidableEq, Repr, Inhabited

def turn (w : Resolver) (o : Outbound) (status : Nat) (headers : Headers) : Turn :=
  if isRedirect status then
    match headers.first? "location" with
    | none => .final
    | some location =>
      match w.locate o.url location with
      | .nowhere => .final
      | .elsewhere => .astray
      | .place url => .next (redirected o status url)
  else .final

/-- Sends a request `elapsed` milliseconds after the start; `redirects` more may follow. -/
def travel (timeout : Nat) : Nat → Network → Nat → Outbound → Journey
  | redirects, n, elapsed, o =>
    if timeout ≤ elapsed then ⟨n, [], timeout, .error .timedOut⟩
    else match n.serve o with
    | (n, none) => ⟨n, [], elapsed, .error .failed⟩
    | (n, some (.refuse delay)) =>
      if timeout ≤ elapsed + delay then ⟨n, [o], timeout, .error .timedOut⟩
      else ⟨n, [o], elapsed + delay, .error .failed⟩
    | (n, some .silent) => ⟨n, [o], timeout, .error .timedOut⟩
    | (n, some (.reply delay status headers body ending)) =>
      if timeout ≤ elapsed + delay then ⟨n, [o], timeout, .error .timedOut⟩
      else match turn n.resolver o status headers with
      | .final => ⟨n, [o], elapsed + delay, .ok ⟨status, headers, body, ending⟩⟩
      | .astray => ⟨n, [o], elapsed + delay, .error .failed⟩
      | .next next =>
        match redirects with
        | 0 => ⟨n, [o], elapsed + delay, .error .failed⟩
        | redirects + 1 =>
          let j := travel timeout redirects n (elapsed + delay) next
          { j with requests := o :: j.requests }

/-! ### User and password -/

def base64Char (n : Nat) : Char :=
  if n < 26 then Char.ofNat (65 + n)
  else if n < 52 then Char.ofNat (71 + n)
  else if n < 62 then Char.ofNat (n - 4)
  else if n = 62 then '+' else '/'

def base64 : Bytes → List Char
  | [] => []
  | [a] =>
    let n := a.toNat * 16
    [base64Char (n / 64), base64Char (n % 64), '=', '=']
  | [a, b] =>
    let n := (a.toNat * 256 + b.toNat) * 4
    [base64Char (n / 4096), base64Char (n / 64 % 64), base64Char (n % 64), '=']
  | a :: b :: c :: rest =>
    let n := (a.toNat * 256 + b.toNat) * 256 + c.toNat
    base64Char (n / 262144) :: base64Char (n / 4096 % 64) :: base64Char (n / 64 % 64) ::
      base64Char (n % 64) :: base64 rest

/-- The credentials in a URL as a header's value. -/
def credentials (url : Url) : Option Bytes :=
  if url.user = "" ∧ url.password.isNone then none
  else
    let decoded (s : String) : Bytes := Text.Percent.decode (Text.bytes s)
    let pair := decoded url.user ++ Text.bytes ":" ++ decoded (url.password.getD "")
    some (Text.bytes ("Basic " ++ String.ofList (base64 pair)))

/-- The request that goes out to a URL given as text. -/
def outbound? (w : Resolver) (method target : String) (headers : Headers) (body : Bytes) :
    Option Outbound :=
  (w.url? target).map fun url =>
    let hs := match credentials url with
      | some value => if headers.contains "authorization" then headers
        else headers ++ [("authorization", value)]
      | none => headers
    ⟨method, { url with user := "", password := none }, dress url hs, body⟩

/-- Sends a request to a URL given as text; a text that is no URL fails at once. -/
def send (n : Network) (timeout : Nat) (method target : String) (headers : Headers)
    (body : Bytes) : Journey :=
  match outbound? n.resolver method target headers body with
  | none => ⟨n, [], 0, .error .failed⟩
  | some o => travel timeout maxRedirects n 0 o

end Client

end Switchyard
