import Switchyard.Http.Host

/-! URLs of the schemes http and https. Reading follows the living standard for URLs:
backslashes count as slashes, tabs and line ends are dropped, dot segments are resolved,
characters outside a part's set are percent-encoded, and the default port is left out. -/
namespace Switchyard.Http

open Switchyard.Numeric

structure Url where
  secure : Bool := false
  user : String := ""
  password : Option String := none
  host : String
  port : Nat
  path : String
  query : Option String := none
deriving DecidableEq, Repr, Inhabited

namespace Url

def defaultPort (secure : Bool) : Nat := if secure then 443 else 80

/-- The host with the port, unless that is the scheme's own. -/
def authority (u : Url) : String :=
  if u.port = defaultPort u.secure then u.host else u.host ++ ":" ++ natText u.port

/-- The URL without user, password and fragment. -/
def text (u : Url) : String :=
  (if u.secure then "https://" else "http://") ++ u.authority ++ u.path ++
    (match u.query with | some q => "?" ++ q | none => "")

/-! ### Percent-encoding of the parts -/

def encodeWith (keeps : UInt8 → Bool) (cs : List Char) : String :=
  String.ofList ((Text.Percent.encode keeps (Text.bytes (String.ofList cs))).map
    fun b => Char.ofNat b.toNat)

def isPlain (b : UInt8) (more : List Char) : Bool :=
  32 < b && b < 127 && !((['"', '#', '<', '>'] ++ more).contains (Char.ofNat b.toNat))

def encodePath : List Char → String :=
  encodeWith fun b => isPlain b ['?', '\x60', '\x7b', '\x7d']

def encodeQuery : List Char → String := encodeWith fun b => isPlain b ['\x27']

def encodeUser : List Char → String :=
  encodeWith fun b =>
    isPlain b ['?', '\x60', '\x7b', '\x7d', '/', ':', ';', '=', '@', '[', '\\', ']', '^', '|']

/-! ### Paths -/

def isSlash (c : Char) : Bool := c = '/' || c = '\\'

/-- The spellings of `.` and `..`. -/
def dots (cs : List Char) : Nat :=
  match String.ofList (cs.map Char.toLower) with
  | "." | "%2e" => 1
  | ".." | ".%2e" | "%2e." | "%2e%2e" => 2
  | _ => 0

def segments (cs : List Char) : List (List Char) :=
  (cs.map fun c => if c = '\\' then '/' else c).splitOn '/'

/-- The resolved segments in reverse, after those in `done`. -/
def resolve (done : List (List Char)) : List (List Char) → List (List Char)
  | [] => done
  | [last] =>
    match dots last with
    | 1 => [] :: done
    | 2 => [] :: done.tail
    | _ => last :: done
  | s :: rest =>
    match dots s with
    | 1 => resolve done rest
    | 2 => resolve done.tail rest
    | _ => resolve (s :: done) rest

/-- The path of resolved segments in reverse. -/
def joinPath (reversed : List (List Char)) : String :=
  reversed.reverse.foldl (fun path s => path ++ "/" ++ encodePath s) ""

/-- The path and the query that follow an authority or replace them. -/
def readRest (done : List (List Char)) (cs : List Char) : String × Option String :=
  let cs := cs.takeWhile (· ≠ '#')
  let path := cs.takeWhile (· ≠ '?')
  let query := match cs.dropWhile (· ≠ '?') with
    | _ :: q => some (encodeQuery q)
    | [] => none
  (joinPath (resolve done (segments path)), query)

/-! ### Authorities -/

/-- What stands before and after the last `@`. -/
def splitUser (cs : List Char) : Option (List Char) × List Char :=
  if cs.contains '@' then
    let host := (cs.reverse.takeWhile (· ≠ '@')).reverse
    (some (cs.take (cs.length - host.length - 1)), host)
  else (none, cs)

/-- Host and port text: the first colon outside brackets parts them. -/
def splitPort (bracketed : Bool) : List Char → List Char × List Char
  | [] => ([], [])
  | c :: rest =>
    if c = ':' ∧ !bracketed then ([], rest)
    else
      let inside := if c = '[' then true else if c = ']' then false else bracketed
      let (host, port) := splitPort inside rest
      (c :: host, port)

def port? (secure : Bool) (cs : List Char) : Option Nat :=
  if cs.isEmpty then some (defaultPort secure) else (readNat cs).filter (· ≤ 65535)

/-- The URL after `http:` or `https:` and any slashes. -/
def readAuthority (names : Host.Names) (secure : Bool) (cs : List Char) : Option Url := do
  let ends (c : Char) : Bool := isSlash c || c = '?' || c = '#'
  let (user, hostPort) := splitUser (cs.takeWhile (!ends ·))
  let rest := cs.dropWhile (!ends ·)
  let (hostText, portText) := splitPort false hostPort
  let host ← Host.parse? names hostText
  let port ← port? secure portText
  let (path, query) := readRest [] (match rest with
    | c :: more => if isSlash c then more else rest
    | [] => [])
  let user := user.getD []
  let password := match user.dropWhile (· ≠ ':') with
    | _ :: p => if p.isEmpty then none else some (encodeUser p)
    | [] => none
  some { secure, user := encodeUser (user.takeWhile (· ≠ ':')), password,
         host := String.ofList host, port, path, query }

/-- A text without blanks and controls at its ends, and without tabs and line ends. -/
def cleaned (s : String) : List Char :=
  let edge (c : Char) : Bool := c.toNat ≤ 32
  let cs := ((s.toList.dropWhile edge).reverse.dropWhile edge).reverse
  cs.filter fun c => c ≠ '\t' ∧ c ≠ '\n' ∧ c ≠ '\r'

/-- The scheme in lower case and what follows its colon. -/
def splitScheme (cs : List Char) : Option (String × List Char) :=
  let letters := cs.takeWhile fun c => c.isAlphanum || c = '+' || c = '-' || c = '.'
  match letters, cs.drop letters.length with
  | first :: _, ':' :: rest =>
    if first.isAlpha then some (String.ofList (letters.map Char.toLower), rest) else none
  | _, _ => none

def parse? (names : Host.Names) (s : String) : Option Url :=
  match splitScheme (cleaned s) with
  | some ("http", rest) => readAuthority names false (rest.dropWhile isSlash)
  | some ("https", rest) => readAuthority names true (rest.dropWhile isSlash)
  | _ => none

/-! ### References -/

/-- The segments of a path but the last, in reverse. -/
def parents (path : String) : List (List Char) :=
  ((path.toList.drop 1).splitOn '/').reverse.tail

/-- The URL that a reference without a scheme names, seen from `base`. -/
def relative? (names : Host.Names) (base : Url) (cs : List Char) : Option Url :=
  match cs with
  | [] => some base
  | '#' :: _ => some base
  | '?' :: _ => some { base with query := (readRest [] cs).2 }
  | a :: b :: rest =>
    if isSlash a && isSlash b then readAuthority names base.secure (rest.dropWhile isSlash)
    else if isSlash a then
      let (path, query) := readRest [] (b :: rest)
      some { base with path, query }
    else
      let (path, query) := readRest (parents base.path) cs
      some { base with path, query }
  | [a] =>
    let (path, query) := if isSlash a then readRest [] [] else readRest (parents base.path) [a]
    some { base with path, query }

/-- The URL that a reference with the scheme http or https names. -/
def absolute? (names : Host.Names) (base : Url) (secure : Bool) (cs : List Char) : Option Url :=
  match cs with
  | a :: b :: rest =>
    if secure == base.secure && !(isSlash a && isSlash b) then base.relative? names cs
    else readAuthority names secure ((a :: b :: rest).dropWhile isSlash)
  | _ => if secure == base.secure then base.relative? names cs else none

end Url

/-! ### Places to ask -/

/-- Where a response sends whoever asked. -/
inductive Location where
  /-- Nowhere that could be asked. -/
  | nowhere
  /-- To a URL of another scheme. -/
  | elsewhere
  | place (url : Url)
deriving DecidableEq, Repr, Inhabited

/-- What it takes to find a place beyond the rules for URLs: tables of names, and readers that have
limits of their own. -/
structure Resolver where
  names : Host.Names
  /-- Whether a request can be made for a URL. -/
  admits : Url → Bool
  /-- Where a location leads, seen from the URL that was asked. -/
  locate : Url → Bytes → Location

namespace Resolver

/-- The URL that a text names, if a request can be made for it. -/
def url? (w : Resolver) (s : String) : Option Url := (Url.parse? w.names s).filter w.admits

/-- Follows the rules for URLs and knows no international names. A reference with another scheme
counts as a URL. -/
def plain : Resolver where
  names := fun _ => none
  admits := fun _ => true
  locate base location :=
    match Text.ofBytes? location with
    | none => .nowhere
    | some reference =>
      let cs := Url.cleaned reference
      let place? : Option Url → Location := fun url? => url?.elim .nowhere .place
      match Url.splitScheme cs with
      | some ("http", rest) => place? (base.absolute? (fun _ => none) false rest)
      | some ("https", rest) => place? (base.absolute? (fun _ => none) true rest)
      | some _ => .elsewhere
      | none => place? (base.relative? (fun _ => none) cs)

instance : Inhabited Resolver := ⟨plain⟩

end Resolver

end Switchyard.Http
