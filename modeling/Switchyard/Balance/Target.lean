import Switchyard.Registry.Instance

/-! Targets: the URL on a chosen instance for what a caller asked for, and the part of
the caller's path that belongs to the instance. -/
namespace Switchyard.Target

/-- The URL on an instance for a path and a query; an empty query is none. -/
def url (i : Instance) (path : String) (query : Option String) : String :=
  match query with
  | some q => if q = "" then i.baseUrl ++ path else i.baseUrl ++ path ++ "?" ++ q
  | none => i.baseUrl ++ path

/-- What follows the first occurrence of `mark`. -/
def after? (mark : List Char) : List Char → Option (List Char)
  | [] => if mark = [] then some [] else none
  | c :: rest =>
    if mark.isPrefixOf (c :: rest) then some ((c :: rest).drop mark.length) else after? mark rest

/-- The path below the service's segment, as it was sent. -/
def subPathChars (path : List Char) : List Char :=
  match after? "/proxy/".toList path with
  | none => ['/']
  | some rest =>
    match after? ['/'] rest with
    | none => ['/']
    | some tail => '/' :: tail

def subPath (path : String) : String := String.ofList (subPathChars path.toList)

end Switchyard.Target
