import Switchyard.Http.Message

/-! Media types: `type/subtype`, with parameters after semicolons. -/
namespace Switchyard.Http.MediaType

def isToken (c : Char) : Bool :=
  c.isAlphanum ||
    ['!', '#', '$', '%', '&', '\x27', '+', '-', '.', '^', '_', '\x60', '|', '~'].contains c

/-- The rest after a closing quote and the blanks behind it. -/
def afterQuote : List Char → Option (List Char)
  | [] => none
  | '"' :: rest => some (rest.dropWhile (· = ' '))
  | _ :: rest => afterQuote rest

/-- The rest after one parameter and the semicolon that follows it. -/
def afterParameter (cs : List Char) : Option (List Char) :=
  let close (rest : List Char) : Option (List Char) :=
    match rest with
    | [] => some []
    | ';' :: more => some more
    | _ => none
  let name := cs.takeWhile isToken
  if name.isEmpty then none
  else
    match cs.drop name.length with
    -- The first character between quotes is text, even where it is a quote.
    | '=' :: '"' :: rest => (afterQuote (rest.drop 1)).bind close
    | '=' :: ';' :: _ => none
    | '=' :: rest => close (rest.dropWhile isToken)
    | _ => none

/-- Whether `cs` is a list of parameters; `fuel` bounds their number. -/
def areParameters : Nat → List Char → Bool
  | 0, _ => false
  | fuel + 1, cs =>
    match cs.dropWhile (· = ' ') with
    | [] => true
    | cs =>
      match afterParameter cs with
      | some rest => areParameters fuel rest
      | none => false

/-- Type and subtype of a media type, in lower case. -/
def parse? (cs : List Char) : Option (List Char × List Char) :=
  let type := cs.takeWhile isToken
  match cs.drop type.length with
  | '/' :: rest =>
    let subtype := rest.takeWhile isToken
    let ok := match rest.drop subtype.length with
      | [] => true
      | ';' :: more => areParameters (more.length + 1) more
      | _ => false
    if ok && !type.isEmpty && !subtype.isEmpty then
      some (type.map Char.toLower, subtype.map Char.toLower)
    else none
  | _ => none

/-- A subtype without its suffix, and the suffix: what follows the last `+` that is not the first
character. -/
def splitSuffix (subtype : List Char) : List Char × Option (List Char) :=
  let suffix := (subtype.drop 1).reverse.takeWhile (· ≠ '+')
  if suffix.length + 1 < subtype.length then
    (subtype.take (subtype.length - suffix.length - 1), some suffix.reverse)
  else (subtype, none)

/-- Whether a header's value says that the body is JSON. -/
def isJson (value : Bytes) : Bool :=
  value.all (fun b => b = 9 || (32 ≤ b && b < 127)) &&
    match parse? (value.map fun b => Char.ofNat b.toNat) with
    | some (type, subtype) =>
      let (name, suffix) := splitSuffix subtype
      type = "application".toList && (name = "json".toList || suffix = some "json".toList)
    | none => false

end Switchyard.Http.MediaType
