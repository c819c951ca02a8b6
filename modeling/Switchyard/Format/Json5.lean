import Switchyard.Format.Scan
import Switchyard.Settings.Tree
import Switchyard.Text.Blank

/-! JSON5 texts: JSON with comments, names without quotes, single quotes, a comma after
the last item, and wider numbers. -/
namespace Switchyard.Json5

open Numeric Scan

def lineComment : Scan Unit := do
  literal ['/', '/']
  skipWhile (· ≠ '\n')

/-- The rest of a comment up to its end mark. -/
def blockRest : List Char → Option (List Char)
  | '*' :: '/' :: rest => some rest
  | _ :: rest => blockRest rest
  | [] => none

def blockComment : Scan Unit := do
  literal ['/', '*']
  match blockRest (← rest) with
  | some more => set more
  | none => failure

def blank : Scan Unit := do
  let c ← next
  if Text.isBlank c || c = '\ufeff' then return else failure

def spacing : Scan Unit := do
  let _ ← many (blank <|> lineComment <|> blockComment)

def escaped : Scan (List Char) := do
  match ← next with
  | 'b' => return ['\x08']
  | 'f' => return ['\x0c']
  | 'n' => return ['\n']
  | 'r' => return ['\r']
  | 't' => return ['\t']
  | 'v' => return ['\x0b']
  | '0' => return [Char.ofNat 0]
  | 'x' => return [← hexChar 2]
  | 'u' => return [← hexChar 4]
  | '\n' => return []
  | '\r' =>
    let _ ← accept ['\n']
    return []
  | c => if isDigit c then failure else return [c]

def piece (quote : Char) : Scan (List Char) := do
  let c ← next
  if c = quote || c = '\n' || c = '\r' then failure
  else if c = '\\' then escaped
  else return [c]

def string (quote : Char) : Scan String := do
  char quote
  let pieces ← many (piece quote)
  char quote
  return String.ofList pieces.flatten

/-- The value of a number: an integer of at most 63 bits, or of 32 in hexadecimal digits,
or a real. -/
def number? (cs : List Char) : Option Tree :=
  let (negative, body) := match cs with
    | '-' :: rest => (true, rest)
    | '+' :: rest => (false, rest)
    | _ => (false, cs)
  let decimal : Option Tree :=
    match readNat body with
    | some n =>
      let n := signed negative n
      if fitsWord n then some (.int n) else none
    | none =>
      match Binary64.readUnsigned negative body with
      | some (.finite negative m e) => some (.real (.finite negative m e))
      | _ => none
  match body with
  | ['I', 'n', 'f', 'i', 'n', 'i', 't', 'y'] => some (.real (.infinite negative))
  | ['N', 'a', 'N'] => some (.real .nan)
  | '0' :: x :: rest =>
    if x = 'x' ∨ x = 'X' then
      if body.length = cs.length then
        ((readIn? 16 rest).filter (· < limit32)).map fun n => .int n
      else none
    else if isDigit x then none
    else decimal
  | c :: _ => if isDigit c ∨ c = '.' then decimal else none
  | [] => none

def isNameChar (c : Char) : Bool := c.isAlphanum || c = '_' || c = '$' || 127 < c.toNat

def word : Scan Tree := do
  let cs ← takeWhile fun c => c.isAlphanum || c = '+' || c = '-' || c = '.'
  match String.ofList cs with
  | "null" => return .nil
  | "true" => return .bool true
  | "false" => return .bool false
  | _ => of? (number? cs)

def name : Scan String := do
  match ← peek with
  | some '"' => string '"'
  | some '\x27' => string '\x27'
  | _ =>
    let cs ← takeWhile isNameChar
    if cs.isEmpty || (cs.head?.any isDigit) then failure else return String.ofList cs

/-- A value; `depth` bounds the nesting. -/
def value : Nat → Scan Tree
  | 0 => failure
  | depth + 1 => do
    match ← peek with
    | some '"' => return .text (← string '"')
    | some '\x27' => return .text (← string '\x27')
    | some '[' =>
      char '['
      let items ← many (do
        spacing
        let t ← value depth
        spacing
        if (← peek) ≠ some ']' then char ','
        return t)
      spacing
      char ']'
      return .list items
    | some '\x7b' =>
      char '\x7b'
      let fields ← many (do
        spacing
        let key ← name
        spacing
        char ':'
        spacing
        let t ← value depth
        spacing
        if (← peek) ≠ some '\x7d' then char ','
        return (key, t))
      spacing
      char '\x7d'
      return .table (fields.foldl (fun fs f => Tree.setField f.1 f.2 fs) [])
    | _ => word

/-- The fields of the object that a text is. -/
def parse? (cs : List Char) : Option (List (String × Tree)) := do
  let t ← whole? (do spacing; let t ← value (cs.length + 1); spacing; return t) cs
  match t with
  | .table fields => some fields
  | _ => none

end Switchyard.Json5
