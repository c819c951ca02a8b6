import Switchyard.Format.Json5

/-! RON texts: structures in parentheses, maps in braces, lists in brackets. -/
namespace Switchyard.Ron

open Numeric Scan Json5

def isNameStart (c : Char) : Bool := c.isAlpha || c = '_'

def identifier : Scan String := do
  match ← peek with
  | some c =>
    if isNameStart c then
      return String.ofList (← takeWhile fun c => c.isAlphanum || c = '_')
    else failure
  | none => failure

/-- The value of a number: an integer of at most 63 bits in base ten, two, eight or
sixteen, or a real. -/
def number? (cs : List Char) : Option Tree :=
  let (negative, body) := match cs.filter (· ≠ '_') with
    | '-' :: rest => (true, rest)
    | '+' :: rest => (false, rest)
    | cs => (false, cs)
  let n? : Option Nat := match body with
    | '0' :: 'b' :: rest => readIn? 2 rest
    | '0' :: 'o' :: rest => readIn? 8 rest
    | '0' :: 'x' :: rest => readIn? 16 rest
    | _ => readNat body
  match n? with
  | some n =>
    let n := signed negative n
    if fitsWord n then some (.int n) else none
  | none => (Binary64.readUnsigned negative body).map .real

def numberWord : Scan Tree := do
  let cs ← takeWhile fun c => c.isAlphanum || c = '+' || c = '-' || c = '.' || c = '_'
  of? (number? cs)

/-- Items with commas between them, up to a closing mark. -/
def itemsUntil {α : Type} (close : Char) (item : Scan α) : Scan (List α) := do
  let items ← many (do
    spacing
    let a ← item
    spacing
    if (← peek) ≠ some close then char ','
    return a)
  spacing
  char close
  return items

def keyOf : Tree → Option String
  | .text s => some s
  | _ => none

def tableOf (fields : List (String × Tree)) : Tree :=
  .table (fields.foldl (fun fs f => Tree.setField f.1 f.2 fs) [])

/-- A value; `depth` bounds the nesting. -/
def value : Nat → Scan Tree
  | 0 => failure
  | depth + 1 => do
    match ← peek with
    | some '"' => return .text (← string '"')
    | some '[' =>
      char '['
      return .list (← itemsUntil ']' (value depth))
    | some '\x7b' =>
      char '\x7b'
      let fields ← itemsUntil '\x7d' (do
        let key ← of? (keyOf (← value depth))
        spacing
        char ':'
        spacing
        return (key, ← value depth))
      return tableOf fields
    | some '(' => parenthesised depth
    | some c =>
      if isNameStart c then
        match ← identifier with
        | "true" => return .bool true
        | "false" => return .bool false
        | "None" => return .nil
        | "inf" => return .real (.infinite false)
        | "NaN" => return .real .nan
        | "Some" =>
          spacing
          char '('
          spacing
          let t ← value depth
          spacing
          char ')'
          return t
        | _ =>
          spacing
          if (← peek) = some '(' then parenthesised depth else return .nil
      else numberWord
    | none => failure
where
  parenthesised (depth : Nat) : Scan Tree := do
    char '('
    let fields ← optional (do
      let fields ← itemsUntil ')' (do
        let key ← identifier
        spacing
        char ':'
        spacing
        return (key, ← value depth))
      if fields.isEmpty then failure else return fields)
    match fields with
    | some fields => return tableOf fields
    | none =>
      let items ← itemsUntil ')' (value depth)
      return if items.isEmpty then .nil else .list items

/-- The fields of the structure or map that a text is. -/
def parse? (cs : List Char) : Option (List (String × Tree)) := do
  let t ← whole? (do spacing; let t ← value (cs.length + 1); spacing; return t) cs
  match t with
  | .table fields => some fields
  | _ => none

end Switchyard.Ron
