import Switchyard.Format.Scan
import Switchyard.Settings.Tree

/-! INI files: sections in brackets and keys with their values. Every value is a text. -/
namespace Switchyard.Ini

open Scan

def isGap (c : Char) : Bool := c = ' ' || c = '\t' || c = '\r'

def trimmed (cs : List Char) : List Char :=
  ((cs.dropWhile isGap).reverse.dropWhile isGap).reverse

/-- A value up to a comment, which starts after a blank. -/
def uncommented : List Char → List Char
  | [] => []
  | ' ' :: c :: rest => if c = ';' ∨ c = '#' then [] else ' ' :: uncommented (c :: rest)
  | c :: rest => c :: uncommented rest

/-- The text of a value after its escapes. -/
def unescaped : List Char → List Char
  | '\\' :: c :: rest =>
    (match c with
      | 'n' => '\n'
      | 'r' => '\r'
      | 't' => '\t'
      | '0' => Char.ofNat 0
      | 'b' => '\x08'
      | 'f' => '\x0c'
      | c => c) :: unescaped rest
  | c :: rest => c :: unescaped rest
  | [] => []

/-- A value, in quotes or not. -/
def value? (cs : List Char) : Option String :=
  match trimmed cs with
  | q :: rest =>
    if q = '"' ∨ q = '\x27' then
      let inside := rest.takeWhile (· ≠ q)
      if inside.length < rest.length then some (String.ofList (unescaped inside)) else none
    else some (String.ofList (trimmed (unescaped (uncommented (q :: rest)))))
  | [] => some ""

/-- Fields so far, and the section that is open. -/
structure Document where
  fields : List (String × Tree) := []
  current : Option String := none

def store (d : Document) (key : String) (value : Tree) : Document :=
  match d.current with
  | none => { d with fields := Tree.setField key value d.fields }
  | some section_ =>
    let inside := ((Tree.table d.fields).get? section_).getD (.table [])
    { d with
      fields := Tree.setField section_ (.table (Tree.setField key value inside.fields)) d.fields }

def line? (d : Document) (cs : List Char) : Option Document :=
  match trimmed cs with
  | [] => some d
  | ';' :: _ | '#' :: _ => some d
  | '[' :: rest =>
    let name := rest.takeWhile (· ≠ ']')
    if name.length < rest.length then
      let name := String.ofList (trimmed name)
      let opened := ((Tree.table d.fields).get? name).getD (.table [])
      some { fields := Tree.setField name opened d.fields, current := some name }
    else none
  | cs =>
    let isMark (c : Char) : Bool := c = '=' || c = ':'
    let key := cs.takeWhile (!isMark ·)
    match cs.drop key.length with
    | _ :: rest =>
      (value? rest).map fun v => store d (String.ofList (trimmed key)) (.text v)
    | [] => none

def parse? (cs : List Char) : Option (List (String × Tree)) :=
  ((cs.splitOn '\n').foldlM line? {}).map (·.fields)

end Switchyard.Ini
