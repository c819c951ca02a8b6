import Switchyard.Numeric.Binary64

/-! Trees: what a file or the environment says before it is known what it means. Layers
are put over one another key by key; keys are in lower case. -/
namespace Switchyard

inductive Tree where
  | nil
  | bool (b : Bool)
  | int (n : Int)
  | real (x : Binary64)
  | text (s : String)
  | list (items : List Tree)
  | table (fields : List (String × Tree))
deriving Inhabited

namespace Tree

def fields : Tree → List (String × Tree)
  | table fs => fs
  | _ => []

def items : Tree → List Tree
  | list ts => ts
  | _ => []

def get? (t : Tree) (key : String) : Option Tree := (t.fields.find? (·.1 = key)).map (·.2)

/-- Stores a value under a key, in place of an earlier one. -/
def setField (key : String) (value : Tree) : List (String × Tree) → List (String × Tree)
  | [] => [(key, value)]
  | (k, v) :: rest => if k = key then (k, value) :: rest else (k, v) :: setField key value rest

/-- Stores an item, behind as many empty ones as it takes. -/
def setItem (k : Nat) (value : Tree) (items : List Tree) : List Tree :=
  (items ++ List.replicate (k + 1 - items.length) nil).set k value

/-- A key in lower case. Of the letters beyond ASCII the sign for kelvin is the one whose lower
case is an ASCII letter. -/
def lower (key : String) : String := key.map fun c => if c = '\u212A' then 'k' else c.toLower

mutual
/-- Puts a value over what a tree has under a key. A table is put over a table field by
field; everything else takes the place of what was there. -/
def put (key : String) : Tree → Tree → Tree
  | table incoming, root =>
    let key := lower key
    table (setField key (putAll incoming ((root.get? key).getD (table []))) root.fields)
  | value, root => table (setField (lower key) value root.fields)
def putAll : List (String × Tree) → Tree → Tree
  | [], root => root
  | (key, value) :: rest, root => putAll rest (put key value root)
end

/-! ### Paths -/

/-- A step from a tree: to a field of a table, or to an item of a list. Places below zero are
counted from the end. -/
inductive Step where
  | field (key : String)
  | item (place : Int)
deriving DecidableEq, Repr

/-- Which item of a list is at a place; there is none before the first. -/
def position? (place : Int) (length : Nat) : Option Nat :=
  if 0 ≤ place then some place.toNat
  else if place.natAbs ≤ length then some (length - place.natAbs)
  else none

/-- Puts a value at the end of a path. What has no fields or no items gets them from scratch where
a step needs them, and a step before the first item leads nowhere. -/
def putAt (value : Tree) : List Step → Tree → Tree
  | [], _ => value
  | [.field key], root => put key value root
  | .field key :: path, root =>
    let key := lower key
    table (setField key (putAt value path ((root.get? key).getD (table []))) root.fields)
  | .item place :: path, root =>
    match position? place root.items.length with
    | some k => list (setItem k (putAt value path (root.items[k]?.getD (table []))) root.items)
    | none => list root.items

/-- Whether a path has a step before the first item of a list. -/
def falls : List Step → Tree → Bool
  | [], _ => false
  | .field key :: path, root => falls path ((root.get? (lower key)).getD (table []))
  | .item place :: path, root =>
    match position? place root.items.length with
    | some k => falls path (root.items[k]?.getD (table []))
    | none => true

/-- What stands between brackets: a number of 64 bits, with blanks around it. -/
def place? (cs : List Char) : Option Int :=
  let isBlank (c : Char) : Bool := c = ' ' || c = '\t'
  let place? : Option Int := match ((cs.dropWhile isBlank).reverse.dropWhile isBlank).reverse with
    | '-' :: digits => (Numeric.readNat digits).map (Numeric.signed true)
    | digits => (Numeric.readNat digits).map Int.ofNat
  place?.filter Numeric.fitsWord

/-- A word, and the places in brackets behind it. -/
def steps? (cs : List Char) : Option (List Step) :=
  match cs.splitOn '[' with
  | [] => none
  | word :: places =>
    let isWord : Bool := !word.isEmpty && word.all fun c =>
      c.isAlphanum || c = ' ' || c = '_' || c = '-'
    if isWord then
      (places.mapM fun p => if p.getLast? = some ']' then place? p.dropLast else none).map
        fun ns => .field (String.ofList word) :: ns.map .item
    else none

/-- The path that a dotted key stands for; a key that stands for none counts as one word. -/
def path (key : String) : List Step :=
  match (key.toList.splitOn '.').mapM steps? with
  | some parts => parts.flatten
  | none => [.field key]

/-! ### Layers -/

/-- Puts the fields of a layer over a tree, each where its dotted key leads. Of keys that differ in
case only, and of a value and the keys within it, the later one counts; a map has no order of its
own, so either of them may be that. -/
def overlay (layer : List (String × Tree)) (root : Tree) : Tree :=
  layer.foldl (fun root field => putAt field.2 (path field.1) root) root

/-- Whether a dotted key of a layer leads before the first item of a list. -/
def overlayFalls : List (String × Tree) → Tree → Bool
  | [], _ => false
  | field :: rest, root =>
    falls (path field.1) root || overlayFalls rest (putAt field.2 (path field.1) root)

end Tree

end Switchyard
