import Switchyard.Numeric.Binary64

/-! JSON values. A reader that meets a fault keeps what it has read so far, with a
flaw in the place of what it could not read; a decoder then reports whichever comes
first, the flaw or a value of the wrong shape. -/
namespace Switchyard

/-- Why a place of a JSON text has no value. -/
inductive Flaw where
  /-- The text is no JSON from here on, or it ends. -/
  | torn
  /-- A string with half a surrogate pair, or a number beyond binary64. -/
  | void
  /-- A field whose name has no value. -/
  | name
deriving DecidableEq, Repr

/-- A JSON value; the fields of an object keep their order and repetitions. -/
inductive Json where
  | null
  | bool (b : Bool)
  | int (n : Int)
  | real (x : Binary64)
  | str (s : String)
  | arr (items : List Json)
  | obj (fields : List (String × Json))
  | flaw (f : Flaw)
deriving Inhabited

namespace Json

def text (s : String) : Json := .str s

def nat (n : Nat) : Json := .int n

/-! ### What a reader left unread -/

mutual
/-- Whether the text broke off inside this value. -/
def isTorn : Json → Bool
  | .arr items => anyTorn items
  | .obj fields => anyFieldTorn fields
  | .flaw f => f == .torn
  | _ => false
def anyTorn : List Json → Bool
  | [] => false
  | j :: rest => isTorn j || anyTorn rest
def anyFieldTorn : List (String × Json) → Bool
  | [] => false
  | (_, j) :: rest => isTorn j || anyFieldTorn rest
end

mutual
/-- Whether every part has a value and containers nest at most `depth` deep. -/
def isWhole (depth : Nat) : Json → Bool
  | .arr items => depth != 0 && allWhole (depth - 1) items
  | .obj fields => depth != 0 && allFieldsWhole (depth - 1) fields
  | .flaw _ => false
  | _ => true
def allWhole (depth : Nat) : List Json → Bool
  | [] => true
  | j :: rest => isWhole depth j && allWhole depth rest
def allFieldsWhole (depth : Nat) : List (String × Json) → Bool
  | [] => true
  | (_, j) :: rest => isWhole depth j && allFieldsWhole depth rest
end

/-- Whether this stands where a field's name has no value. -/
def isNameless : Json → Bool
  | .flaw .name => true
  | _ => false

/-- The deepest nesting that is read. -/
def maxDepth : Nat := 127

/-- The value of the last field of that name. -/
def field? (name : String) : Json → Option Json
  | .obj fields => (fields.reverse.find? (·.1 == name)).map (·.2)
  | _ => none

end Json

end Switchyard
