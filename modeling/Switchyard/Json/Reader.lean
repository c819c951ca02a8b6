import Switchyard.Json.Number
import Switchyard.Json.Token

/-! JSON values from tokens, with a stack of the containers that are open. The reader
always answers with a value; where the text is no JSON it closes what is open around
the flaw `torn`. -/
namespace Switchyard.Json

/-- An open container; what it holds so far is in reverse. -/
inductive Frame where
  | items (done : List Json)
  | fields (done : List (String × Json))
  | field (done : List (String × Json)) (name : Option String)

/-- What may come next. -/
inductive Want where
  | value | item | first | name | colon | more
deriving DecidableEq, Repr

/-- The outcome of one token. -/
inductive Move where
  | done (j : Json)
  | next (frames : List Frame) (want : Want)
  | stuck

/-- The field of a name; a name without a value leaves a flaw in the field's place. -/
def fieldOf (name : Option String) (j : Json) : List (String × Json) :=
  match name with
  | some name => [(name, j)]
  | none =>
    if j.isTorn then [("", .flaw .torn), ("", .flaw .name)] else [("", .flaw .name)]

/-- Puts a finished value into the innermost open container. -/
def deliver (j : Json) : List Frame → Move
  | [] => .done j
  | .items done :: frames => .next (.items (j :: done) :: frames) .more
  | .field done name :: frames => .next (.fields (fieldOf name j ++ done) :: frames) .more
  | .fields _ :: _ => .stuck

/-- Closes everything around a flaw. -/
def collapse : List Frame → Json → Json
  | [], j => j
  | .items done :: frames, j => collapse frames (.arr (j :: done).reverse)
  | .field done name :: frames, j => collapse frames (.obj (fieldOf name j ++ done).reverse)
  | .fields done :: frames, j => collapse frames (.obj (("", j) :: done).reverse)

def scalar (j : Option Json) : Json := j.getD (.flaw .void)

def openValue (frames : List Frame) : Token → Move
  | .null => deliver .null frames
  | .bool b => deliver (.bool b) frames
  | .number written => deliver (scalar (number? written)) frames
  | .string written =>
    deliver (scalar ((unescape written).map fun cs => .str (String.ofList cs))) frames
  | .openArr => .next (.items [] :: frames) .item
  | .openObj => .next (.fields [] :: frames) .first
  | _ => .stuck

def openField (frames : List Frame) : Token → Move
  | .string written =>
    match frames with
    | .fields done :: frames =>
      .next (.field done ((unescape written).map String.ofList) :: frames) .colon
    | _ => .stuck
  | _ => .stuck

def advance (frames : List Frame) (want : Want) (t : Token) : Move :=
  match want, t, frames with
  | .item, .closeArr, .items done :: frames => deliver (.arr done.reverse) frames
  | .first, .closeObj, .fields done :: frames => deliver (.obj done.reverse) frames
  | .more, .closeArr, .items done :: frames => deliver (.arr done.reverse) frames
  | .more, .closeObj, .fields done :: frames => deliver (.obj done.reverse) frames
  | .more, .comma, .items _ :: _ => .next frames .value
  | .more, .comma, .fields _ :: _ => .next frames .name
  | .colon, .colon, _ => .next frames .value
  | .value, t, _ => openValue frames t
  | .item, t, _ => openValue frames t
  | .first, t, _ => openField frames t
  | .name, t, _ => openField frames t
  | _, _, _ => .stuck

/-- A value and the tokens after it. -/
def build (frames : List Frame) (want : Want) : List Token → Json × List Token
  | [] => (collapse frames (.flaw .torn), [])
  | t :: rest =>
    match advance frames want t with
    | .done j => (j, rest)
    | .next frames want => build frames want rest
    | .stuck => (collapse frames (.flaw .torn), [])

/-- The value at the start of a text, and whether only blanks follow it. -/
def readPieces (pieces : List (Option Char)) : Json × Bool :=
  let (j, rest) := build [] .value (lexPieces .between pieces)
  (j, rest.isEmpty)

def readChars (cs : List Char) : Json × Bool := readPieces (cs.map some)

/-- The value of a text that is JSON from end to end. -/
def parse? (s : String) : Option Json :=
  let (j, alone) := readChars s.toList
  if alone && j.isWhole maxDepth then some j else none

end Switchyard.Json
