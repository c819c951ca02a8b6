import Switchyard.Json.Reader
import Switchyard.Keyed
import Switchyard.Text.Utf8

/-! Typed reading of JSON values. A decoder answers with a value or with a refusal:
the text is malformed, or it is JSON of another shape. Of several faults the first in
the order of the text decides. -/
namespace Switchyard.Json

/-- Why a JSON text does not stand for a value of the wanted type. -/
inductive Refusal where
  | malformed
  | mistyped
deriving DecidableEq, Repr

abbrev Decoder (α : Type) := Json → Except Refusal α

namespace Decoder

/-! ### Scalars -/

/-- Refuses a value that is not of the wanted kind. -/
def refuse {α : Type} : Decoder α
  | .flaw _ => .error .malformed
  | _ => .error .mistyped

def string : Decoder String
  | .str s => .ok s
  | j => refuse j

/-- A whole number from 0 to `most`. -/
def nat (most : Nat) : Decoder Nat
  | .int n => if 0 ≤ n ∧ n ≤ most then .ok n.toNat else .error .mistyped
  | j => refuse j

def option {α : Type} (d : Decoder α) : Decoder (Option α)
  | .null => .ok none
  | j => (d j).map some

/-- A decoded value that `convert` may still refuse. -/
def converting {α β : Type} (d : Decoder α) (convert : α → Option β) : Decoder β := fun j =>
  match d j with
  | .error r => .error r
  | .ok a =>
    match convert a with
    | some b => .ok b
    | none => .error .mistyped

def word16 : Decoder UInt16 := converting (nat 65535) fun n => some n.toUInt16

def word32 : Decoder UInt32 := converting (nat 4294967295) fun n => some n.toUInt32

def word64 : Decoder UInt64 := converting (nat 18446744073709551615) fun n => some n.toUInt64

/-! ### Choices among names -/

/-- One of several names, as a text or as an object whose only field is that name with
the value null. With `lenient` the field may also hold an empty object. -/
def choice {α : Type} (lenient : Bool) (named : String → Option α) : Decoder α
  | .str s => match named s with
    | some a => .ok a
    | none => .error .mistyped
  | .obj [(k, v)] =>
    match named k, v with
    | some a, .null => .ok a
    | some a, .obj [] => if lenient then .ok a else .error .mistyped
    | _, v => refuse v
  | j => refuse j

/-! ### Maps and records -/

/-- Decodes the fields of an object into a map; of two fields with one name the later counts. -/
def fieldsInto {α : Type} (d : Decoder α) (m : Keyed α) :
    List (String × Json) → Except Refusal (Keyed α)
  | [] => .ok m
  | (k, j) :: rest =>
    if j.isNameless then .error .malformed
    else match d j with
    | .error r => .error r
    | .ok a => fieldsInto d (m.insert k a) rest

def keyed {α : Type} (d : Decoder α) : Decoder (Keyed α)
  | .obj fields => fieldsInto d ∅ fields
  | j => refuse j

/-- A field of a record: its name and which values it admits. -/
structure Slot where
  name : String
  admits : Json → Except Refusal Unit

def slot {α : Type} (name : String) (d : Decoder α) : Slot :=
  ⟨name, fun j => (d j).map fun _ => ()⟩

/-- Looks at the fields of an object in their order: a known field must come once and
hold an admitted value, an unknown one must only be JSON. -/
def checkFields (slots : List Slot) (seen : List String) :
    List (String × Json) → Except Refusal Unit
  | [] => .ok ()
  | (k, j) :: rest =>
    if j.isNameless then .error .malformed
    else match slots.find? (·.name = k) with
    | none => if j.isTorn then .error .malformed else checkFields slots seen rest
    | some s =>
      if seen.contains k then .error .mistyped
      else match s.admits j with
      | .error r => .error r
      | .ok () => checkFields slots (k :: seen) rest

/-- Looks at the items of an array as the values of the fields in their order. -/
def checkItems : List Slot → List Json → Except Refusal Unit
  | _, [] => .ok ()
  | [], _ :: _ => .error .malformed
  | s :: slots, j :: rest =>
    match s.admits j with
    | .error r => .error r
    | .ok () => checkItems slots rest

/-- The value that a record's text has for a field. -/
abbrev Given := String → Option Json

def givenFields (fields : List (String × Json)) : Given := fun name =>
  (fields.find? (·.1 = name)).map (·.2)

def givenItems (slots : List Slot) (items : List Json) : Given := fun name =>
  ((slots.zip items).find? (·.1.name = name)).map (·.2)

/-- A record, as an object or as an array of its fields' values. -/
def record {α : Type} (slots : List Slot) (build : Given → Except Refusal α) : Decoder α
  | .obj fields =>
    match checkFields slots [] fields with
    | .error r => .error r
    | .ok () => build (givenFields fields)
  | .arr items =>
    match checkItems slots items with
    | .error r => .error r
    | .ok () => build (givenItems slots items)
  | j => refuse j

/-- The value of a field that must be there. -/
def required {α : Type} (given : Given) (name : String) (d : Decoder α) : Except Refusal α :=
  match given name with
  | some j => d j
  | none => .error .mistyped

/-- The value of a field that may be left out. -/
def defaulted {α : Type} (given : Given) (name : String) (d : Decoder α) (default : α) :
    Except Refusal α :=
  match given name with
  | some j => d j
  | none => .ok default

/-! ### Tagged values -/

/-- A value whose field `type` says which of several decoders reads its other fields. As
an array it starts with the tag. It is read only if all of it is JSON. -/
def tagged {α : Type} (variants : String → Option (Decoder α)) : Decoder α := fun j =>
  let pick (tag : String) (content : Json) : Except Refusal α :=
    match variants tag with
    | some d => d content
    | none => .error .mistyped
  if j.isWhole maxDepth then
    match j with
    | .obj fields =>
      match fields.filter (·.1 = "type") with
      | [(_, .str tag)] => pick tag (.obj (fields.filter (·.1 ≠ "type")))
      | _ => .error .mistyped
    | .arr (.str tag :: rest) => pick tag (.arr rest)
    | _ => .error .mistyped
  else .error .malformed

/-- The content of a tag that says all. -/
def bare {α : Type} (a : α) : Decoder α
  | .obj _ => .ok a
  | .arr [] => .ok a
  | _ => .error .mistyped

/-! ### Texts -/

/-- Reads the value at the start of a text in bytes. -/
def readFront {α : Type} (d : Decoder α) (bs : Bytes) : Except Refusal α :=
  d (readPieces (Text.pieces bs)).1

/-- Reads a text that holds one value and nothing after it. -/
def read {α : Type} (d : Decoder α) (s : String) : Except Refusal α :=
  let (j, alone) := readChars s.toList
  match d j with
  | .error r => .error r
  | .ok a => if alone then .ok a else .error .malformed

end Decoder

end Switchyard.Json
