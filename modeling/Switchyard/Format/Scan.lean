import Switchyard.Numeric.Digits

/-! Scanners: readers that take a value from the front of a text and leave the rest, or
fail. Repetition ends where a step fails or takes nothing. -/
namespace Switchyard

abbrev Scan := StateT (List Char) Option

namespace Scan

def rest : Scan (List Char) := get

def peek : Scan (Option Char) := do return (← get).head?

def atEnd : Scan Bool := do return (← get).isEmpty

def next : Scan Char := fun cs =>
  match cs with
  | c :: rest => some (c, rest)
  | [] => none

def char (c : Char) : Scan Unit := fun cs =>
  match cs with
  | d :: rest => if d = c then some ((), rest) else none
  | [] => none

def literal : List Char → Scan Unit
  | [] => pure ()
  | c :: more => do char c; literal more

/-- Takes the text if it comes next. -/
def accept (text : List Char) : Scan Bool := fun cs =>
  if text.isPrefixOf cs then some (true, cs.drop text.length) else some (false, cs)

def takeWhile (p : Char → Bool) : Scan (List Char) := fun cs =>
  some (cs.takeWhile p, cs.dropWhile p)

def skipWhile (p : Char → Bool) : Scan Unit := do let _ ← takeWhile p

def manyFrom {α : Type} (p : Scan α) (cs : List Char) : List α × List Char :=
  match p cs with
  | none => ([], cs)
  | some (a, rest) =>
    if _h : rest.length < cs.length then
      let (more, rest) := manyFrom p rest
      (a :: more, rest)
    else ([], cs)
termination_by cs.length

/-- As many as there are. -/
def many {α : Type} (p : Scan α) : Scan (List α) := fun cs => some (manyFrom p cs)

/-- Values with a separator between any two of them. -/
def sepBy {α : Type} (p : Scan α) (sep : Scan Unit) : Scan (List α) := do
  match ← optional p with
  | none => return []
  | some a => return a :: (← many (do sep; p))

/-- Succeeds if the value is there. -/
def of? {α : Type} (a : Option α) : Scan α := fun cs => a.map fun a => (a, cs)

/-- A scanner for a whole text. -/
def whole? {α : Type} (p : Scan α) (cs : List Char) : Option α :=
  match p cs with
  | some (a, []) => some a
  | _ => none

/-- `count` hexadecimal digits as a character. -/
def hexChar (count : Nat) : Scan Char := do
  let cs ← get
  let digits := cs.take count
  match Numeric.readIn? 16 digits with
  | some n =>
    if digits.length = count ∧ n.isValidChar then
      set (cs.drop count)
      return Char.ofNat n
    else failure
  | none => failure

end Scan

end Switchyard
