import Switchyard.Json.Value

/-! The value of a JSON number. One without point and power that fits 64 bits is an
integer. Any other is a significand of at most 64 bits and a power of ten, each rounded
to binary64 and then combined, which may miss the nearest number by the last place. -/
namespace Switchyard.Json

open Numeric

def maxSignificand : Nat := limit64 - 1

/-- The largest power of ten that is read in full. -/
def maxPower : Nat := 2147483647

/-- Significand and the number of digits that did not fit. -/
def gather (significand : Nat) : List Char → Nat × Nat
  | [] => (significand, 0)
  | c :: rest =>
    let next := significand * 10 + (c.toNat - 48)
    if maxSignificand < next then (significand, rest.length + 1) else gather next rest

/-- `significand · 10 ^ power`; none beyond the largest number. -/
def combine : Nat → Binary64 → Int → Option Binary64
  | 0, f, _ => some f
  | fuel + 1, f, power =>
    if power.natAbs ≤ 308 then
      let scale := Binary64.ofNat (Nat.pow 10 power.natAbs)
      if 0 ≤ power then
        match f.times scale with
        | .infinite _ => none
        | x => some x
      else some (f.dividedBy scale)
    else if f.isZero then some f
    else if 0 ≤ power then none
    else combine fuel (f.dividedBy (Binary64.ofNat (Nat.pow 10 308))) (power + 308)

/-- The parts of a number's text: sign, digits, digits after the point, power. -/
structure NumberText where
  negative : Bool
  whole : List Char
  part : Option (List Char)
  power : Option (Bool × List Char)

def NumberText.ofChars (cs : List Char) : NumberText :=
  let (negative, cs) := match cs with
    | '-' :: rest => (true, rest)
    | _ => (false, cs)
  let (whole, cs) := spanDigits cs
  let (part, cs) := match cs with
    | '.' :: rest => let (p, rest) := spanDigits rest; (some p, rest)
    | _ => (none, cs)
  let power := match cs with
    | _ :: '-' :: rest => some (true, rest)
    | _ :: '+' :: rest => some (false, rest)
    | _ :: rest => some (false, rest)
    | [] => none
  ⟨negative, whole, part, power⟩

def NumberText.real (t : NumberText) : Option Binary64 :=
  let (high, dropped) := gather 0 t.whole
  let part := t.part.getD []
  let (significand, lost) := gather high part
  let start : Int := (dropped : Int) - ((part.length - lost : Nat) : Int)
  let magnitude :=
    match t.power with
    | none => combine 4 (Binary64.ofNat significand) start
    | some (down, digits) =>
      let power := (readDigits 0 digits).getD 0
      if maxPower < power then
        if significand ≠ 0 ∧ !down then none else some Binary64.zero
      else combine 4 (Binary64.ofNat significand) (if down then start - power else start + power)
  magnitude.map (·.withSign t.negative)

/-- The value of a well-formed number; none beyond the largest one. -/
def number? (cs : List Char) : Option Json :=
  let t := NumberText.ofChars cs
  let whole := (readDigits 0 t.whole).getD 0
  match t.part, t.power with
  | none, none =>
    if !t.negative && whole ≤ maxSignificand then some (.int whole)
    else if t.negative && whole ≠ 0 && fitsWord (-(whole : Int)) then some (.int (-(whole : Int)))
    else t.real.map .real
  | _, _ => t.real.map .real

end Switchyard.Json
