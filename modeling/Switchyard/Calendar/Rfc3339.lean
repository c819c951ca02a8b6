import Switchyard.Calendar.Instant
import Switchyard.Numeric.Digits
import Switchyard.Text.Blank

/-! Instants as text: `2024-01-02T03:04:05.120Z`. Writing is canonical, in UTC with
0, 3, 6 or 9 decimals of a second, the fewest that lose nothing. Reading is wider: any
offset, blanks between the parts, one-digit parts, further decimals cut off. -/
namespace Switchyard.Instant

open Switchyard.Calendar Switchyard.Numeric Switchyard.Text

/-! ### Writing -/

def twoDigits (n : Nat) : List Char := padLeft 2 (natDigits n)

/-- Four digits, or a sign and at least four outside the years 0 to 9999. -/
def yearText (year : Int) : List Char :=
  if 0 ≤ year ∧ year ≤ 9999 then padLeft 4 (natDigits year.toNat)
  else (if year < 0 then '-' else '+') :: padLeft 4 (natDigits year.natAbs)

def fractionText (nanos : Nat) : List Char :=
  if nanos = 0 then []
  else if nanos % 1000000 = 0 then '.' :: padLeft 3 (natDigits (nanos / 1000000))
  else if nanos % 1000 = 0 then '.' :: padLeft 6 (natDigits (nanos / 1000))
  else '.' :: padLeft 9 (natDigits nanos)

def chars (t : Instant) : List Char :=
  let d := dateOf (t.seconds.fdiv 86400)
  let s := (t.seconds.fmod 86400).toNat
  let leap := perSecond ≤ t.nanos
  yearText d.year ++ '-' :: twoDigits d.month ++ '-' :: twoDigits d.day ++
    'T' :: twoDigits (s / 3600) ++ ':' :: twoDigits (s / 60 % 60) ++
    ':' :: twoDigits (s % 60 + (if leap then 1 else 0)) ++
    fractionText (if leap then t.nanos - perSecond else t.nanos) ++ ['Z']

def text (t : Instant) : String := String.ofList t.chars

/-! ### Reading -/

/-- One to `width` digits. -/
def takeNumber (width : Nat) (cs : List Char) : Option (Nat × List Char) := do
  let run := (cs.take width).takeWhile isDigit
  let n ← readNat run
  some (n, cs.drop run.length)

/-- A year: up to four digits, or a sign and any number of them. -/
def takeYear (cs : List Char) : Option (Int × List Char) :=
  match cs with
  | '-' :: rest => (takeNumber rest.length rest).map fun p => (-(p.1 : Int), p.2)
  | '+' :: rest => (takeNumber rest.length rest).map fun p => ((p.1 : Int), p.2)
  | _ => (takeNumber 4 cs).map fun p => ((p.1 : Int), p.2)

/-- The rest after blanks and the character `c`. -/
def takeMark (c : Char) (cs : List Char) : Option (List Char) :=
  match dropBlanks cs with
  | d :: rest => if d = c then some rest else none
  | [] => none

/-- Blanks and a number of at most two digits. -/
def takePart (cs : List Char) : Option (Nat × List Char) := takeNumber 2 (dropBlanks cs)

/-- Nanoseconds after a point; digits after the ninth are dropped. -/
def takeFraction (cs : List Char) : Option (Nat × List Char) :=
  match cs with
  | '.' :: rest => do
    let run := (rest.take 9).takeWhile isDigit
    let n ← readNat run
    some (n * Nat.pow 10 (9 - run.length), (rest.drop run.length).dropWhile isDigit)
  | _ => some (0, cs)

/-- An offset from UTC in seconds: `Z`, the word UTC, or a sign, hours and minutes. -/
def takeOffset (cs : List Char) : Option (Int × List Char) :=
  let signed (negative : Bool) (rest : List Char) : Option (Int × List Char) :=
    match rest with
    | h1 :: h2 :: rest => do
      let hours ← readNat [h1, h2]
      match rest.dropWhile (fun c => c = ':' || isBlank c) with
      | m1 :: m2 :: rest =>
        let minutes ← readNat [m1, m2]
        let seconds : Int := hours * 3600 + minutes * 60
        if hours < 24 ∧ minutes < 60 then some (if negative then -seconds else seconds, rest)
        else none
      | _ => none
    | _ => none
  match cs with
  | 'Z' :: rest | 'z' :: rest => some (0, rest)
  | '+' :: rest => signed false rest
  | '-' :: rest | '\u2212' :: rest => signed true rest
  | u :: t :: c :: rest =>
    if [u, t, c].map Char.toUpper = ['U', 'T', 'C'] then some (0, rest) else none
  | _ => none

def isSeparator (c : Char) : Bool := c = 'T' || c = 't' || c = ' '

/-- The instant written by `cs`. A sixtieth second is read as a leap second. -/
def readChars (cs : List Char) : Option Instant := do
  let (year, cs) ← takeYear (dropBlanks cs)
  let cs ← takeMark '-' cs
  let (month, cs) ← takePart cs
  let cs ← takeMark '-' cs
  let (day, cs) ← takePart cs
  let cs ← match cs with
    | c :: rest => if isSeparator c then some rest else none
    | [] => none
  let (hour, cs) ← takePart cs
  let cs ← takeMark ':' cs
  let (minute, cs) ← takePart cs
  let cs ← takeMark ':' cs
  let (second, cs) ← takePart cs
  let (nanos, cs) ← takeFraction cs
  let (offset, cs) ← takeOffset (dropBlanks cs)
  if !(cs.all isBlank) then none
  else if year < -262143 ∨ 262142 < year then none
  else if day = 0 ∨ daysInMonth year month < day then none
  else if 23 < hour ∨ 59 < minute ∨ 60 < second then none
  else
    let days := dayCount ⟨year, month, day⟩
    let (second, nanos) := if second = 60 then (59, nanos + perSecond) else (second, nanos)
    let seconds := days * 86400 + (hour * 3600 + minute * 60 + second : Nat) - offset
    some ⟨seconds, nanos⟩

def read? (s : String) : Option Instant := readChars s.toList

end Switchyard.Instant
