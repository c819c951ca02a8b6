import Switchyard.Numeric.Digits

/-! Binary64 numbers in exact integer arithmetic: rounding a quotient to the
nearest number, ties to even; the shortest decimal that reads back; a fixed
number of decimal places; and reading a decimal. -/
namespace Switchyard

open Numeric

/-- A binary64 number; a finite one is `mantissa · 2 ^ exponent`, signed. -/
inductive Binary64 where
  | nan
  | infinite (negative : Bool)
  | finite (negative : Bool) (mantissa : Nat) (exponent : Int)
deriving DecidableEq, Repr, Inhabited

namespace Binary64

/-- The exponent of the subnormal numbers, the least one. -/
def minExponent : Int := -1074

def maxExponent : Int := 971

/-- The least mantissa of a number that is not subnormal, the 52nd power of two. -/
def fullMantissa : Nat := 4503599627370496

def zero : Binary64 := .finite false 0 minExponent

/-! ### Rounding -/

/-- The quotient rounded to the nearest integer, a half to the even one. -/
def roundDiv (num den : Nat) : Nat :=
  let q := num / den
  let r := num % den
  if den < 2 * r ∨ (den = 2 * r ∧ q % 2 = 1) then q + 1 else q

/-- `num / den` divided by `base ^ e`, as a fraction. -/
def scaled (base num den : Nat) (e : Int) : Nat × Nat :=
  match e with
  | .ofNat k => (num, den * Nat.pow base k)
  | .negSucc k => (num * Nat.pow base (k + 1), den)

/-- The binary64 number nearest to `num / den`. -/
def ofRatio (negative : Bool) (num den : Nat) : Binary64 :=
  if num = 0 then .finite negative 0 minExponent
  else
    let rough : Int := (num.log2 : Int) - (den.log2 : Int) - 53
    let wide := scaled 2 num den rough
    let fitted := if wide.1 / wide.2 < 2 * fullMantissa then rough else rough + 1
    let e := max fitted minExponent
    let f := scaled 2 num den e
    let m := roundDiv f.1 f.2
    let (m, e) := if m = 2 * fullMantissa then (fullMantissa, e + 1) else (m, e)
    if maxExponent < e then .infinite negative else .finite negative m e

def ofNat (n : Nat) : Binary64 := ofRatio false n 1

/-- Numerator and denominator of a finite number's magnitude. -/
def fraction (mantissa : Nat) (exponent : Int) : Nat × Nat :=
  match exponent with
  | .ofNat k => (mantissa * Nat.pow 2 k, 1)
  | .negSucc k => (mantissa, Nat.pow 2 (k + 1))

/-- The product of two finite magnitudes, rounded. -/
def times : Binary64 → Binary64 → Binary64
  | .finite _ m e, .finite _ n k =>
    let a := fraction m e
    let b := fraction n k
    ofRatio false (a.1 * b.1) (a.2 * b.2)
  | _, _ => .infinite false

/-- The quotient of two finite magnitudes, rounded. -/
def dividedBy : Binary64 → Binary64 → Binary64
  | .finite _ m e, .finite _ n k =>
    let a := fraction m e
    let b := fraction n k
    ofRatio false (a.1 * b.2) (a.2 * b.1)
  | .finite .., _ => zero
  | _, _ => .infinite false

/-- The quotient of two natural numbers, both rounded first. -/
def ofQuotient (num den : Nat) : Binary64 := dividedBy (ofNat num) (ofNat den)

def isZero : Binary64 → Bool
  | .finite _ m _ => m == 0
  | _ => false

def withSign (negative : Bool) : Binary64 → Binary64
  | .finite _ m e => .finite negative m e
  | .infinite _ => .infinite negative
  | .nan => .nan

/-! ### Decimal to binary -/

/-- The number nearest to `digits · 10 ^ power`. -/
def ofDecimal (negative : Bool) (digits : Nat) (power : Int) : Binary64 :=
  let size : Int := (natDigits digits).length + power
  if digits = 0 ∨ size < -330 then .finite negative 0 minExponent
  else if 310 < size then .infinite negative
  else
    let f := scaled 10 digits 1 (-power)
    ofRatio negative f.1 f.2

/-- The exponent part: nothing, or `e` with a signed whole number. -/
def readPower : List Char → Option Int
  | [] => some 0
  | c :: rest => if c = 'e' ∨ c = 'E' then readInt rest else none

/-- Digits with an optional point among them and an optional power of ten. -/
def readUnsigned (negative : Bool) (cs : List Char) : Option Binary64 :=
  let (whole, rest) := spanDigits cs
  let (part, rest) :=
    match rest with
    | '.' :: more => spanDigits more
    | _ => ([], rest)
  if whole.isEmpty && part.isEmpty then none
  else do
    let digits ← readDigits 0 (whole ++ part)
    let power ← readPower rest
    some (ofDecimal negative digits (power - part.length))

/-- A decimal, or a word for infinity or for no number, in either case. -/
def read (cs : List Char) : Option Binary64 :=
  let (negative, body) :=
    match cs with
    | '-' :: rest => (true, rest)
    | '+' :: rest => (false, rest)
    | _ => (false, cs)
  match String.ofList (body.map Char.toLower) with
  | "inf" | "infinity" => some (.infinite negative)
  | "nan" => some .nan
  | _ => readUnsigned negative body

/-! ### Binary to decimal -/

/-- Whether `num / den` reads as `m · 2 ^ e`, all scaled by four. -/
def readsBack (m : Nat) (e : Int) (num den : Nat) : Bool :=
  let low := if m = fullMantissa ∧ minExponent < e then 4 * m - 1 else 4 * m - 2
  let lo := fraction low (e - 2)
  let hi := fraction (4 * m + 2) (e - 2)
  if m % 2 = 0 then decide (lo.1 * den ≤ num * lo.2 ∧ num * hi.2 ≤ hi.1 * den)
  else decide (lo.1 * den < num * lo.2 ∧ num * hi.2 < hi.1 * den)

/-- `q · 10 ^ power` as a fraction. -/
def decimalFraction (q : Nat) (power : Int) : Nat × Nat := scaled 10 q 1 (-power)

/-- Searches the decimal grids downward from `10 ^ power` for the first with a
neighbour of the number that reads back, and takes the nearer of two. -/
def shortestFrom (m : Nat) (e : Int) : Nat → Int → Nat × Int
  | 0, power => (m, power)
  | fuel + 1, power =>
    let v := fraction m e
    let g := scaled 10 v.1 v.2 power
    let q := g.1 / g.2
    let below := decimalFraction q power
    let above := decimalFraction (q + 1) power
    let down := readsBack m e below.1 below.2
    let up := readsBack m e above.1 above.2
    let r := g.1 % g.2
    if down && (!up || decide (2 * r < g.2 ∨ (2 * r = g.2 ∧ q % 2 = 0))) then (q, power)
    else if up then (q + 1, power)
    else shortestFrom m e fuel (power - 1)

/-- The shortest decimal `digits · 10 ^ power` that reads back. -/
def shortest (m : Nat) (e : Int) : Nat × Int := shortestFrom m e 700 309

def signText (negative : Bool) : List Char := if negative then ['-'] else []

/-- Positional digits of `digits · 10 ^ power`, with a point only before a part. -/
def positional (digits : Nat) (power : Int) : List Char :=
  match power with
  | .ofNat k => natDigits digits ++ List.replicate k '0'
  | .negSucc k =>
    let ds := padLeft (k + 2) (natDigits digits)
    ds.take (ds.length - (k + 1)) ++ '.' :: ds.drop (ds.length - (k + 1))

/-- Shortest digits, always positional. -/
def plainText : Binary64 → String
  | .nan => "NaN"
  | .infinite negative => String.ofList (signText negative ++ "inf".toList)
  | .finite negative m e =>
    if m = 0 then String.ofList (signText negative ++ ['0'])
    else
      let (digits, power) := shortest m e
      String.ofList (signText negative ++ positional digits power)

/-- Shortest digits with a point in every positional number; powers of ten from
`10 ^ 16` up and below `10 ^ -5` are written with an exponent. -/
def pointedText (negative : Bool) (m : Nat) (e : Int) : List Char :=
  if m = 0 then signText negative ++ "0.0".toList
  else
    let (digits, power) := shortest m e
    let ds := natDigits digits
    let top : Int := ds.length + power
    let body :=
      if 0 ≤ power ∧ top ≤ 16 then positional digits power ++ ".0".toList
      else if -5 < top ∧ top ≤ 16 then positional digits power
      else
        match ds with
        | [d] => d :: 'e' :: intDigits (top - 1)
        | d :: rest => d :: '.' :: rest ++ 'e' :: intDigits (top - 1)
        | [] => []
    signText negative ++ body

/-- A finite number with exactly `places` decimals, a half to the even side. -/
def fixedText (places : Nat) : Binary64 → String
  | .nan => "nan"
  | .infinite negative => String.ofList (signText negative ++ "inf".toList)
  | .finite negative m e =>
    let f := fraction m e
    let scaledUp := roundDiv (f.1 * Nat.pow 10 places) f.2
    let ds := padLeft (places + 1) (natDigits scaledUp)
    let body :=
      if places = 0 then ds
      else ds.take (ds.length - places) ++ '.' :: ds.drop (ds.length - places)
    String.ofList (signText negative ++ body)

/-! ### Whole numbers -/

/-- The nearest integer, a half away from zero; none for no number. -/
def roundAway : Binary64 → Option Int
  | .finite negative m e =>
    let f := fraction m e
    let n := (2 * f.1 + f.2) / (2 * f.2)
    some (if negative then - (n : Int) else n)
  | _ => none

end Binary64

end Switchyard
