import Switchyard.Numeric.Word

/-! Decimal digits: natural numbers and integers as text, and back. -/
namespace Switchyard.Numeric

def digitChar (d : Nat) : Char := Char.ofNat (48 + d)

/-- The value of an ASCII digit. -/
def digitValue? (c : Char) : Option Nat :=
  if '0' ≤ c ∧ c ≤ '9' then some (c.toNat - 48) else none

def isDigit (c : Char) : Bool := (digitValue? c).isSome

/-- Digits of `n`, least significant last, after those in `acc`. -/
def digitsInto (fuel n : Nat) (acc : List Char) : List Char :=
  match fuel with
  | 0 => acc
  | fuel + 1 =>
    if n < 10 then digitChar n :: acc
    else digitsInto fuel (n / 10) (digitChar (n % 10) :: acc)

/-- The decimal digits of a natural number, without leading zeros. -/
def natDigits (n : Nat) : List Char := digitsInto (n.log2 + 1) n []

def natText (n : Nat) : String := String.ofList (natDigits n)

def intDigits : Int → List Char
  | .ofNat n => natDigits n
  | .negSucc n => '-' :: natDigits (n + 1)

def intText (n : Int) : String := String.ofList (intDigits n)

/-- The number written by the digits of `cs`, read after `acc`. -/
def readDigits (acc : Nat) : List Char → Option Nat
  | [] => some acc
  | c :: rest =>
    match digitValue? c with
    | some d => readDigits (acc * 10 + d) rest
    | none => none

/-- One or more digits and nothing else. -/
def readNat : List Char → Option Nat
  | [] => none
  | cs => readDigits 0 cs

/-- Digits after an optional sign. -/
def readInt : List Char → Option Int
  | '-' :: rest => (readNat rest).map (signed true)
  | '+' :: rest => (readNat rest).map Int.ofNat
  | cs => (readNat cs).map Int.ofNat

/-! ### Other bases -/

/-- The value of a digit in a base up to sixteen, letters in either case. -/
def digitIn? (base : Nat) (c : Char) : Option Nat :=
  let n := if '0' ≤ c ∧ c ≤ '9' then c.toNat - 48
    else if 'a' ≤ c ∧ c ≤ 'f' then c.toNat - 87
    else if 'A' ≤ c ∧ c ≤ 'F' then c.toNat - 55
    else base
  if n < base then some n else none

/-- One or more digits in a base up to sixteen. -/
def readIn? (base : Nat) : List Char → Option Nat
  | [] => none
  | cs => cs.foldlM (fun n c => (digitIn? base c).map fun d => n * base + d) 0

/-- The digit of a number below sixteen, letters in lower case. -/
def hexDigit (n : Nat) : Char := if n < 10 then Char.ofNat (48 + n) else Char.ofNat (87 + n)

/-- The hexadecimal digits of a natural number, without leading zeros. -/
def hexDigits (n : Nat) : List Char := Nat.toDigits 16 n

/-! ### Parts of texts -/

/-- `cs` padded with zeros on the left to `width` characters. -/
def padLeft (width : Nat) (cs : List Char) : List Char :=
  List.replicate (width - cs.length) '0' ++ cs

/-- The longest run of digits in front, and what follows it. -/
def spanDigits (cs : List Char) : List Char × List Char := cs.span isDigit

end Switchyard.Numeric
