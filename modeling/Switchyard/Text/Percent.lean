import Switchyard.Text.Utf8

/-! Percent-encoding: `%` and two hexadecimal digits stand for a byte. A `%` without
two such digits stands for itself. -/
namespace Switchyard.Text.Percent

def hexDigit? (b : UInt8) : Option UInt8 :=
  if 48 ≤ b ∧ b ≤ 57 then some (b - 48)
  else if 65 ≤ b ∧ b ≤ 70 then some (b - 55)
  else if 97 ≤ b ∧ b ≤ 102 then some (b - 87)
  else none

def decode : Bytes → Bytes
  | [] => []
  | 37 :: a :: b :: rest =>
    match hexDigit? a, hexDigit? b with
    | some h, some l => (h * 16 + l) :: decode rest
    | _, _ => 37 :: decode (a :: b :: rest)
  | b :: rest => b :: decode rest

/-- The text that a percent-encoded one stands for; none if its bytes encode no text. -/
def decodeText? (s : String) : Option String := ofBytes? (decode (bytes s))

def hexDigit (n : UInt8) : UInt8 := if n < 10 then 48 + n else 55 + n

/-- The three bytes that stand for a byte. -/
def escape (b : UInt8) : Bytes := [37, hexDigit (b / 16), hexDigit (b % 16)]

/-- Escapes the bytes that are not kept as they are. -/
def encode (keeps : UInt8 → Bool) (bs : Bytes) : Bytes :=
  bs.flatMap fun b => if keeps b then [b] else escape b

end Switchyard.Text.Percent
