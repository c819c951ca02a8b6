/-! Texts as bytes in UTF-8. Reading is strict (all of the bytes or nothing), piece by piece
with a gap where the bytes fit no character, or lenient with U+FFFD for the gaps. -/
namespace Switchyard

abbrev Bytes := List UInt8

namespace Text

def bytes (s : String) : Bytes := s.toUTF8.data.toList

/-- The text that the bytes encode. -/
def ofBytes? (bs : Bytes) : Option String := String.fromUTF8? ⟨bs.toArray⟩

theorem ofBytes?_bytes (s : String) : ofBytes? (bytes s) = some s := by
  simp [ofBytes?, bytes, String.fromUTF8?, String.toUTF8, String.fromUTF8, s.isValidUTF8]

/-! ### Bytes that may encode no text -/

/-- How many bytes follow a leading one, and the range of the first of them. -/
def follow (lead : UInt8) : Option (Nat × UInt8 × UInt8) :=
  if lead < 0x80 then some (0, 0, 0)
  else if lead < 0xC2 then none
  else if lead < 0xE0 then some (1, 0x80, 0xBF)
  else if lead = 0xE0 then some (2, 0xA0, 0xBF)
  else if lead = 0xED then some (2, 0x80, 0x9F)
  else if lead < 0xF0 then some (2, 0x80, 0xBF)
  else if lead = 0xF0 then some (3, 0x90, 0xBF)
  else if lead < 0xF4 then some (3, 0x80, 0xBF)
  else if lead = 0xF4 then some (3, 0x80, 0x8F)
  else none

/-- The bytes at the front that continue a character, at most `count` of them. -/
def tailOf : Nat → UInt8 → UInt8 → Bytes → Bytes
  | 0, _, _, _ => []
  | _, _, _, [] => []
  | count + 1, low, high, b :: rest =>
    if low ≤ b ∧ b ≤ high then b :: tailOf count 0x80 0xBF rest else []

/-- The number encoded by a leading byte and the bytes that follow it. -/
def codePoint (lead : UInt8) (tail : Bytes) : Nat :=
  let top := match tail.length with
    | 0 => lead.toNat
    | 1 => lead.toNat % 32
    | 2 => lead.toNat % 16
    | _ => lead.toNat % 8
  tail.foldl (fun n b => n * 64 + b.toNat % 64) top

/-- The first character, none where the bytes fit no character, and the number of
bytes after the leading one that belong to it. -/
def firstChar (lead : UInt8) (rest : Bytes) : Option Char × Nat :=
  match follow lead with
  | none => (none, 0)
  | some (count, low, high) =>
    let tail := tailOf count low high rest
    if tail.length = count then (some (Char.ofNat (codePoint lead tail)), count)
    else (none, tail.length)

/-- The characters, with none for each longest run of bytes that starts one and does not
end it. -/
def pieces : Bytes → List (Option Char)
  | [] => []
  | lead :: rest => (firstChar lead rest).1 :: pieces (rest.drop (firstChar lead rest).2)
termination_by bs => bs.length
decreasing_by simp only [List.length_drop, List.length_cons]; omega

/-- The characters, with U+FFFD for what encodes none. -/
def lenient (bs : Bytes) : List Char := (pieces bs).map (·.getD '\ufffd')

end Text

end Switchyard
