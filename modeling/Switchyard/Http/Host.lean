import Switchyard.Numeric.Digits
import Switchyard.Text.Percent

/-! Hosts of URLs: names in lower case, IPv4 addresses in any of their spellings, and
IPv6 addresses in brackets. How an international name is spelled in ASCII is given. -/
namespace Switchyard.Http.Host

open Switchyard.Numeric

/-! ### IPv4 -/

/-- A part of an IPv4 address: decimal, octal after `0` or hexadecimal after `0x`. -/
def ipv4Part? : List Char → Option Nat
  | [] => none
  | ['0'] => some 0
  | '0' :: x :: rest =>
    if x = 'x' ∨ x = 'X' then (if rest.isEmpty then some 0 else readIn? 16 rest)
    else readIn? 8 (x :: rest)
  | cs => readIn? 10 cs

/-- The labels of a name, without the empty one after a final dot. -/
def labels (cs : List Char) : List (List Char) :=
  let parts := cs.splitOn '.'
  if 1 < parts.length ∧ parts.getLast? = some [] then parts.dropLast else parts

/-- Whether the last label is a number, so that the whole must be an IPv4 address. -/
def endsInNumber (cs : List Char) : Bool :=
  match (labels cs).getLast? with
  | some last => !last.isEmpty && (last.all isDigit || (ipv4Part? last).isSome)
  | none => false

/-- The number of an IPv4 address; the last of at most four parts fills what is left. -/
def ipv4? (cs : List Char) : Option Nat := do
  let parts ← (labels cs).mapM ipv4Part?
  if 4 < parts.length then none
  else
    let last ← parts.getLast?
    let front := parts.dropLast
    if front.any (255 < ·) ∨ Nat.pow 256 (4 - front.length) ≤ last then none
    else some (front.zipIdx.foldl (fun n p => n + p.1 * Nat.pow 256 (3 - p.2)) last)

def ipv4Chars (n : Nat) : List Char :=
  natDigits (n / 16777216 % 256) ++ '.' :: natDigits (n / 65536 % 256) ++
    '.' :: natDigits (n / 256 % 256) ++ '.' :: natDigits (n % 256)

/-! ### IPv6 -/

/-- A group of an IPv6 address: one to four hexadecimal digits. -/
def group? (cs : List Char) : Option Nat :=
  if 4 < cs.length then none else readIn? 16 cs

/-- The two groups of a dotted IPv4 address with plain decimal parts. -/
def dottedGroups? (cs : List Char) : Option (List Nat) := do
  let parts ← (cs.splitOn '.').mapM fun p =>
    match p with
    | '0' :: _ :: _ => none
    | _ => (readNat p).filter (· ≤ 255)
  match parts with
  | [a, b, c, d] => some [a * 256 + b, c * 256 + d]
  | _ => none

/-- Groups between colons; the last may be a dotted address. -/
def groups? : List (List Char) → Option (List Nat)
  | [] => some []
  | [last] => if last.contains '.' then dottedGroups? last else (group? last).map ([·])
  | g :: rest => do return (← group? g) :: (← groups? rest)

def sideGroups? (cs : List Char) : Option (List Nat) :=
  if cs.isEmpty then some [] else groups? (cs.splitOn ':')

/-- What stands before and after the first `::`. -/
def splitGap : List Char → Option (List Char × List Char)
  | ':' :: ':' :: rest => some ([], rest)
  | c :: rest => (splitGap rest).map fun p => (c :: p.1, p.2)
  | [] => none

/-- The eight groups of an IPv6 address. -/
def ipv6? (cs : List Char) : Option (List Nat) := do
  match splitGap cs with
  | none =>
    let all ← groups? (cs.splitOn ':')
    if all.length = 8 then some all else none
  | some (left, right) =>
    let front ← sideGroups? left
    let back ← sideGroups? right
    if left.contains '.' ∨ 7 < front.length + back.length then none
    else some (front ++ List.replicate (8 - front.length - back.length) 0 ++ back)

/-- Start and length of the first longest run of zero groups. -/
def longestGap (groups : List Nat) : Nat × Nat :=
  let runAt (i : Nat) : Nat := ((groups.drop i).takeWhile (· = 0)).length
  (List.range groups.length).foldl (fun best i => if best.2 < runAt i then (i, runAt i) else best)
    (0, 0)

def joinGroups : List Nat → List Char
  | [] => []
  | [g] => hexDigits g
  | g :: rest => hexDigits g ++ ':' :: joinGroups rest

def ipv6Chars (groups : List Nat) : List Char :=
  let (start, length) := longestGap groups
  if length < 2 then joinGroups groups
  else joinGroups (groups.take start) ++ ':' :: ':' :: joinGroups (groups.drop (start + length))

/-! ### Names -/

/-- Characters that no host name has. -/
def isForbidden (c : Char) : Bool :=
  c.toNat ≤ 32 || c.toNat = 127 ||
    ['#', '%', '/', ':', '<', '>', '?', '@', '[', '\\', ']', '^', '|'].contains c

/-- The ASCII spellings of international names, as tables of characters have them; a name may
have none. -/
abbrev Names := List Char → Option (List Char)

/-- What a label begins with that is the ASCII spelling of another one. -/
def asciiMark : List Char := ['x', 'n', '-', '-']

/-- Whether the ASCII spelling of a name is more than a matter of case. -/
def isInternational (cs : List Char) : Bool :=
  cs.any (127 < ·.toNat) ||
    (cs.splitOn '.').any fun l => asciiMark.isPrefixOf (l.map Char.toLower)

/-- A name in ASCII and in lower case. -/
def spelled? (names : Names) (cs : List Char) : Option (List Char) :=
  if isInternational cs then names cs else some (cs.map Char.toLower)

/-- The host of a name without escapes. -/
def ofName? (names : Names) (cs : List Char) : Option (List Char) := do
  if cs.any isForbidden then none
  else
    let name ← spelled? names cs
    if name.isEmpty || name.any (fun c => isForbidden c || 127 < c.toNat) then none
    else if endsInNumber name then (ipv4? name).map ipv4Chars
    else some name

/-- The host that a text names, in its canonical spelling. -/
def parse? (names : Names) (cs : List Char) : Option (List Char) :=
  match cs with
  | '[' :: rest =>
    match rest.getLast? with
    | some ']' => (ipv6? rest.dropLast).map fun groups => '[' :: ipv6Chars groups ++ [']']
    | _ => none
  | _ => (Text.Percent.decodeText? (String.ofList cs)).bind fun name => ofName? names name.toList

end Switchyard.Http.Host
