import Switchyard.Json.Value

/-! The tokens of a JSON text. The lexer runs over the characters once, and stops with
the token `bad` where no token fits. A string's token keeps its text as written, escapes
included; which text it stands for is a second question, answered by `unescape`. So a string
may hold what stands for no text, half a surrogate pair or bytes that encode no character: it is
passed over where its text is not asked for. -/
namespace Switchyard.Json

inductive Token where
  | openArr | closeArr | openObj | closeObj | colon | comma
  | null
  | bool (b : Bool)
  | number (written : List Char)
  | string (written : List Char)
  | bad
deriving DecidableEq, Repr

/-- How much of a number has been read. -/
inductive Stage where
  | sign | zero | whole | point | part | power | powerSign | powerDigits
deriving DecidableEq, Repr

/-- What the lexer is inside of; texts read so far are in reverse. -/
inductive Lexing where
  | between
  | string (read : List Char)
  | escape (read : List Char)
  | hex (read : List Char) (left : Nat)
  | word (rest : List Char) (token : Token)
  | number (read : List Char) (stage : Stage)

def isGap (c : Char) : Bool := c = ' ' || c = '\t' || c = '\n' || c = '\r'

def isDecimal (c : Char) : Bool := '0' ≤ c && c ≤ '9'

/-- The stage after one more character, if it can belong to the number. -/
def Stage.next? (stage : Stage) (c : Char) : Option Stage :=
  match stage with
  | .sign => if c = '0' then some .zero else if isDecimal c then some .whole else none
  | .zero | .whole =>
    if c = '.' then some .point
    else if c = 'e' ∨ c = 'E' then some .power
    else if stage = .whole ∧ isDecimal c then some .whole
    else none
  | .point => if isDecimal c then some .part else none
  | .part =>
    if isDecimal c then some .part else if c = 'e' ∨ c = 'E' then some .power else none
  | .power =>
    if c = '+' ∨ c = '-' then some .powerSign
    else if isDecimal c then some .powerDigits else none
  | .powerSign | .powerDigits => if isDecimal c then some .powerDigits else none

/-- Whether a number may end here. -/
def Stage.mayEnd : Stage → Bool
  | .zero | .whole | .part | .powerDigits => true
  | _ => false

/-- A character outside of every token. -/
def begin (c : Char) : List Token × Option Lexing :=
  if isGap c then ([], some .between)
  else match c with
  | '[' => ([.openArr], some .between)
  | ']' => ([.closeArr], some .between)
  | '{' => ([.openObj], some .between)
  | '}' => ([.closeObj], some .between)
  | ':' => ([.colon], some .between)
  | ',' => ([.comma], some .between)
  | '"' => ([], some (.string []))
  | 'n' => ([], some (.word ['u', 'l', 'l'] .null))
  | 't' => ([], some (.word ['r', 'u', 'e'] (.bool true)))
  | 'f' => ([], some (.word ['a', 'l', 's', 'e'] (.bool false)))
  | '-' => ([], some (.number ['-'] .sign))
  | '0' => ([], some (.number ['0'] .zero))
  | _ => if isDecimal c then ([], some (.number [c] .whole)) else ([], none)

/-- One character: the tokens it completes and what the lexer is inside of then. -/
def Lexing.step (l : Lexing) (c : Char) : List Token × Option Lexing :=
  match l with
  | .between => begin c
  | .string read =>
    if c = '"' then ([.string read.reverse], some .between)
    else if c = '\\' then ([], some (.escape (c :: read)))
    else if c.toNat < 32 then ([], none)
    else ([], some (.string (c :: read)))
  | .escape read =>
    if c = 'u' then ([], some (.hex (c :: read) 4))
    else if ['"', '\\', '/', 'b', 'f', 'n', 'r', 't'].contains c then
      ([], some (.string (c :: read)))
    else ([], none)
  | .hex read left =>
    if (Numeric.digitIn? 16 c).isNone then ([], none)
    else if left ≤ 1 then ([], some (.string (c :: read)))
    else ([], some (.hex (c :: read) (left - 1)))
  | .word rest token =>
    match rest with
    | [] => ([], none)
    | [d] => if c = d then ([token], some .between) else ([], none)
    | d :: more => if c = d then ([], some (.word more token)) else ([], none)
  | .number read stage =>
    match stage.next? c with
    | some stage => ([], some (.number (c :: read) stage))
    | none =>
      if stage.mayEnd && !isDecimal c then
        let (tokens, l) := begin c
        (.number read.reverse :: tokens, l)
      else ([], none)

/-- The tokens that the end of the text completes. -/
def Lexing.finish : Lexing → List Token
  | .between => []
  | .number read stage => if stage.mayEnd then [.number read.reverse] else [.bad]
  | _ => [.bad]

/-- An escape of no character, in place of bytes that encode none. -/
def misfit : List Char := ['\\', 'u', '-', '-', '-', '-']

/-- A character, or bytes that encode none: only the inside of a string takes these. -/
def Lexing.take (l : Lexing) : Option Char → List Token × Option Lexing
  | some c => l.step c
  | none =>
    match l with
    | .string read => ([], some (.string (misfit.reverse ++ read)))
    | _ => ([], none)

def lexPieces (l : Lexing) : List (Option Char) → List Token
  | [] => l.finish
  | piece :: rest =>
    match l.take piece with
    | (tokens, some l) => tokens ++ lexPieces l rest
    | (tokens, none) => tokens ++ [.bad]

def lex (l : Lexing) (cs : List Char) : List Token := lexPieces l (cs.map some)

def hexQuad (a b c d : Char) : Option Nat := do
  let a ← Numeric.digitIn? 16 a
  let b ← Numeric.digitIn? 16 b
  let c ← Numeric.digitIn? 16 c
  let d ← Numeric.digitIn? 16 d
  some (((a * 16 + b) * 16 + c) * 16 + d)

/-- The character of a one-letter escape. -/
def shortEscape (c : Char) : Char :=
  match c with
  | 'b' => '\x08'
  | 'f' => '\x0c'
  | 'n' => '\n'
  | 'r' => '\r'
  | 't' => '\t'
  | c => c

/-- The text that a string stands for; none with half a surrogate pair in it. -/
def unescape : List Char → Option (List Char)
  | '\\' :: 'u' :: a :: b :: c :: d :: rest =>
    match hexQuad a b c d with
    | none => none
    | some n =>
      if 0xD800 ≤ n ∧ n < 0xDC00 then
        match rest with
        | '\\' :: 'u' :: e :: f :: g :: h :: rest =>
          match hexQuad e f g h with
          | none => none
          | some m =>
            if 0xDC00 ≤ m ∧ m < 0xE000 then
              (unescape rest).map (Char.ofNat (0x10000 + (n - 0xD800) * 0x400 + (m - 0xDC00)) :: ·)
            else none
        | _ => none
      else if 0xDC00 ≤ n ∧ n < 0xE000 then none
      else (unescape rest).map (Char.ofNat n :: ·)
  | '\\' :: c :: rest => (unescape rest).map (shortEscape c :: ·)
  | c :: rest => (unescape rest).map (c :: ·)
  | [] => some []

end Switchyard.Json
