import Switchyard.Calendar.Instant
import Switchyard.Format.Scan
import Switchyard.Settings.Tree

/-! TOML documents: lines that open a table or give a key its value. Dates and times stand
for their text in its canonical spelling. -/
namespace Switchyard.Toml

open Numeric Scan

/-! ### Blanks and line ends -/

def isGap (c : Char) : Bool := c = ' ' || c = '\t'

def gap : Scan Unit := skipWhile isGap

/-- A character that may stand in a comment or in a literal string. -/
def isPrintable (c : Char) : Bool := c = '\t' || (32 ≤ c.toNat && c.toNat ≠ 127)

def lineBreak : Scan Unit := do
  let _ ← accept ['\r']
  char '\n'

def comment : Scan Unit := do
  if ← accept ['#'] then skipWhile isPrintable

/-- Blanks, a comment, and the end of the line or of the text. -/
def lineEnd : Scan Unit := do
  gap
  comment
  if ← atEnd then return else lineBreak

/-- Blanks, comments and line ends between the items of an array. -/
def spacing : Scan Unit := do
  let _ ← many (do gap; comment; lineBreak)
  gap
  comment

/-! ### Strings -/

def escaped : Scan Char := do
  match ← next with
  | 'b' => return '\x08'
  | 't' => return '\t'
  | 'n' => return '\n'
  | 'f' => return '\x0c'
  | 'r' => return '\r'
  | '"' => return '"'
  | '\\' => return '\\'
  | 'u' => hexChar 4
  | 'U' => hexChar 8
  | _ => failure

def basicChar : Scan Char := do
  let c ← next
  if c = '\\' then escaped
  else if c = '"' || !isPrintable c then failure
  else return c

def basicString : Scan (List Char) := do
  char '"'
  let cs ← many basicChar
  char '"'
  return cs

def literalString : Scan (List Char) := do
  char '\x27'
  let cs ← takeWhile fun c => c ≠ '\x27' && isPrintable c
  char '\x27'
  return cs

/-- One piece of a string over several lines; a backslash at the end of a line drops the
blanks up to the next text. -/
def longPiece (quote : Char) (escapes : Bool) : Scan (List Char) := do
  if ← accept [quote, quote, quote] then failure
  else
    let c ← next
    if c = '\\' && escapes then
      (do gap; lineBreak; let _ ← many (do gap; lineBreak); gap; return []) <|> (do return [← escaped])
    else if c = '\n' then return ['\n']
    else if c = '\r' then
      char '\n'
      return ['\n']
    else if isPrintable c then return [c]
    else failure

def longString (quote : Char) (escapes : Bool) : Scan (List Char) := do
  literal [quote, quote, quote]
  let _ ← optional lineBreak
  let pieces ← many (longPiece quote escapes)
  literal [quote, quote, quote]
  let more ← accept [quote, quote]
  let one ← if more then pure false else accept [quote]
  return pieces.flatten ++ (if more then [quote, quote] else if one then [quote] else [])

/-! ### Keys -/

def isKeyChar (c : Char) : Bool := c.isAlphanum || c = '_' || c = '-'

def simpleKey : Scan String := do
  match ← peek with
  | some '"' => return String.ofList (← basicString)
  | some '\x27' => return String.ofList (← literalString)
  | _ =>
    let cs ← takeWhile isKeyChar
    if cs.isEmpty then failure else return String.ofList cs

def dottedKey : Scan (List String) := do
  gap
  let keys ← sepBy simpleKey (do gap; char '.'; gap)
  gap
  if keys.isEmpty then failure else return keys

/-! ### Numbers and times -/

/-- Digits without the underscores that stand between two of them. -/
def ungroup (isDigit : Char → Bool) : List Char → Option (List Char)
  | [] => none
  | [c] => if isDigit c then some [c] else none
  | c :: '_' :: rest => if isDigit c then (ungroup isDigit rest).map (c :: ·) else none
  | c :: rest => if isDigit c then (ungroup isDigit rest).map (c :: ·) else none

def inBase? (base : Nat) (cs : List Char) : Option Nat := do
  readIn? base (← ungroup (fun c => (digitIn? base c).isSome) cs)

def inRange? (n : Int) : Option Tree :=
  if fitsWord n then some (.int n) else none

def splitSign : List Char → Bool × List Char
  | '-' :: rest => (true, rest)
  | '+' :: rest => (false, rest)
  | cs => (false, cs)

/-- Decimal digits without a needless zero in front. -/
def plainDigits? (cs : List Char) : Option (List Char) :=
  (ungroup isDigit cs).filter fun ds => ds.length = 1 ∨ ds.head? ≠ some '0'

def integer? (cs : List Char) : Option Tree :=
  match cs with
  | '0' :: 'x' :: rest => (inBase? 16 rest).bind (inRange? ·)
  | '0' :: 'o' :: rest => (inBase? 8 rest).bind (inRange? ·)
  | '0' :: 'b' :: rest => (inBase? 2 rest).bind (inRange? ·)
  | _ => do
    let (negative, body) := splitSign cs
    let n ← readNat (← plainDigits? body)
    inRange? (signed negative n)

def float? (cs : List Char) : Option Tree := do
  let (negative, body) := splitSign cs
  match body with
  | ['i', 'n', 'f'] => some (.real (.infinite negative))
  | ['n', 'a', 'n'] => some (.real .nan)
  | _ =>
    let whole ← plainDigits? (body.takeWhile fun c => isDigit c || c = '_')
    let rest := body.dropWhile fun c => isDigit c || c = '_'
    let (part, rest) ← match rest with
      | '.' :: more => do
        let part ← ungroup isDigit (more.takeWhile fun c => isDigit c || c = '_')
        some (part, more.dropWhile fun c => isDigit c || c = '_')
      | _ => some ([], rest)
    let power ← match rest with
      | [] => some 0
      | e :: more => do
        if e = 'e' ∨ e = 'E' then
          let (down, digits) := splitSign more
          let n ← readNat (← ungroup isDigit digits)
          some (signed down n)
        else none
    if part.isEmpty ∧ rest.isEmpty then none
    else
      let digits ← readNat (whole ++ part)
      match Binary64.ofDecimal negative digits (power - part.length) with
      | .infinite false => none
      | x => some (.real x)

/-- Two digits as a number. -/
def pair? (a b : Char) : Option Nat := readNat [a, b]

def date? (cs : List Char) : Option (List Char) :=
  match cs with
  | [y1, y2, y3, y4, '-', m1, m2, '-', d1, d2] => do
    let year ← readNat [y1, y2, y3, y4]
    let month ← pair? m1 m2
    let day ← pair? d1 d2
    if 0 < day ∧ day ≤ Calendar.daysInMonth year month then some cs else none
  | _ => none

/-- A fraction of a second without trailing zeros. -/
def fraction? (cs : List Char) : Option (List Char) :=
  match cs with
  | [] => some []
  | '.' :: digits =>
    if digits.isEmpty || !digits.all isDigit then none
    else
      let kept := ((digits.take 9).reverse.dropWhile (· = '0')).reverse
      some (if kept.isEmpty then [] else '.' :: kept)
  | _ => none

def time? (cs : List Char) : Option (List Char) :=
  match cs with
  | h1 :: h2 :: ':' :: m1 :: m2 :: ':' :: s1 :: s2 :: rest => do
    let hour ← pair? h1 h2
    let minute ← pair? m1 m2
    let second ← pair? s1 s2
    let fraction ← fraction? rest
    if hour < 24 ∧ minute < 60 ∧ second ≤ 60 then
      some ([h1, h2, ':', m1, m2, ':', s1, s2] ++ fraction)
    else none
  | _ => none

def offset? (cs : List Char) : Option (List Char) :=
  match cs with
  | [] => some []
  | ['Z'] | ['z'] => some ['Z']
  | [sign, h1, h2, ':', m1, m2] => do
    let hour ← pair? h1 h2
    let minute ← pair? m1 m2
    if (sign = '+' ∨ sign = '-') ∧ hour < 24 ∧ minute < 60 then some cs else none
  | _ => none

/-- A date, a time of the day, or both, the latter with or without an offset. -/
def moment? (cs : List Char) : Option (List Char) :=
  match date? cs, time? cs with
  | some d, _ => some d
  | _, some t => some t
  | none, none => do
    let date ← date? (cs.take 10)
    match cs.drop 10 with
    | mark :: rest =>
      if mark = 'T' ∨ mark = 't' ∨ mark = ' ' then
        let isOffset (c : Char) : Bool := c = 'Z' || c = 'z' || c = '+' || c = '-'
        let time ← time? (rest.takeWhile (!isOffset ·))
        let offset ← offset? (rest.dropWhile (!isOffset ·))
        some (date ++ 'T' :: time ++ offset)
      else none
    | [] => none

/-- A value that is a single word; a blank may part a date from a time. -/
def word : Scan Tree := do
  let isWordChar (c : Char) : Bool :=
    c.isAlphanum || c = '+' || c = '-' || c = '_' || c = '.' || c = ':'
  let cs ← takeWhile isWordChar
  let more ← match (← rest) with
    | ' ' :: c :: _ =>
      if (date? cs).isSome && isDigit c then
        char ' '
        let time ← takeWhile isWordChar
        pure (' ' :: time)
      else pure []
    | _ => pure []
  match String.ofList cs with
  | "true" => return .bool true
  | "false" => return .bool false
  | _ =>
    match integer? cs, float? cs, moment? (cs ++ more) with
    | some t, _, _ => if more.isEmpty then return t else failure
    | _, some t, _ => if more.isEmpty then return t else failure
    | _, _, some m => return .text (String.ofList m)
    | _, _, _ => failure

/-! ### Values and tables -/

/-- How a table came to be. -/
inductive Origin where
  /-- By a header of its own. -/
  | header
  /-- As part of the path of another header. -/
  | path
  /-- As part of a dotted key. -/
  | dotted
deriving DecidableEq, Repr

/-- A table under construction. -/
inductive Node where
  | leaf (t : Tree)
  | table (origin : Origin) (fields : List (String × Node))
  | tables (lastFirst : List (List (String × Node)))
deriving Inhabited

abbrev Fields := List (String × Node)

def find? (key : String) (fs : Fields) : Option Node := (fs.find? (·.1 = key)).map (·.2)

def replace (key : String) (node : Node) (fs : Fields) : Fields :=
  fs.map fun f => if f.1 = key then (key, node) else f

/-- Gives a dotted key its value. -/
def assign (value : Node) : List String → Fields → Option Fields
  | [], _ => none
  | [key], fs => if (find? key fs).isSome then none else some (fs ++ [(key, value)])
  | key :: path, fs =>
    match find? key fs with
    | none => (assign value path []).map fun child => fs ++ [(key, .table .dotted child)]
    | some (.table .header _) => none
    | some (.table origin child) =>
      (assign value path child).map fun child => replace key (.table origin child) fs
    | some _ => none

/-- Changes the table at the end of a header's path. -/
def descend (change : Fields → Option Fields) : List String → Fields → Option Fields
  | [], fs => change fs
  | key :: path, fs =>
    match find? key fs with
    | none => (descend change path []).map fun child => fs ++ [(key, .table .path child)]
    | some (.table origin child) =>
      (descend change path child).map fun child => replace key (.table origin child) fs
    | some (.tables (child :: more)) =>
      (descend change path child).map fun child => replace key (.tables (child :: more)) fs
    | some _ => none

/-- Opens the table of a header. -/
def openTable (key : String) (fs : Fields) : Option Fields :=
  match find? key fs with
  | none => some (fs ++ [(key, .table .header [])])
  | some (.table .path child) => some (replace key (.table .header child) fs)
  | some _ => none

/-- Opens one more table of an array of tables. -/
def openItem (key : String) (fs : Fields) : Option Fields :=
  match find? key fs with
  | none => some (fs ++ [(key, .tables [[]])])
  | some (.tables items) => some (replace key (.tables ([] :: items)) fs)
  | some _ => none

mutual
def Node.tree : Node → Tree
  | .leaf t => t
  | .table _ fields => .table (fieldTrees fields)
  | .tables lastFirst => .list (itemTrees lastFirst).reverse
def fieldTrees : List (String × Node) → List (String × Tree)
  | [] => []
  | (key, node) :: rest => (key, node.tree) :: fieldTrees rest
def itemTrees : List (List (String × Node)) → List Tree
  | [] => []
  | fields :: rest => .table (fieldTrees fields) :: itemTrees rest
end

/-- A value; `depth` bounds the nesting of arrays and inline tables. -/
def value : Nat → Scan Tree
  | 0 => failure
  | depth + 1 => do
    let cs ← rest
    match cs with
    | '"' :: '"' :: '"' :: _ => return .text (String.ofList (← longString '"' true))
    | '"' :: _ => return .text (String.ofList (← basicString))
    | '\x27' :: '\x27' :: '\x27' :: _ => return .text (String.ofList (← longString '\x27' false))
    | '\x27' :: _ => return .text (String.ofList (← literalString))
    | '[' :: _ =>
      char '['
      let items ← many (do
        spacing
        let t ← value depth
        spacing
        if (← peek) = some ']' then return t
        else
          char ','
          return t)
      spacing
      char ']'
      return .list items
    | '\x7b' :: _ =>
      char '\x7b'
      let pairs ← sepBy (do
        let path ← dottedKey
        char '='
        gap
        let t ← value depth
        gap
        return (path, t)) (char ',')
      gap
      char '\x7d'
      let fields ← of? (pairs.foldlM (fun fs p => assign (.leaf p.2) p.1 fs) [])
      return .table (fieldTrees fields)
    | _ => word

/-! ### Documents -/

/-- The tables so far and the path of the one that is open. -/
structure Document where
  fields : Fields := []
  current : List String := []

/-- One line: a header, a key with its value, or nothing. -/
def line (depth : Nat) (d : Document) : Scan Document := do
  gap
  match (← rest) with
  | '[' :: '[' :: _ =>
    literal ['[', '[']
    let path ← dottedKey
    literal [']', ']']
    lineEnd
    let fields ← of? (descend (openItem (path.getLastD "")) path.dropLast d.fields)
    return ⟨fields, path⟩
  | '[' :: _ =>
    char '['
    let path ← dottedKey
    char ']'
    lineEnd
    let fields ← of? (descend (openTable (path.getLastD "")) path.dropLast d.fields)
    return ⟨fields, path⟩
  | c :: _ =>
    if c = '#' || c = '\r' || c = '\n' then
      lineEnd
      return d
    else
      let path ← dottedKey
      char '='
      gap
      let t ← value depth
      lineEnd
      let fields ← of? (descend (assign (.leaf t) path) d.current d.fields)
      return { d with fields }
  | [] => return d

/-- All lines of a text; each takes something of it. -/
def lines (depth : Nat) (d : Document) (cs : List Char) : Option Document :=
  match line depth d cs with
  | none => none
  | some (d, []) => some d
  | some (d, rest) => if _h : rest.length < cs.length then lines depth d rest else none
termination_by cs.length

/-- The root table of a document. -/
def parse? (cs : List Char) : Option (List (String × Tree)) :=
  (lines (cs.length + 1) {} cs).map fun d => fieldTrees d.fields

end Switchyard.Toml
