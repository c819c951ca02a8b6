import Switchyard.Format.Json5

/-! YAML documents of the plain kind: mappings and sequences by indentation, or in
brackets on one line, and scalars that may be quoted. Anchors, tags, and texts over
several lines are not read. -/
namespace Switchyard.Yaml

open Numeric Scan

/-! ### Scalars -/

/-- What an unquoted scalar stands for. The words for infinite numbers and for none are
refused. -/
def plain (cs : List Char) : Option Tree :=
  let s := String.ofList cs
  let int? (n? : Option Int) : Option Tree :=
    (n?.filter fitsWord).map .int
  let based? : Option Tree := match cs with
    | '0' :: 'x' :: rest => int? ((readIn? 16 rest).map Int.ofNat)
    | '0' :: 'o' :: rest => int? ((readIn? 8 rest).map Int.ofNat)
    | _ => none
  match s with
  | "" | "~" | "null" => some .nil
  | "true" => some (.bool true)
  | "false" => some (.bool false)
  | ".inf" | ".Inf" | ".INF" | "+.inf" | "+.Inf" | "+.INF" | "-.inf" | "-.Inf" | "-.INF"
  | ".nan" | ".NAN" => none
  | _ =>
    match based?, int? (readInt cs), Binary64.read cs with
    | some t, _, _ => some t
    | _, some t, _ => some t
    | _, _, some x => some (.real x)
    | _, _, none => some (.text s)

/-- Whether a key's colon stands in a text. -/
def holdsColon : List Char → Bool
  | [] => false
  | [c] => c = ':'
  | ':' :: ' ' :: _ => true
  | _ :: rest => holdsColon rest

def escaped : Scan Char := do
  match ← next with
  | 'n' => return '\n'
  | 't' => return '\t'
  | 'r' => return '\r'
  | '0' => return Char.ofNat 0
  | 'a' => return '\x07'
  | 'b' => return '\x08'
  | 'v' => return '\x0b'
  | 'f' => return '\x0c'
  | 'e' => return '\x1b'
  | ' ' => return ' '
  | '"' => return '"'
  | '/' => return '/'
  | '\\' => return '\\'
  | 'x' => hexChar 2
  | 'u' => hexChar 4
  | 'U' => hexChar 8
  | _ => failure

def doubleQuoted : Scan String := do
  char '"'
  let cs ← many (do
    let c ← next
    if c = '"' then failure else if c = '\\' then escaped else return c)
  char '"'
  return String.ofList cs

def singleQuoted : Scan String := do
  char '\x27'
  let cs ← many (do
    if ← accept ['\x27', '\x27'] then return '\x27'
    else
      let c ← next
      if c = '\x27' then failure else return c)
  char '\x27'
  return String.ofList cs

def gap : Scan Unit := skipWhile (· = ' ')

def trimmedEnd (cs : List Char) : List Char := (cs.reverse.dropWhile (· = ' ')).reverse

/-- An unquoted scalar inside brackets. -/
def flowPlain : Scan Tree := do
  let cs ← many (do
    let c ← next
    if [',', '[', ']', '\x7b', '\x7d'].contains c then failure
    else if c = ':' then
      match ← peek with
      | some d => if d = ' ' || d = ',' || d = ']' || d = '\x7d' then failure else return c
      | none => failure
    else return c)
  of? (plain (trimmedEnd cs))

def textOf : Tree → Option String
  | .text s => some s
  | .int n => some (intText n)
  | .bool b => some (if b then "true" else "false")
  | .real x => some x.plainText
  | _ => none

/-- A value on one line; `depth` bounds the nesting. -/
def flow : Nat → Scan Tree
  | 0 => failure
  | depth + 1 => do
    match ← peek with
    | some '"' => return .text (← doubleQuoted)
    | some '\x27' => return .text (← singleQuoted)
    | some '[' =>
      char '['
      gap
      let items ← many (do
        gap
        if (← peek) = some ']' then failure
        let t ← flow depth
        gap
        if (← peek) ≠ some ']' then char ','
        gap
        return t)
      char ']'
      return .list items
    | some '\x7b' =>
      char '\x7b'
      gap
      let fields ← many (do
        gap
        if (← peek) = some '\x7d' then failure
        let key ← of? (textOf (← flow depth))
        gap
        let t ← (do char ':'; gap; flow depth) <|> pure .nil
        gap
        if (← peek) ≠ some '\x7d' then char ','
        gap
        return (key, t))
      char '\x7d'
      return .table (fields.foldl (fun fs f => Tree.setField f.1 f.2 fs) [])
    | _ => flowPlain

/-- The value that the rest of a line gives. -/
def inline? (cs : List Char) : Option Tree :=
  match cs with
  | [] => some .nil
  | c :: _ =>
    if c = '"' ∨ c = '\x27' ∨ c = '[' ∨ c = '\x7b' then
      whole? (do let t ← flow (cs.length + 1); gap; return t) cs
    else if ['&', '*', '!', '|', '>', '%', '@', '\x60', ']', '\x7d', ','].contains c then none
    else if holdsColon cs then none
    else plain cs

/-! ### Lines -/

/-- A line without its comment, knowing whether quotes are open and whether a blank
came before. -/
def uncommented (quote : Option Char) (afterBlank : Bool) : List Char → List Char
  | [] => []
  | c :: rest =>
    match quote with
    | some q => c :: uncommented (if c = q then none else quote) false rest
    | none =>
      if c = '#' ∧ afterBlank then []
      else
        let opens := (c = '"' ∨ c = '\x27') ∧ afterBlank
        c :: uncommented (if opens then some c else none) (c = ' ') rest

/-- Indentation and content of the lines that say something. -/
def contentLines (cs : List Char) : List (Nat × List Char) :=
  (cs.splitOn '\n').filterMap fun l =>
    let l := trimmedEnd (uncommented none true (l.filter (· ≠ '\r')))
    let indent := (l.takeWhile (· = ' ')).length
    let content := l.drop indent
    if content.isEmpty then none else some (indent, content)

/-- Splits a line at the colon that ends its key. -/
def splitKey (cs : List Char) : Option (String × List Char) :=
  let value (rest : List Char) : Option (List Char) :=
    match rest with
    | [':'] => some []
    | ':' :: ' ' :: more => some (more.dropWhile (· = ' '))
    | _ => none
  match cs with
  | '"' :: _ => do
    let (key, rest) ← doubleQuoted cs
    return (key, ← value (rest.dropWhile (· = ' ')))
  | '\x27' :: _ => do
    let (key, rest) ← singleQuoted cs
    return (key, ← value (rest.dropWhile (· = ' ')))
  | _ => split [] cs
where
  split (key : List Char) : List Char → Option (String × List Char)
    | [] => none
    | [':'] => some (String.ofList key.reverse, [])
    | ':' :: ' ' :: rest =>
      some (String.ofList key.reverse, rest.dropWhile (· = ' '))
    | c :: rest => split (c :: key) rest

abbrev Lines := List (Nat × List Char)

mutual
/-- The value that starts on the first line; `fuel` bounds the lines still read. -/
def block : Nat → Lines → Option (Tree × Lines)
  | 0, _ => none
  | _, [] => some (.nil, [])
  | fuel + 1, (indent, content) :: rest =>
    match content with
    | ['-'] | '-' :: ' ' :: _ => do
      let (items, rest) ← sequence fuel indent ((indent, content) :: rest)
      return (.list items, rest)
    | _ =>
      if (splitKey content).isSome then do
        let (fields, rest) ← mapping fuel indent [] ((indent, content) :: rest)
        return (.table fields, rest)
      else do
        let t ← inline? content
        return (t, rest)
/-- The fields on lines with one indentation. -/
def mapping : Nat → Nat → List (String × Tree) → Lines → Option (List (String × Tree) × Lines)
  | 0, _, _, _ => none
  | _, _, done, [] => some (done, [])
  | fuel + 1, indent, done, (i, content) :: rest =>
    if i < indent then some (done, (i, content) :: rest)
    else if indent < i then none
    else do
      let (key, value) ← splitKey content
      if done.any (·.1 = key) || content.contains '\t' then none
      else if value.isEmpty then
        match rest with
        | (j, next) :: _ =>
          let isItem := next = ['-'] || ['-', ' '].isPrefixOf next
          if indent < j || (indent = j && isItem) then do
            let (t, rest) ← block fuel rest
            mapping fuel indent (done ++ [(key, t)]) rest
          else mapping fuel indent (done ++ [(key, .nil)]) rest
        | [] => some (done ++ [(key, .nil)], [])
      else do
        let t ← inline? value
        mapping fuel indent (done ++ [(key, t)]) rest
/-- The items on lines with one indentation that start with a dash. -/
def sequence : Nat → Nat → Lines → Option (List Tree × Lines)
  | 0, _, _ => none
  | _, _, [] => some ([], [])
  | fuel + 1, indent, (i, content) :: rest =>
    if i < indent then some ([], (i, content) :: rest)
    else if indent < i then none
    else match content with
    | ['-'] =>
      match rest with
      | (j, _) :: _ =>
        if indent < j then do
          let (t, rest) ← block fuel rest
          let (more, rest) ← sequence fuel indent rest
          return (t :: more, rest)
        else do
          let (more, rest) ← sequence fuel indent rest
          return (.nil :: more, rest)
      | [] => some ([.nil], [])
    | '-' :: ' ' :: _ => do
      let item := content.drop 1
      let deeper := (item.takeWhile (· = ' ')).length + 1
      let (t, rest) ← block fuel ((i + deeper, item.dropWhile (· = ' ')) :: rest)
      let (more, rest) ← sequence fuel indent rest
      return (t :: more, rest)
    | _ => some ([], (i, content) :: rest)
end

/-- The fields of the mapping that a document is; an empty document is an empty one. -/
def parse? (cs : List Char) : Option (List (String × Tree)) :=
  let root (ls : Lines) : Option (List (String × Tree)) :=
    match block (2 * ls.length + 2) ls with
    | some (.table fields, []) => some fields
    | _ => none
  match contentLines cs with
  | [] => some []
  | (0, ['-', '-', '-']) :: rest => root rest
  | ls => root ls

end Switchyard.Yaml
