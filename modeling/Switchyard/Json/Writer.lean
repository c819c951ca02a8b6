import Switchyard.Json.Value

/-! JSON values as compact text: no blanks, fields in their order, the short escapes
where there is one, `\u00xx` for the other control characters, all else as it is. -/
namespace Switchyard.Json

open Numeric

/-- A character as it is written between quotes. -/
def escapeChar (c : Char) : List Char :=
  if c = '"' then ['\\', '"']
  else if c = '\\' then ['\\', '\\']
  else if c = '\x08' then ['\\', 'b']
  else if c = '\x0c' then ['\\', 'f']
  else if c = '\n' then ['\\', 'n']
  else if c = '\r' then ['\\', 'r']
  else if c = '\t' then ['\\', 't']
  else if c.toNat < 32 then
    ['\\', 'u', '0', '0', Numeric.hexDigit (c.toNat / 16), Numeric.hexDigit (c.toNat % 16)]
  else [c]

def escape (cs : List Char) : List Char := cs.flatMap escapeChar

def quote (s : String) : List Char := '"' :: escape s.toList ++ ['"']

def realChars : Binary64 → List Char
  | .finite negative m e => Binary64.pointedText negative m e
  | _ => ['n', 'u', 'l', 'l']

mutual
def chars : Json → List Char
  | .null => ['n', 'u', 'l', 'l']
  | .bool true => ['t', 'r', 'u', 'e']
  | .bool false => ['f', 'a', 'l', 's', 'e']
  | .int n => intDigits n
  | .real x => realChars x
  | .str s => quote s
  | .arr [] => ['[', ']']
  | .arr (j :: rest) => '[' :: chars j ++ itemsChars rest
  | .obj [] => ['{', '}']
  | .obj ((k, j) :: rest) => '{' :: quote k ++ ':' :: chars j ++ fieldsChars rest
  | .flaw _ => []
def itemsChars : List Json → List Char
  | [] => [']']
  | j :: rest => ',' :: chars j ++ itemsChars rest
def fieldsChars : List (String × Json) → List Char
  | [] => ['}']
  | (k, j) :: rest => ',' :: quote k ++ ':' :: chars j ++ fieldsChars rest
end

/-- The compact text of a value. -/
def write (j : Json) : String := String.ofList j.chars

end Switchyard.Json
