/-! The white space of texts: the twenty-five characters with the Unicode
property `White_Space`, and what is left of a text without them at its ends. -/
namespace Switchyard.Text

/-- The characters with the Unicode property `White_Space`. -/
def blanks : List Char :=
  ['\u0009', '\u000a', '\u000b', '\u000c', '\u000d', '\u0020', '\u0085', '\u00a0', '\u1680',
   '\u2000', '\u2001', '\u2002', '\u2003', '\u2004', '\u2005', '\u2006', '\u2007', '\u2008',
   '\u2009', '\u200a', '\u2028', '\u2029', '\u202f', '\u205f', '\u3000']

def isBlank (c : Char) : Bool := blanks.contains c

def dropBlanks (cs : List Char) : List Char := cs.dropWhile isBlank

/-- A text without the blanks at its two ends. -/
def trimmed (cs : List Char) : List Char := (dropBlanks (dropBlanks cs).reverse).reverse

def trim (s : String) : String := String.ofList (trimmed s.toList)

/-- A text with nothing but blanks in it. -/
def isVoid (s : String) : Bool := s.toList.all isBlank

end Switchyard.Text
