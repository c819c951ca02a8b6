import Switchyard.Format.Ini
import Switchyard.Format.Ron
import Switchyard.Format.Toml
import Switchyard.Format.Yaml
import Switchyard.Json.Reader

/-! The formats of settings files. The extension of a file's name, in lower case, tells
its format. -/
namespace Switchyard

inductive FileFormat where
  | toml | json | yaml | ini | ron | json5
deriving DecidableEq, Repr

mutual
/-- A JSON value as a tree. An integer beyond 63 bits counts as a real, and of fields with
one name the last one counts. -/
def Json.tree : Json → Tree
  | .null => .nil
  | .bool b => .bool b
  | .int n =>
    if Numeric.fitsWord n then .int n
    else .real (Binary64.ofRatio (n < 0) n.natAbs 1)
  | .real x => .real x
  | .str s => .text s
  | .arr items => .list (treesOf items)
  | .obj fields => .table (fieldTreesOf [] fields)
  | .flaw _ => .nil
def Json.treesOf : List Json → List Tree
  | [] => []
  | j :: rest => j.tree :: treesOf rest
def Json.fieldTreesOf (done : List (String × Tree)) : List (String × Json) → List (String × Tree)
  | [] => done
  | (name, j) :: rest => fieldTreesOf (Tree.setField name j.tree done) rest
end

namespace FileFormat

/-- Every extension with its format, in the order in which they are tried. -/
def extensions : List (String × FileFormat) :=
  [("toml", toml), ("json", json), ("yaml", yaml), ("yml", yaml), ("ini", ini), ("ron", ron),
   ("json5", json5)]

def ofExtension? (extension : String) : Option FileFormat :=
  (extensions.find? (·.1 = extension)).map (·.2)

/-- The fields that a text of the format gives. -/
def parse? (format : FileFormat) (cs : List Char) : Option (List (String × Tree)) :=
  match format with
  | toml => Toml.parse? cs
  | json =>
    match Json.parse? (String.ofList cs) with
    | some (.obj fields) => some (Json.fieldTreesOf [] fields)
    | _ => none
  | yaml => Yaml.parse? cs
  | ini => Ini.parse? cs
  | ron => Ron.parse? cs
  | json5 => Json5.parse? cs

end FileFormat

end Switchyard
