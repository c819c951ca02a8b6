import Switchyard.Settings.Tree

/-! The environment: its variables as a layer of settings. Two underscores in a row part
the keys of a path, and a value counts as a truth value, an integer or a number where it
reads as one. -/
namespace Switchyard

/-- Names of variables with their values. -/
abbrev Environment := List (String × String)

namespace Environment

/-- The variable that names the settings file. -/
def pathVariable : String := "MESH_GATEWAY_CONFIG"

/-- What the names of variables that hold settings start with, in either case. -/
def marker : List Char := "mesh_gateway__".toList

def get? (env : Environment) (name : String) : Option String :=
  (env.find? (·.1 = name)).map (·.2)

/-- Puts a point for each two underscores. -/
def dotted : List Char → List Char
  | '_' :: '_' :: rest => '.' :: dotted rest
  | c :: rest => c :: dotted rest
  | [] => []

/-- The dotted key that a variable gives a value. -/
def key? (name : String) : Option String :=
  let cs := (Tree.lower name).toList
  if marker.isPrefixOf cs then some (String.ofList (dotted (cs.drop marker.length))) else none

/-- What the text of a variable stands for. -/
def value (text : String) : Tree :=
  let cs := text.toList
  match text.map Char.toLower with
  | "true" => .bool true
  | "false" => .bool false
  | _ =>
    match (Numeric.readInt cs).filter Numeric.fitsWord with
    | some n => .int n
    | none =>
      match Binary64.read cs with
      | some x => .real x
      | none => .text text

/-- The settings among the variables. -/
def layer (env : Environment) : List (String × Tree) :=
  env.filterMap fun v => (key? v.1).map fun key => (key, value v.2)

end Environment

end Switchyard
