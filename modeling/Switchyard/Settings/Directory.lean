import Switchyard.Settings.FileFormat
import Switchyard.Text.Utf8

/-! The files below the working directory, and the one that a path stands for: the file
of that very name, or else the first one whose name is the path and an extension. -/
namespace Switchyard

/-- Names with their contents; a name is the folders that lead to a file, and its own. -/
structure Directory where
  files : List (List String × Bytes) := []
deriving Inhabited

namespace Directory

def splitPath (path : String) : List String := (path.toList.splitOn '/').map String.ofList

/-- A step that stays where it is. -/
def isIdle (step : String) : Bool := step = "" || step = "."

def ofList (files : List (String × Bytes)) : Directory :=
  ⟨files.map fun f => ((splitPath f.1).filter (!isIdle ·), f.2)⟩

def isFolder (d : Directory) (place : List String) : Bool :=
  place.isEmpty || d.files.any fun f => f.1.take place.length = place && place.length < f.1.length

def contents? (d : Directory) (place : List String) : Option Bytes :=
  (d.files.find? (·.1 = place)).map (·.2)

/-- Where steps lead from a place; only a folder has a way on, and none leads out of the
working directory. -/
def walk? (d : Directory) (place : List String) : List String → Option (List String)
  | [] => some place
  | step :: rest =>
    if !d.isFolder place then none
    else if isIdle step then d.walk? place rest
    else if step = ".." then
      if place.isEmpty then none else d.walk? place.dropLast rest
    else d.walk? (place ++ [step]) rest

/-- The contents of the file that a path leads to. -/
def read? (d : Directory) (steps : List String) : Option Bytes :=
  (d.walk? [] steps).bind d.contents?

/-- What stands behind the last point of a name that does not begin with it. -/
def extension? (name : String) : Option String :=
  let tail := name.toList.reverse.takeWhile (· ≠ '.')
  if tail.length + 1 < name.length then some (String.ofList tail.reverse) else none

/-- A path with an extension put behind its last name. -/
def extend? (steps : List String) (extension : String) : Option (List String) :=
  let steps := (steps.reverse.dropWhile isIdle).reverse
  match steps.getLast? with
  | none | some ".." => none
  | some name => some (steps.dropLast ++ [name ++ "." ++ extension])

/-- The settings file that a path stands for. A file of that very name with an extension
that tells no format counts as none. -/
def find? (d : Directory) (path : String) : Option (FileFormat × Bytes) :=
  if path.toList.head? = some '/' then none
  else
    let steps := splitPath path
    match d.read? steps with
    | some contents => do
      let format ← FileFormat.ofExtension? (← extension? (steps.getLastD ""))
      some (format, contents)
    | none => FileFormat.extensions.findSome? fun e => do
      let contents ← d.read? (← extend? steps e.1)
      some (e.2, contents)

end Directory

end Switchyard
