import Switchyard.Settings.Conversion
import Switchyard.Settings.Directory
import Switchyard.Settings.Environment

/-! Loading settings: defaults, then the fields of a file, then the variables of the
environment, each layer over the ones before it key by key. Settings that do not meet the
conditions are a fault. A layer is a map, whose fields come in no fixed order; here they come
as they are given. -/
namespace Switchyard

namespace Settings

/-- The defaults that a layer may replace; every other field has its own default. -/
def defaultTree : Tree :=
  let d : Settings := {}
  Tree.overlay
    [("server.host", .text d.server.host),
     ("server.port", .int d.server.port.toNat),
     ("health_check.interval_secs", .int d.healthCheck.intervalSecs.toNat),
     ("health_check.timeout_ms", .int d.healthCheck.timeoutMillis.toNat),
     ("proxy.timeout_ms", .int d.proxy.timeoutMillis.toNat),
     ("broadcast.interval_secs", .int d.broadcast.intervalSecs.toNat)]
    (.table [])

/-- The tree of all layers. -/
def layered (file : List (String × Tree)) (env : Environment) : Tree :=
  Tree.overlay env.layer (Tree.overlay file defaultTree)

/-- Settings that meet the conditions. -/
def checked (s : Settings) : Except SettingsFault Settings :=
  match s.violation? with
  | none => .ok s
  | some v => .error (.violation v)

/-- Whether a key of either layer counts back beyond the beginning of a list. -/
def countsBeyond (file : List (String × Tree)) (env : Environment) : Bool :=
  Tree.overlayFalls file defaultTree || Tree.overlayFalls env.layer (Tree.overlay file defaultTree)

def ofLayers (file : List (String × Tree)) (env : Environment) : Except SettingsFault Settings :=
  if countsBeyond file env then .error .crash
  else do checked (← ofTree (layered file env))

/-- The fields of the file that a path stands for; no file has no fields. -/
def fileLayer (d : Directory) (path : String) : Except SettingsFault (List (String × Tree)) :=
  match d.find? path with
  | none => .ok []
  | some (format, contents) =>
    let contents := if [0xEF, 0xBB, 0xBF].isPrefixOf contents then contents.drop 3 else contents
    match format.parse? (Text.lenient contents) with
    | some fields => .ok fields
    | none => .error .file

def defaultPath : String := "config/default.toml"

/-- Settings from the file at a path. -/
def loadFrom (path : Bytes) (d : Directory) (env : Environment) : Except SettingsFault Settings :=
  match Text.ofBytes? path with
  | none => .error (.path (String.ofList (Text.lenient path)))
  | some path => do ofLayers (← fileLayer d path) env

/-- Settings from the file that the environment names, or from the default one. -/
def load (d : Directory) (env : Environment) : Except SettingsFault Settings :=
  loadFrom (Text.bytes ((env.get? Environment.pathVariable).getD defaultPath)) d env

end Settings

end Switchyard
