import Switchyard.Settings.Basic
import Switchyard.Settings.Tree
import Switchyard.Text.Quoted

/-! Settings out of a tree. Scalars are converted to the type of their field where they
can be; a section is a table, or a list of its fields in their order; what is absent has
its default. -/
namespace Switchyard

/-- Why no settings come of what was given. -/
inductive SettingsFault where
  /-- The path of the file is no text; shown as far as it is one. -/
  | path (shown : String)
  /-- The file has a text that is not of its format. -/
  | file
  /-- A key counts back beyond the beginning of a list, which ends the program. -/
  | crash
  /-- A value cannot be converted to the type of the field. -/
  | mistyped (key : String)
  /-- A section is given as a scalar. -/
  | notSection (found : String) (name : String)
  /-- A strategy is neither a text nor a table with one key. -/
  | notStrategy
  | unknownStrategy (name : String)
  | violation (v : Settings.Violation)
deriving DecidableEq, Repr

/-- The sentence for a fault, where there is one. -/
def SettingsFault.message? : SettingsFault → Option String
  | path shown => some ("Configuration path is not valid UTF-8: " ++ shown)
  | file | crash | mistyped _ => none
  | notSection found name => some ("invalid type: " ++ found ++ ", expected struct " ++ name)
  | notStrategy => some ("value of enum LoadBalancingStrategy should be represented by either " ++
      "string or table with exactly one key")
  | unknownStrategy name =>
    some ("enum LoadBalancingStrategy does not have variant constructor " ++ name)
  | violation v => some v.message

namespace Tree

/-! ### Scalars -/

/-- A whole number given as a text: a word for yes or no, or digits. -/
def natOfText? (s : String) : Option Nat :=
  match s.map Char.toLower with
  | "true" | "on" | "yes" => some 1
  | "false" | "off" | "no" => some 0
  | _ =>
    match s.toList with
    | '+' :: rest => Numeric.readNat rest
    | cs => Numeric.readNat cs

/-- The nearest whole number, a half rounded up, within the range of 64 bits. -/
def natOfReal : Binary64 → Nat
  | .nan => 0
  | .infinite negative => if negative then 0 else Numeric.limit64 - 1
  | x => min ((x.roundAway.getD 0).toNat) (Numeric.limit64 - 1)

/-- A scalar as a whole number up to a limit. -/
def nat? (limit : Nat) (t : Tree) : Option Nat :=
  let n? : Option Nat := match t with
    | int n => if 0 ≤ n then some n.toNat else none
    | bool b => some (if b then 1 else 0)
    | real x => some (natOfReal x)
    | text s => natOfText? s
    | nil | list _ | table _ => none
  n?.filter (· ≤ limit)

/-- A scalar as a text. -/
def text? : Tree → Option String
  | text s => some s
  | bool b => some (if b then "true" else "false")
  | int n => some (Numeric.intText n)
  | real x => some x.plainText
  | nil | list _ | table _ => none

/-- A number with a point in it. -/
def pointed (x : Binary64) : String :=
  let s := x.plainText
  match x with
  | .finite .. => if s.toList.contains '.' then s else s ++ ".0"
  | _ => s

/-- A scalar as sentences show it. -/
def shown : Tree → String
  | nil => "unit value"
  | bool b => "boolean `" ++ (if b then "true" else "false") ++ "`"
  | int n => "integer `" ++ Numeric.intText n ++ "`"
  | real x => "floating point `" ++ pointed x ++ "`"
  | text s => "string " ++ Text.Quoted.encode s
  | list _ => "sequence"
  | table _ => "map"

/-! ### Fields -/

/-- A way to get a field's value; the key is what faults name. -/
abbrev Conversion (α : Type) := String → Tree → Except SettingsFault α

def scalar {α : Type} (read : Tree → Option α) : Conversion α := fun key t =>
  match read t with
  | some a => .ok a
  | none => .error (.mistyped key)

def string : Conversion String := scalar text?

def word16 : Conversion UInt16 := scalar fun t => (t.nat? (Numeric.limit16 - 1)).map Nat.toUInt16

def word32 : Conversion UInt32 := scalar fun t => (t.nat? (Numeric.limit32 - 1)).map Nat.toUInt32

def word64 : Conversion UInt64 := scalar fun t => (t.nat? (Numeric.limit64 - 1)).map Nat.toUInt64

/-- What a section says of a field, with the field's key in faults. -/
def entry? (name : String) (section_ : Tree) (place : Nat) (key : String) :
    Option (String × Tree) :=
  match section_ with
  | table _ => (section_.get? key).map fun t => (name ++ "." ++ key, t)
  | list items => items[place]?.map fun t => (name ++ "[" ++ Numeric.natText place ++ "]", t)
  | _ => none

/-- A field of a section; where the section says nothing of it, the default. -/
def fieldOr {α : Type} (name : String) (section_ : Tree) (place : Nat) (key : String)
    (convert : Conversion α) (default : α) : Except SettingsFault α :=
  match entry? name section_ place key with
  | some (key, t) => convert key t
  | none => .ok default

/-- A section of the root; `title` is what faults call the section's type. -/
def sectionOr {α : Type} (root : Tree) (name title : String)
    (convert : String → Tree → Except SettingsFault α) (default : α) : Except SettingsFault α :=
  match root.get? name with
  | none => .ok default
  | some (table fields) => convert name (table fields)
  | some (list items) => convert name (list items)
  | some t => .error (.notSection t.shown title)

end Tree

open Switchyard.Tree

def Strategy.ofName (name : String) : Except SettingsFault Strategy :=
  match named (name.map Char.toLower) with
  | some s => .ok s
  | none => .error (.unknownStrategy name)

/-- A strategy is a name in either case; a table with one key counts as that key. -/
def Strategy.ofTree : Conversion Strategy := fun _ t =>
  match t with
  | .text name => ofName name
  | .table [(name, _)] => ofName name
  | _ => .error .notStrategy

def ServerSettings.ofTree (name : String) (t : Tree) : Except SettingsFault ServerSettings := do
  let d : ServerSettings := {}
  return ⟨← fieldOr name t 0 "host" string d.host, ← fieldOr name t 1 "port" word16 d.port⟩

def HealthSettings.ofTree (name : String) (t : Tree) : Except SettingsFault HealthSettings := do
  let d : HealthSettings := {}
  return ⟨← fieldOr name t 0 "interval_secs" word64 d.intervalSecs,
    ← fieldOr name t 1 "timeout_ms" word64 d.timeoutMillis,
    ← fieldOr name t 2 "path" string d.path,
    ← fieldOr name t 3 "eviction_threshold" word32 d.evictionThreshold⟩

def BalanceSettings.ofTree (name : String) (t : Tree) : Except SettingsFault BalanceSettings := do
  let d : BalanceSettings := {}
  return ⟨← fieldOr name t 0 "strategy" Strategy.ofTree d.strategy⟩

def ProxySettings.ofTree (name : String) (t : Tree) : Except SettingsFault ProxySettings := do
  let d : ProxySettings := {}
  return ⟨← fieldOr name t 0 "timeout_ms" word64 d.timeoutMillis,
    ← fieldOr name t 1 "max_body_bytes" word64 d.maxBodyBytes⟩

def BroadcastSettings.ofTree (name : String) (t : Tree) :
    Except SettingsFault BroadcastSettings := do
  let d : BroadcastSettings := {}
  return ⟨← fieldOr name t 0 "interval_secs" word64 d.intervalSecs,
    ← fieldOr name t 1 "queue_capacity" word64 d.queueCapacity⟩

def ShutdownSettings.ofTree (name : String) (t : Tree) :
    Except SettingsFault ShutdownSettings := do
  let d : ShutdownSettings := {}
  return ⟨← fieldOr name t 0 "grace_period_secs" word64 d.gracePeriodSecs⟩

def LoggingSettings.ofTree (name : String) (t : Tree) : Except SettingsFault LoggingSettings := do
  let d : LoggingSettings := {}
  return ⟨← fieldOr name t 0 "level" string d.level, ← fieldOr name t 1 "format" string d.format⟩

/-- The settings that a tree says; they may not meet the conditions. -/
def Settings.ofTree (root : Tree) : Except SettingsFault Settings := do
  return ⟨← sectionOr root "server" "ServerConfig" ServerSettings.ofTree {},
    ← sectionOr root "health_check" "HealthCheckConfig" HealthSettings.ofTree {},
    ← sectionOr root "load_balancer" "LoadBalancerConfig" BalanceSettings.ofTree {},
    ← sectionOr root "proxy" "ProxyConfig" ProxySettings.ofTree {},
    ← sectionOr root "broadcast" "BroadcastConfig" BroadcastSettings.ofTree {},
    ← sectionOr root "shutdown" "ShutdownConfig" ShutdownSettings.ofTree {},
    ← sectionOr root "logging" "LoggingConfig" LoggingSettings.ofTree {}⟩

end Switchyard
