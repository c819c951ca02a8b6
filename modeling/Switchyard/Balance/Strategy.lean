import Switchyard.Json.Decoder

/-! The rules by which one of several healthy instances is chosen. -/
namespace Switchyard

inductive Strategy where
  | roundRobin
  | leastConnections
  | random
deriving DecidableEq, Repr, Inhabited

namespace Strategy

def name : Strategy → String
  | roundRobin => "round_robin"
  | leastConnections => "least_connections"
  | random => "random"

/-- The name in notices. -/
def label : Strategy → String
  | roundRobin => "RoundRobin"
  | leastConnections => "LeastConnections"
  | random => "Random"

def named : String → Option Strategy
  | "round_robin" => some roundRobin
  | "least_connections" => some leastConnections
  | "random" => some random
  | _ => none

theorem named_name (s : Strategy) : named s.name = some s := by cases s <;> rfl

def toJson (s : Strategy) : Json := .str s.name

def decoder : Json.Decoder Strategy := Json.Decoder.choice false named

end Strategy

end Switchyard
