/-! A gauge counts what is present. It never falls below zero. -/
namespace Switchyard

structure Gauge where
  count : Nat := 0
deriving DecidableEq, Repr, Inhabited

namespace Gauge

def raise (g : Gauge) : Gauge := ⟨g.count + 1⟩

def lower (g : Gauge) : Gauge := ⟨g.count - 1⟩

end Gauge

end Switchyard
