import Switchyard.Registry.Store

/-! A health check pass: every instance is probed, and then the verdicts are folded into
the registry in the order of the ids. What a verdict says concerns the registration that
was probed and no other. -/
namespace Switchyard

/-- What a probe found. -/
inductive Verdict where
  | healthy
  | unhealthy (reason : String)
deriving DecidableEq, Repr, Inhabited

namespace Verdict

def isHealthy : Verdict → Bool
  | healthy => true
  | unhealthy _ => false

end Verdict

/-- The record that was probed and what the probe found. -/
structure Probed where
  copy : Instance
  verdict : Verdict
deriving DecidableEq, Inhabited

/-- The sum of a pass. -/
structure Report where
  checked : Nat := 0
  healthy : Nat := 0
  unhealthy : Nat := 0
  evicted : Nat := 0
deriving DecidableEq, Repr, Inhabited

namespace Report

/-- Counts one verdict and what became of it. -/
def count (t : Report) (v : Verdict) : Folded → Report
  | .evicted _ => { t with checked := t.checked + 1, evicted := t.evicted + 1 }
  | .missing | .stale => { t with checked := t.checked + 1 }
  | .transition .. | .unchanged _ =>
    if v.isHealthy then { t with checked := t.checked + 1, healthy := t.healthy + 1 }
    else { t with checked := t.checked + 1, unhealthy := t.unhealthy + 1 }

end Report

namespace Health

/-- What is said of a verdict once it has been folded; an eviction has been told already. -/
def remarks (i : Instance) (v : Verdict) : Folded → List Notice
  | .transition before after =>
    match v with
    | .healthy => [.markedHealthy i.id i.name before after]
    | .unhealthy reason => [.markedUnhealthy i.id i.name before after reason]
  | .unchanged status =>
    match v with
    | .healthy => [.probeCompleted i.id status]
    | .unhealthy reason => [.probeFailed i.id i.name reason, .probeCompleted i.id status]
  | .evicted _ => []
  | .missing => [.deregisteredMeanwhile i.id]
  | .stale => [.reregisteredMeanwhile i.id]

/-- Folds verdicts one after the other, adding to a report. -/
def absorb (now : Instant) (r : Registry) (t : Report) : List Probed → Outcome Registry Report
  | [] => ⟨r, t, []⟩
  | p :: rest =>
    let o := r.foldProbed now p.copy p.verdict.isHealthy
    let more := absorb now o.state (t.count p.verdict o.answer) rest
    ⟨more.state, more.answer, o.notices ++ remarks p.copy p.verdict o.answer ++ more.notices⟩

/-- Completes a pass. -/
def settle (now : Instant) (r : Registry) (probed : List Probed) : Outcome Registry Report :=
  let o := absorb now r {} probed
  let t := o.answer
  ⟨o.state, t, o.notices ++ [.passCompleted t.checked t.healthy t.unhealthy t.evicted]⟩

end Health

end Switchyard
