import Switchyard.Health.Pass
import Switchyard.Network.Client

/-! Probes. A probe over the network asks an instance for a path and finds it healthy on
a status of the 200s in time. A drill answers from a script instead: what is found at
each instance, after which delay, and what happens to the registry meanwhile. -/
namespace Switchyard

/-- A pass under way: the verdicts to be folded and the milliseconds until the last. -/
structure Pass where
  probed : List Probed := []
  duration : Nat := 0
deriving Inhabited

namespace Pass

def add (p : Pass) (i : Instance) (v : Verdict) (delay : Nat) : Pass :=
  ⟨p.probed ++ [⟨i, v⟩], max p.duration delay⟩

end Pass

/-! ### Over the network -/

/-- How the network is probed. -/
structure HttpProbe where
  path : String
  timeout : Nat
deriving DecidableEq, Repr, Inhabited

namespace HttpProbe

def verdict (result : Except TransportFault Reply) : Verdict :=
  match result with
  | .ok reply =>
    if 200 ≤ reply.status ∧ reply.status ≤ 299 then .healthy
    else .unhealthy
      ("status " ++ Numeric.natText reply.status ++ " " ++ Http.phrase reply.status)
  | .error .timedOut => .unhealthy "timeout"
  | .error .failed => .unhealthy TransportFault.undescribed

/-- Probes one instance; answers with the journey and the verdict. -/
def probe (h : HttpProbe) (n : Network) (i : Instance) : Journey × Verdict :=
  let j := Client.send n h.timeout "GET" (i.baseUrl ++ h.path) [] []
  (j, verdict j.result)

/-- Probes instances; answers with the requests that reached an address. -/
def pass (h : HttpProbe) (n : Network) (p : Pass) : List Instance → Network × Pass × List Outbound
  | [] => (n, p, [])
  | i :: rest =>
    let (j, v) := h.probe n i
    let (n, p, more) := h.pass j.network (p.add i v j.elapsed) rest
    (n, p, j.requests ++ more)

end HttpProbe

/-! ### By a script -/

/-- What a script says of one instance. -/
structure Cue where
  delay : Nat := 0
  verdict : Verdict
deriving DecidableEq, Repr, Inhabited

structure Script where
  cues : Keyed Cue := ∅
  /-- Changes that the next probe of an instance brings with it. -/
  meanwhile : Keyed (List Registry.Change) := ∅

namespace Script

/-- The cue for an instance, else the one for `*`; without either it is down. -/
def cue (s : Script) (id : String) : Cue :=
  match s.cues.get? id with
  | some c => c
  | none => s.cues.getD "*" ⟨0, .unhealthy "down"⟩

/-- Probes instances by the script. -/
def pass (now : Instant) (s : Script) (r : Registry) (p : Pass) :
    List Instance → Script × Outcome Registry Pass
  | [] => (s, ⟨r, p, []⟩)
  | i :: rest =>
    let (r, notices) := r.runAt now (s.meanwhile.getD i.id [])
    let c := s.cue i.id
    let s := { s with meanwhile := s.meanwhile.erase i.id }
    let (s, o) := s.pass now r (p.add i c.verdict c.delay) rest
    (s, ⟨o.state, o.answer, notices ++ o.notices⟩)

end Script

end Switchyard
