import Switchyard.Proofs.Balance.Holdings
import Switchyard.Proofs.Proxy.Laws
import Switchyard.Registry.Store

/-! A proxy at work on a registry: requests come in at any moment and in any number, and each
of their exchanges goes its own way; meanwhile instances come and go, and others take leases
from the same balancer. -/
namespace Switchyard

open Registry (Change)

/-- A registry, the proxy that forwards to its instances, and the leases that are held outside
the exchanges. -/
structure Forwarding where
  registry : Registry
  proxy : Proxy := {}
  leases : List Lease := []

namespace Forwarding

/-- What can happen to a proxy and its registry. -/
inductive Call where
  | change (moment : Instant) (c : Change)
  | select (service : String) (draw : Nat)
  /-- Gives back one of the leases held outside the exchanges, by its place. -/
  | release (place : Nat)
  /-- A request comes in. -/
  | start (service : String)
  /-- The body of an exchange has been read. -/
  | engage (n draw : Nat)
  | act (n : Nat) (a : Proxy.Act)

def start (threshold : UInt32) (strategy : Strategy) : Forwarding :=
  { registry := { threshold }, proxy := { balancer := { strategy } } }

/-- The service that an exchange is for. -/
def serviceOf (f : Forwarding) (n : Nat) : String :=
  ((f.proxy.exchanges[n]?).map (·.service)).getD ""

/-- The choice for a lease outside the exchanges. -/
def choice (f : Forwarding) (service : String) (draw : Nat) :
    Outcome Balancer (Except Fault Lease) :=
  f.proxy.balancer.select service draw (f.registry.healthy service)

/-- The choice of an instance for an exchange. -/
def engagement (f : Forwarding) (n now draw : Nat) : Outcome Proxy (Except Fault Lease) :=
  f.proxy.engage n now draw (f.registry.healthy (f.serviceOf n))

/-- The state after a call at a nanosecond. -/
def step (f : Forwarding) (e : Nat × Call) : Forwarding :=
  match e.2 with
  | .change moment c => { f with registry := (c.run moment f.registry).1 }
  | .select service draw =>
    { f with
      proxy := { f.proxy with balancer := (f.choice service draw).state }
      leases := f.leases ++ (f.choice service draw).answer.toOption.toList }
  | .release place =>
    match f.leases[place]? with
    | none => f
    | some l => { f with proxy := f.proxy.release l, leases := f.leases.eraseIdx place }
  | .start service => { f with proxy := (f.proxy.start service e.1).1 }
  | .engage n draw => { f with proxy := (f.engagement n e.1 draw).state }
  | .act n a => { f with proxy := f.proxy.act n e.1 a }

theorem engage_proxy (f : Forwarding) (now n draw : Nat) :
    (f.step (now, .engage n draw)).proxy = (f.engagement n now draw).state := rfl

theorem act_proxy (f : Forwarding) (now n : Nat) (a : Proxy.Act) :
    (f.step (now, .act n a)).proxy = f.proxy.act n now a := rfl

def run (f : Forwarding) (calls : List (Nat × Call)) : Forwarding := calls.foldl step f

@[simp] theorem run_nil (f : Forwarding) : f.run [] = f := rfl

@[simp] theorem run_cons (f : Forwarding) (e : Nat × Call) (rest : List (Nat × Call)) :
    f.run (e :: rest) = (f.step e).run rest := rfl

theorem run_append (f : Forwarding) (before after : List (Nat × Call)) :
    f.run (before ++ after) = (f.run before).run after := List.foldl_append

/-- Changes of the registry as calls; their nanosecond does not matter. -/
def changes (cs : List (Instant × Change)) : List (Nat × Call) :=
  cs.map fun e => (0, .change e.1 e.2)

theorem run_changes (f : Forwarding) (cs : List (Instant × Change)) :
    f.run (changes cs) = { f with registry := (f.registry.run cs).1 } := by
  induction cs generalizing f with
  | nil => rfl
  | cons e rest ih => exact ih (f.step (0, .change e.1 e.2))

/-! ### The choice of an instance -/

/-- What becomes of an exchange whose body has been read: an instance is chosen for it, or it
is over; and nothing happens to one whose turn it is not. -/
theorem engagement_cases (f : Forwarding) (n now draw : Nat) :
    (∃ e i, f.proxy.exchanges[n]? = some e ∧ e.stage = .reading ∧
      f.proxy.balancer.choose e.service draw (f.registry.healthy e.service) = some i ∧
      (f.engagement n now draw).state =
        { f.proxy with
          balancer := (f.choice e.service draw).state
          exchanges := f.proxy.exchanges.set n { e with stage := .waiting ⟨i⟩ } } ∧
      (f.engagement n now draw).answer = .ok ⟨i⟩) ∨
    (∃ e, f.proxy.exchanges[n]? = some e ∧ e.stage = .reading ∧
      (f.engagement n now draw).state =
        f.proxy.perform n now e
          { stage := .over
            closing := some (.answered (Fault.serviceNotAvailable e.service).status) } ∧
      (f.engagement n now draw).answer = .error (.serviceNotAvailable e.service)) ∨
    ((∀ e, f.proxy.exchanges[n]? = some e → e.stage ≠ .reading) ∧
      (f.engagement n now draw).state = f.proxy ∧
      ∃ fault, (f.engagement n now draw).answer = .error fault) := by
  by_cases h : ∀ e, f.proxy.exchanges[n]? = some e → e.stage ≠ .reading
  · obtain ⟨fault, hf⟩ :=
      Proxy.engage_of_not_reading now draw (f.registry.healthy (f.serviceOf n)) h
    refine .inr (.inr ⟨h, ?_, fault, ?_⟩) <;> rw [engagement, hf]
  · obtain ⟨e, he, hread⟩ : ∃ e, f.proxy.exchanges[n]? = some e ∧ e.stage = .reading := by
      simpa using h
    have hservice : f.serviceOf n = e.service := by rw [serviceOf, he]; rfl
    rw [engagement, hservice]
    cases hi : f.proxy.balancer.choose e.service draw (f.registry.healthy e.service) with
    | some i => exact .inl ⟨e, i, he, hread, hi, Proxy.engage_of_some he hread hi⟩
    | none => exact .inr (.inl ⟨e, he, hread, Proxy.engage_of_none he hread hi⟩)

variable {f : Forwarding} {n now draw : Nat}

theorem engagement_of_ok {l : Lease} (h : (f.engagement n now draw).answer = .ok l) :
    ∃ e, f.proxy.exchanges[n]? = some e ∧ e.stage = .reading ∧
      f.proxy.balancer.choose e.service draw (f.registry.healthy e.service) = some l.chosen ∧
      (f.engagement n now draw).state =
        { f.proxy with
          balancer := (f.choice e.service draw).state
          exchanges := f.proxy.exchanges.set n { e with stage := .waiting l } } := by
  rcases f.engagement_cases n now draw with
    ⟨e, i, he, hread, hi, hstate, hanswer⟩ | ⟨e, -, -, -, hanswer⟩ | ⟨-, -, fault, hanswer⟩
  · cases hanswer.symm.trans h
    exact ⟨e, he, hread, hi, hstate⟩
  · cases hanswer.symm.trans h
  · cases hanswer.symm.trans h

/-- A choice that finds no instance leaves the balancer as it is. -/
theorem engagement_of_error {fault : Fault} (h : (f.engagement n now draw).answer = .error fault) :
    (f.engagement n now draw).state.balancer = f.proxy.balancer := by
  rcases f.engagement_cases n now draw with
    ⟨e, i, -, -, -, -, hanswer⟩ | ⟨e, -, -, hstate, -⟩ | ⟨-, hstate, -⟩
  · cases hanswer.symm.trans h
  · rw [hstate]
    rfl
  · rw [hstate]

end Forwarding

end Switchyard
