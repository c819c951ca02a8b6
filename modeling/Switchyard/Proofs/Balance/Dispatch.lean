import Switchyard.Proofs.Balance.Laws
import Switchyard.Proofs.Registry.Generations
import Switchyard.Proofs.Runs

/-! A balancer at work on a registry: what can happen to the two, and the instances that are
chosen on the way. The registry changes by its own calls only, and what it offers to a choice
is listed by id. -/
namespace Switchyard

open Registry (Change)

/-- A registry, a balancer that chooses from it, and the leases that are held. -/
structure Dispatch where
  registry : Registry
  balancer : Balancer := {}
  leases : List Lease := []

namespace Dispatch

/-- What can happen to a dispatch. -/
inductive Call where
  | change (c : Change)
  | select (service : String) (draw : Nat)
  /-- Gives back one of the leases that are held, by its place. -/
  | release (place : Nat)

/-- An empty registry, and a balancer that has chosen nothing yet. -/
def start (threshold : UInt32) (strategy : Strategy) : Dispatch :=
  { registry := { threshold }, balancer := { strategy } }

/-- The choice for a service from the instances that are healthy now. -/
def choice (d : Dispatch) (service : String) (draw : Nat) :
    Outcome Balancer (Except Fault Lease) :=
  d.balancer.select service draw (d.registry.healthy service)

def step (d : Dispatch) (e : Instant × Call) : Dispatch :=
  match e.2 with
  | .change c => { d with registry := (c.run e.1 d.registry).1 }
  | .select service draw =>
    { d with
      balancer := (d.choice service draw).state
      leases := d.leases ++ (d.choice service draw).answer.toOption.toList }
  | .release place =>
    match d.leases[place]? with
    | none => d
    | some l => { d with balancer := d.balancer.release l, leases := d.leases.eraseIdx place }

def run (d : Dispatch) (calls : List (Instant × Call)) : Dispatch := calls.foldl step d

@[simp] theorem run_nil (d : Dispatch) : d.run [] = d := rfl

@[simp] theorem run_cons (d : Dispatch) (e : Instant × Call) (rest : List (Instant × Call)) :
    d.run (e :: rest) = (d.step e).run rest := rfl

theorem run_append (d : Dispatch) (before after : List (Instant × Call)) :
    d.run (before ++ after) = (d.run before).run after := List.foldl_append

/-- The instance that a call chooses for a service, if it makes a choice for it. -/
def picked (d : Dispatch) (service : String) : Call → List Instance
  | .select given draw =>
    if given = service then ((d.choice given draw).answer.toOption.map Lease.chosen).toList
    else []
  | _ => []

/-- The instances chosen for a service in a run, in the order of the choices. -/
def picks (d : Dispatch) (service : String) (calls : List (Instant × Call)) : List Instance :=
  observed step (fun d e => d.picked service e.2) d calls

theorem picks_cons (d : Dispatch) (service : String) (e : Instant × Call)
    (rest : List (Instant × Call)) :
    d.picks service (e :: rest) = d.picked service e.2 ++ (d.step e).picks service rest := rfl

theorem picks_append (d : Dispatch) (service : String) (before after : List (Instant × Call)) :
    d.picks service (before ++ after) =
      d.picks service before ++ (d.run before).picks service after :=
  observed_append _ _ d before after

theorem picked_select (d : Dispatch) (service given : String) (draw : Nat) :
    d.picked service (.select given draw) =
      if given = service then
        (d.balancer.choose given draw (d.registry.healthy given)).toList
      else [] := by
  simp only [picked, choice, Balancer.select_answer]
  cases d.balancer.choose given draw (d.registry.healthy given) <;> rfl

/-! ### The instances to choose from -/

/-- The changes among the calls of a run. -/
def changes (calls : List (Instant × Call)) : List (Instant × Change) :=
  calls.filterMap fun e =>
    match e.2 with
    | .change c => some (e.1, c)
    | _ => none

/-- Choices and releases leave the registry alone. -/
theorem run_registry (d : Dispatch) (calls : List (Instant × Call)) :
    (d.run calls).registry = (d.registry.run (changes calls)).1 := by
  induction calls generalizing d with
  | nil => rfl
  | cons e rest ih =>
    obtain ⟨now, c⟩ := e
    rw [run_cons, ih]
    cases c with
    | change c => rfl
    | select service draw => rfl
    | release place =>
      have hkeep : (d.step (now, .release place)).registry = d.registry := by
        simp only [step]
        split <;> rfl
      rw [hkeep]
      rfl

/-- All instances are listed by their ids, each once. -/
theorem list_pairwise (threshold : UInt32) (strategy : Strategy)
    (calls : List (Instant × Call)) :
    ((start threshold strategy).run calls).registry.list.values.Pairwise (·.id < ·.id) := by
  have h := Chronicle.numbered_run (Chronicle.numbered_start threshold) (changes calls)
  have heq : ((start threshold strategy).run calls).registry =
      ((Chronicle.start threshold).run (changes calls)).registry :=
    (run_registry _ calls).trans (Chronicle.run_registry (Chronicle.start threshold) _).symm
  rw [heq]
  exact h.list_pairwise

theorem healthy_pairwise (threshold : UInt32) (strategy : Strategy)
    (calls : List (Instant × Call)) (service : String) :
    (((start threshold strategy).run calls).registry.healthy service).Pairwise
      (·.id < ·.id) := (list_pairwise threshold strategy calls).filter _

end Dispatch

end Switchyard
