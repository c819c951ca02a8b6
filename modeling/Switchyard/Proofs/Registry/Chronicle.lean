import Switchyard.Proofs.Registry.Laws

/-! The chronicle of a registry: what its callers know of it. It counts the calls, and for
every id it keeps the life of the record that the id holds: the registration that began
it, and the findings of the probes that were folded into it since. A life is written from
the calls and their answers alone, never from the records; `turn` says what one call can
do to a record and to its life. -/
namespace Switchyard

open Registry (Change)

namespace Registry

/-- What a caller hears of a change. -/
inductive Echo where
  | registered (answer : Except Defect String)
  | deregistered (found : Bool)
  | folded (answer : Folded)

namespace Change

def echo (now : Instant) (r : Registry) : Change → Echo
  | .register q => .registered (r.register now q).answer
  | .deregister id => .deregistered (r.deregister id).answer
  | .fold id healthy => .folded (r.fold now id healthy).answer
  | .foldProbed copy healthy => .folded (r.foldProbed now copy healthy).answer

end Change

end Registry

/-- What a probe found, and the moment at which that was folded. -/
structure Finding where
  moment : Instant
  healthy : Bool
deriving DecidableEq, Repr

/-- The life of a record: the call that began it, by its place among all calls, the moment
and the request of that call, and what has been found since. -/
structure Life where
  call : Nat
  since : Instant
  request : Registration
  findings : List Finding := []

namespace Life

/-- A life after a finding, by the answer that the finding got. -/
def hear (f : Finding) : Folded → Option Life → Option Life
  | .transition .., life | .unchanged _, life =>
    life.map fun l => { l with findings := l.findings ++ [f] }
  | .evicted _, _ => none
  | .missing, life | .stale, life => life

/-- The life of the record under an id after a call, which `calls` others came before. -/
def next (id : String) (calls : Nat) (now : Instant) (life : Option Life) :
    Change → Registry.Echo → Option Life
  | .register q, .registered (.ok given) => if given = id then some ⟨calls, now, q, []⟩ else life
  | .deregister given, .deregistered true => if given = id then none else life
  | .fold given healthy, .folded a => if given = id then hear ⟨now, healthy⟩ a life else life
  | .foldProbed copy healthy, .folded a =>
    if copy.id = id then hear ⟨now, healthy⟩ a life else life
  | _, _ => life

end Life

/-- A registry and what its callers know of it. -/
structure Chronicle where
  registry : Registry
  calls : Nat := 0
  /-- The registrations that were accepted. -/
  registered : Nat := 0
  lives : String → Option Life := fun _ => none

namespace Chronicle

/-- An empty registry, before the first call. -/
def start (threshold : UInt32) : Chronicle := { registry := { threshold } }

def step (w : Chronicle) (e : Instant × Change) : Chronicle :=
  let echo := e.2.echo e.1 w.registry
  { registry := (e.2.run e.1 w.registry).1
    calls := w.calls + 1
    registered := match echo with
      | .registered (.ok _) => w.registered + 1
      | _ => w.registered
    lives := fun id => Life.next id w.calls e.1 (w.lives id) e.2 echo }

def run (w : Chronicle) (calls : List (Instant × Change)) : Chronicle := calls.foldl step w

@[simp] theorem run_nil (w : Chronicle) : w.run [] = w := rfl

@[simp] theorem run_cons (w : Chronicle) (e : Instant × Change) (rest : List (Instant × Change)) :
    w.run (e :: rest) = (w.step e).run rest := rfl

theorem run_append (w : Chronicle) (before after : List (Instant × Change)) :
    w.run (before ++ after) = (w.run before).run after := List.foldl_append

/-- The registry of a chronicle is the registry itself after the same calls. -/
theorem run_registry (w : Chronicle) (calls : List (Instant × Change)) :
    (w.run calls).registry = (w.registry.run calls).1 := by
  induction calls generalizing w with
  | nil => rfl
  | cons e rest ih =>
    rw [run_cons, ih]
    rfl

/-! ### One call -/

/-- What a call can do to the record under an id and to its life. -/
inductive Turn (w : Chronicle) (e : Instant × Change) (id : String) :
    Option Instance → Option Life → Prop where
  | kept : Turn w e id (w.registry.get? id) (w.lives id)
  | created (q : Registration) (call : e.2 = .register q) (sound : q.defect? = none)
      (given : w.registry.idFor e.1 q = id) :
      Turn w e id (some (w.registry.newRecord e.1 q)) (some ⟨w.calls, e.1, q, []⟩)
  | heard (i : Instance) (healthy : Bool) (held : w.registry.get? id = some i)
      (keeps : ¬ w.registry.evicts (Registry.probed e.1 healthy i) = true) :
      Turn w e id (some (Registry.probed e.1 healthy i))
        ((w.lives id).map fun l => { l with findings := l.findings ++ [⟨e.1, healthy⟩] })
  | gone (i : Instance) (held : w.registry.get? id = some i) : Turn w e id none none

variable (w : Chronicle) (now : Instant) (id : String)

theorem turn_register (q : Registration) :
    Turn w (now, .register q) id ((w.step (now, .register q)).registry.get? id)
      ((w.step (now, .register q)).lives id) := by
  have hget : (w.step (now, .register q)).registry = (w.registry.register now q).state := rfl
  have hlife : (w.step (now, .register q)).lives id =
      Life.next id w.calls now (w.lives id) (.register q)
        (.registered (w.registry.register now q).answer) := rfl
  rw [hget, hlife]
  cases h : q.defect? with
  | some d =>
    rw [Registry.register_of_defect h]
    exact .kept
  | none =>
    rw [Registry.get?_register_of_sound h, Registry.register_of_sound h]
    simp only [Life.next]
    by_cases hid : w.registry.idFor now q = id
    · rw [if_pos hid, if_pos hid.symm]
      exact .created q rfl h hid
    · rw [if_neg hid, if_neg (Ne.symm hid)]
      exact .kept

theorem turn_deregister (given : String) :
    Turn w (now, .deregister given) id ((w.step (now, .deregister given)).registry.get? id)
      ((w.step (now, .deregister given)).lives id) := by
  have hget : (w.step (now, .deregister given)).registry =
      (w.registry.deregister given).state := rfl
  have hlife : (w.step (now, .deregister given)).lives id =
      Life.next id w.calls now (w.lives id) (.deregister given)
        (.deregistered (w.registry.deregister given).answer) := rfl
  rw [hget, hlife, Registry.get?_deregister, Registry.deregister_answer]
  by_cases hid : given = id
  · subst hid
    rw [if_pos rfl]
    cases h : w.registry.get? given with
    | none =>
      have same : Turn w (now, .deregister given) given (w.registry.get? given)
          (w.lives given) := .kept
      rwa [h] at same
    | some i =>
      simp only [Option.isSome_some, Life.next, ↓reduceIte]
      exact .gone i h
  · rw [if_neg (Ne.symm hid)]
    cases (w.registry.get? given).isSome with
    | false => exact .kept
    | true =>
      simp only [Life.next, if_neg hid]
      exact .kept

/-- The turn of an id whose instance has been probed, whichever call brought the result. -/
theorem turn_of_fold (c : Change) (healthy : Bool) :
    Turn w (now, c) id ((w.registry.fold now id healthy).state.get? id)
      (Life.hear ⟨now, healthy⟩ (w.registry.fold now id healthy).answer (w.lives id)) := by
  cases h : w.registry.get? id with
  | none =>
    rw [Registry.fold_of_absent h]
    exact .kept
  | some i =>
    rw [Registry.get?_fold, if_pos rfl, h, Option.bind_some, Registry.afterProbe]
    by_cases he : w.registry.evicts (Registry.probed now healthy i) = true
    · rw [if_pos he, Registry.fold_of_evicts h he]
      exact .gone i h
    · rw [if_neg he, Registry.fold_of_keeps h he]
      split <;> exact .heard i healthy h he

theorem turn_fold (given : String) (healthy : Bool) :
    Turn w (now, .fold given healthy) id
      ((w.step (now, .fold given healthy)).registry.get? id)
      ((w.step (now, .fold given healthy)).lives id) := by
  have hget : (w.step (now, .fold given healthy)).registry =
      (w.registry.fold now given healthy).state := rfl
  have hlife : (w.step (now, .fold given healthy)).lives id =
      if given = id then
        Life.hear ⟨now, healthy⟩ (w.registry.fold now given healthy).answer (w.lives id)
      else w.lives id := rfl
  rw [hget, hlife]
  by_cases hid : given = id
  · subst hid
    rw [if_pos rfl]
    exact turn_of_fold w now given _ healthy
  · rw [if_neg hid, Registry.get?_fold, if_neg (Ne.symm hid)]
    exact .kept

theorem turn_foldProbed (copy : Instance) (healthy : Bool) :
    Turn w (now, .foldProbed copy healthy) id
      ((w.step (now, .foldProbed copy healthy)).registry.get? id)
      ((w.step (now, .foldProbed copy healthy)).lives id) := by
  have hget : (w.step (now, .foldProbed copy healthy)).registry =
      (w.registry.foldProbed now copy healthy).state := rfl
  have hlife : (w.step (now, .foldProbed copy healthy)).lives id =
      if copy.id = id then
        Life.hear ⟨now, healthy⟩ (w.registry.foldProbed now copy healthy).answer (w.lives id)
      else w.lives id := rfl
  rw [hget, hlife]
  rcases Registry.foldProbed_eq_or w.registry now copy healthy with h | h
  · rw [h]
    by_cases hid : copy.id = id
    · subst hid
      rw [if_pos rfl]
      exact turn_of_fold w now copy.id _ healthy
    · rw [if_neg hid, Registry.get?_fold, if_neg (Ne.symm hid)]
      exact .kept
  · rw [h]
    -- a dropped result is heard of nowhere
    simp only [Life.hear, ite_self]
    exact .kept

/-- Every call keeps what an id holds, creates it, adds a finding to it, or removes it. -/
theorem turn (e : Instant × Change) :
    Turn w e id ((w.step e).registry.get? id) ((w.step e).lives id) := by
  obtain ⟨now, c⟩ := e
  cases c with
  | register q => exact turn_register w now id q
  | deregister given => exact turn_deregister w now id given
  | fold given healthy => exact turn_fold w now id given healthy
  | foldProbed copy healthy => exact turn_foldProbed w now id copy healthy

end Chronicle

end Switchyard
