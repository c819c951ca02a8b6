import Switchyard.Schedule.Clock

/-! The agenda: the clocks of all tasks that run in the background, and what happens when
they are let run up to a moment. Of two events at one moment the one of the task named
first comes first. -/
namespace Switchyard

/-- The tasks that run in the background. -/
inductive Task where
  | broadcast
  | health
  | drill
deriving DecidableEq, Repr

namespace Task

def name : Task → String
  | broadcast => "broadcast"
  | health | drill => "health_check"

end Task

structure Agenda where
  broadcast : Option Clock := none
  health : Option Clock := none
  drill : Option Clock := none
deriving Inhabited

namespace Agenda

def get (a : Agenda) : Task → Option Clock
  | .broadcast => a.broadcast
  | .health => a.health
  | .drill => a.drill

def set (a : Agenda) (t : Task) (c : Option Clock) : Agenda :=
  match t with
  | .broadcast => { a with broadcast := c }
  | .health => { a with health := c }
  | .drill => { a with drill := c }

def isRunning (a : Agenda) (t : Task) : Bool := (a.get t).any fun c => !c.isExited

/-- The moment of the next event of a task. -/
def next? (a : Agenda) (t : Task) : Option Nat := (a.get t).bind (·.next?)

/-- The earlier of two events, the first if they are at one moment. -/
def earlier : Option (Task × Nat) → Option (Task × Nat) → Option (Task × Nat)
  | some p, some q => if q.2 < p.2 then some q else some p
  | some p, none => some p
  | none, q => q

/-- The next event of a task, with the task's name. -/
def event (a : Agenda) (t : Task) : Option (Task × Nat) := (a.next? t).map fun moment => (t, moment)

/-- The next event of all. -/
def earliest? (a : Agenda) : Option (Task × Nat) :=
  earlier (earlier (a.event .broadcast) (a.event .health)) (a.event .drill)

/-- What the tasks do, as far as the agenda is concerned: beginning a tick tells how
long it takes. Whether a task that has been told to stop attends first to a tick that is
due by then is left open. -/
structure Work (σ : Type) where
  begin : Task → Nat → σ → σ × Nat
  finish : Task → Nat → σ → σ
  ticksFirst : Task → Nat → σ → Bool

def measure (target : Nat) (a : Agenda) : Nat :=
  let of (c : Option Clock) := (c.map (·.measure target)).getD 0
  of a.broadcast + of a.health + of a.drill

theorem earlier_eq_or (p q : Option (Task × Nat)) : earlier p q = p ∨ earlier p q = q := by
  cases p with
  | none => exact Or.inr rfl
  | some p =>
    cases q with
    | none => exact Or.inl rfl
    | some q =>
      simp only [earlier]
      split
      · exact Or.inr rfl
      · exact Or.inl rfl

theorem next?_of_event {a : Agenda} {t t' : Task} {moment : Nat}
    (h : a.event t' = some (t, moment)) : a.next? t = some moment := by
  obtain ⟨m, hm, he⟩ := Option.map_eq_some_iff.1 h
  cases he
  exact hm

theorem next?_of_earliest? {a : Agenda} {t : Task} {moment : Nat}
    (h : a.earliest? = some (t, moment)) : a.next? t = some moment := by
  unfold earliest? at h
  rcases earlier_eq_or (earlier (a.event .broadcast) (a.event .health)) (a.event .drill) with e | e
  · rw [e] at h
    rcases earlier_eq_or (a.event .broadcast) (a.event .health) with e | e <;> rw [e] at h
    · exact next?_of_event h
    · exact next?_of_event h
  · exact next?_of_event (e ▸ h)

theorem measure_set_lt {a : Agenda} {t : Task} {c c' : Clock} {target : Nat}
    (h : a.get t = some c) (lt : c'.measure target < c.measure target) :
    (a.set t (some c')).measure target < a.measure target := by
  cases t <;> simp only [get] at h <;> simp [measure, set, h] <;> omega

/-- Lets everything happen up to `target`. With `until?` naming a task it ends as soon as
that task has exited. -/
def advance {σ : Type} (w : Work σ) (until? : Option Task) (target : Nat) (a : Agenda) (s : σ) :
    Agenda × σ :=
  if until?.any fun t => !a.isRunning t then (a, s)
  else match _h : a.earliest? with
  | none => (a, s)
  | some (t, moment) =>
    if _le : moment ≤ target then
      match _hc : a.get t with
      | none => (a, s)
      | some c =>
        match c.phase with
        | .waiting _ _ =>
          let (s, duration) := w.begin t moment s
          advance w until? target (a.set t (some (c.step duration false))) s
        | _ =>
          advance w until? target (a.set t (some (c.step 0 (w.ticksFirst t moment s))))
            (w.finish t moment s)
    else (a, s)
termination_by a.measure target
decreasing_by
  all_goals
    have next : c.next? = some moment := by
      have := next?_of_earliest? _h
      simpa [next?, _hc] using this
    exact measure_set_lt _hc (Clock.measure_step_lt next _le _ _)

end Agenda

end Switchyard
