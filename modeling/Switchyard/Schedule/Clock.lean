/-! The clock of a task that repeats. Ticks are due on a grid of one period, the first a
period after the start. A tick that begins more than the tolerance after its moment
moves the grid: the next one is due a period after it began. All moments are counted in
milliseconds. -/
namespace Switchyard

/-- Where a repeating task stands. -/
inductive Phase where
  /-- The next tick is due at `deadline` and will begin `late` after it. -/
  | waiting (deadline late : Nat)
  /-- A tick runs until `ends`; the one after it is due at `next`. -/
  | running (ends next : Nat)
  /-- The task has come to its end. -/
  | exited (moment : Nat)
deriving DecidableEq, Repr, Inhabited

structure Clock where
  period : Nat
  positive : 0 < period
  phase : Phase
  /-- Whether the task has been told to stop. -/
  signalled : Bool := false

namespace Clock

/-- How late a tick may begin without moving the grid. -/
def tolerance : Nat := 5

/-- A clock started at `now`. -/
def start (period : Nat) (positive : 0 < period) (now : Nat) : Clock :=
  { period, positive, phase := .waiting (now + period) 0 }

/-- The longest period that can be kept, in milliseconds. -/
def longest : Nat := 9223372036854775807999

/-- A clock for any period; a task whose period cannot be kept ends at once. -/
def launch (period now : Nat) : Clock :=
  if h : 0 < period ∧ period ≤ longest then start period h.1 now
  else { period := 1, positive := Nat.one_pos, phase := .exited now }

def isExited (c : Clock) : Bool :=
  match c.phase with
  | .exited _ => true
  | _ => false

/-- The moment of the next event, the beginning or the end of a tick. -/
def next? (c : Clock) : Option Nat :=
  match c.phase with
  | .waiting deadline late => some (deadline + late)
  | .running ends _ => some ends
  | .exited _ => none

/-- When the tick after one is due that was due at `deadline` and began `late` after it. -/
def after (period deadline late : Nat) : Nat :=
  if late ≤ tolerance then deadline + period else deadline + late + period

/-- A tick begins that takes `duration`. -/
def begin (c : Clock) (duration : Nat) : Clock :=
  match c.phase with
  | .waiting deadline late =>
    { c with phase := .running (deadline + late + duration) (after c.period deadline late) }
  | _ => c

/-- A tick ends. A task that has been told to stop exits, unless its next tick is due
already and it happens to attend to that first. -/
def finish (c : Clock) (ticksFirst : Bool) : Clock :=
  match c.phase with
  | .running ends next =>
    if c.signalled && !(ticksFirst && next ≤ ends) then { c with phase := .exited ends }
    else { c with phase := .waiting next (ends - next) }
  | _ => c

/-- Tells the task to stop at `now`; between two ticks it exits at once. -/
def signal (c : Clock) (now : Nat) : Clock :=
  match c.phase with
  | .waiting _ _ => { c with phase := .exited now, signalled := true }
  | _ => { c with signalled := true }

/-! ### Events until a moment -/

/-- A bound on the events up to `target`. -/
def measure (target : Nat) (c : Clock) : Nat :=
  match c.phase with
  | .waiting deadline _ => 2 * (target + 1 - deadline)
  | .running _ next => 2 * (target + 1 - next) + 1
  | .exited _ => 0

theorem lt_after {period : Nat} (h : 0 < period) (deadline late : Nat) :
    deadline < after period deadline late := by
  unfold after
  split <;> omega

/-- The clock after its next event, a tick taking `duration`. -/
def step (c : Clock) (duration : Nat) (ticksFirst : Bool) : Clock :=
  match c.phase with
  | .waiting _ _ => c.begin duration
  | .running _ _ => c.finish ticksFirst
  | .exited _ => c

theorem measure_step_lt {c : Clock} {target moment : Nat} (h : c.next? = some moment)
    (le : moment ≤ target) (duration : Nat) (ticksFirst : Bool) :
    (c.step duration ticksFirst).measure target < c.measure target := by
  obtain ⟨period, positive, phase, signalled⟩ := c
  cases phase with
  | waiting deadline late =>
    have := lt_after positive deadline late
    simp only [next?, Option.some.injEq] at h
    simp only [step, begin, measure]
    omega
  | running ends next =>
    simp only [step, finish]
    split <;> simp only [measure] <;> omega
  | exited => simp [next?] at h

/-- An event of a task. -/
inductive Event where
  | start (moment : Nat)
  | finish (moment : Nat)
deriving DecidableEq, Repr

/-- All events up to `target`; the ticks take the durations of the list, and no time
once it is used up. -/
def advance (target : Nat) (ticksFirst : Bool) (c : Clock) (durations : List Nat) :
    Clock × List Nat × List Event :=
  match _h : c.next? with
  | none => (c, durations, [])
  | some moment =>
    if _le : moment ≤ target then
      let (rest, event) := match c.phase with
        | .waiting _ _ => (durations.tail, Event.start moment)
        | _ => (durations, Event.finish moment)
      let r := advance target ticksFirst (c.step (durations.headD 0) ticksFirst) rest
      (r.1, r.2.1, event :: r.2.2)
    else (c, durations, [])
termination_by c.measure target
decreasing_by exact measure_step_lt ‹_› ‹_› _ _

/-! ### Stopping -/

/-- How a task came to its end. -/
inductive Ending where
  | stopped
  | aborted
deriving DecidableEq, Repr

/-- The moment up to which a stopping task may run, if there is one: it has to be done
before the grace is over. -/
def lastMoment? (now grace : Nat) : Option Nat := if grace = 0 then none else some (now + grace - 1)

/-- Tells the task to stop at `now` and waits for it, but for less than `grace`. Answers
how it ended, when, and what happened meanwhile. -/
def stop (now grace : Nat) (ticksFirst : Bool) (c : Clock) (durations : List Nat) :
    Ending × Nat × List Event :=
  if c.isExited then (.stopped, now, [])
  else match lastMoment? now grace with
  | none => (.aborted, now, [])
  | some last =>
    let (c, _, events) := (c.signal now).advance last ticksFirst durations
    match c.phase with
    | .exited moment => (.stopped, moment, events)
    | _ => (.aborted, now + grace, events)

end Clock

end Switchyard
