import Switchyard.Proofs.Gateway.Background
import Switchyard.Proofs.Hub.Feed
import Switchyard.Proofs.Schedule.Agenda

/-! The gateway as a sequence of events. A call changes the registry or the hub; a task is
started, told to stop or dropped; a tick of a task begins or ends. Whatever else happens touches
neither the registry and the hub nor the tasks and the passes that they have under way. Letting
time pass is a list of ticks, each of which comes when the clock of its task says so. -/
namespace Switchyard

namespace Gateway

/-! ### Events -/

inductive Event where
  | call (c : Feed.Call)
  | start (t : Task)
  | signal (t : Task)
  | drop (t : Task)
  | begin (t : Task) (moment : Nat)
  | finish (t : Task) (moment : Nat)
  /-- Everything apart from the registry, the hub, the tasks and their passes becomes as there. -/
  | rest (g : Gateway)

def feed (g : Gateway) : Feed := ⟨g.registry, g.hub⟩

/-- The gateway with another registry and hub. -/
def withFeed (g : Gateway) (f : Feed) : Gateway := { g with registry := f.registry, hub := f.hub }

/-- The gateway with the clock of a task as it becomes. -/
def withClock (g : Gateway) (t : Task) (c : Clock) : Gateway :=
  { g with agenda := g.agenda.set t (some c) }

/-- The gateway after an event. An event of a task without a clock does nothing. -/
def after (g : Gateway) : Event → Gateway
  | .call c => g.withFeed (g.feed.step (g.now, c))
  | .start t => g.startTask t
  | .signal t =>
    match g.agenda.get t with
    | some c => g.withClock t (c.signal g.elapsed)
    | none => g
  | .drop t => g.dropTask t
  | .begin t moment =>
    match g.agenda.get t with
    | some c => (beginTick t moment g).1.withClock t (c.step (beginTick t moment g).2 false)
    | none => g
  | .finish t moment =>
    match g.agenda.get t with
    | some c => (finishTick t moment g).withClock t (c.step 0 (g.ticksFirst t moment))
    | none => g
  | .rest other =>
    { other with
      registry := g.registry, hub := g.hub, agenda := g.agenda
      healthPass := g.healthPass, drillPass := g.drillPass }

def happen (g : Gateway) (es : List Event) : Gateway := es.foldl after g

@[simp] theorem happen_nil (g : Gateway) : g.happen [] = g := rfl

@[simp] theorem happen_cons (g : Gateway) (e : Event) (es : List Event) :
    g.happen (e :: es) = (g.after e).happen es := rfl

theorem happen_append (g : Gateway) (es more : List Event) :
    g.happen (es ++ more) = (g.happen es).happen more := List.foldl_append

/-! ### Ticks at their moments -/

/-- Whether the clock of a task waits for a tick at a moment. -/
def Awaits (g : Gateway) (t : Task) (moment : Nat) : Prop :=
  ∃ c deadline late, g.agenda.get t = some c ∧ c.phase = .waiting deadline late ∧
    moment = deadline + late

/-- Whether a tick of a task is under way. -/
def IsUnderway (g : Gateway) (t : Task) : Prop :=
  ∃ c ends next, g.agenda.get t = some c ∧ c.phase = .running ends next

/-- Whether an event can happen: a tick begins when the clock of its task has come to it, and
ends only after it has begun. -/
def CanHappen (g : Gateway) : Event → Prop
  | .begin t moment => g.Awaits t moment
  | .finish t _ => g.IsUnderway t
  | _ => True

/-- That each of the events can happen when it comes. -/
def Fits (g : Gateway) : List Event → Prop
  | [] => True
  | e :: rest => g.CanHappen e ∧ (g.after e).Fits rest

theorem fits_append {g : Gateway} {es more : List Event} :
    g.Fits (es ++ more) ↔ g.Fits es ∧ (g.happen es).Fits more := by
  induction es generalizing g with
  | nil => exact ⟨fun h => ⟨trivial, h⟩, fun h => h.2⟩
  | cons e es ih =>
    rw [List.cons_append, Fits, ih, Fits, happen_cons, and_assoc]

/-- Whether an event is the beginning or the end of a tick. -/
def Event.isTick : Event → Bool
  | .begin _ _ | .finish _ _ => true
  | _ => false

/-! ### Work as events -/

/-- The gateway with another agenda. -/
def withAgenda (g : Gateway) (a : Agenda) : Gateway := { g with agenda := a }

theorem beginTick_withAgenda (g : Gateway) (a : Agenda) (t : Task) (moment : Nat) :
    beginTick t moment (g.withAgenda a) =
      ((beginTick t moment g).1.withAgenda a, (beginTick t moment g).2) := by
  cases t <;> rfl

theorem finishTick_withAgenda (g : Gateway) (a : Agenda) (t : Task) (moment : Nat) :
    finishTick t moment (g.withAgenda a) = (finishTick t moment g).withAgenda a := by
  cases t <;> rfl

theorem after_begin {g : Gateway} {a : Agenda} {t : Task} {c : Clock} (hc : a.get t = some c)
    (moment : Nat) :
    (g.withAgenda a).after (.begin t moment) = (beginTick t moment g).1.withAgenda
      (a.set t (some (c.step (beginTick t moment g).2 false))) := by
  have hget : (g.withAgenda a).agenda.get t = some c := hc
  simp only [after, hget, beginTick_withAgenda]
  cases t <;> rfl

theorem after_finish {g : Gateway} {a : Agenda} {t : Task} {c : Clock} (hc : a.get t = some c)
    (moment : Nat) :
    (g.withAgenda a).after (.finish t moment) = (finishTick t moment g).withAgenda
      (a.set t (some (c.step 0 (g.ticksFirst t moment)))) := by
  have hget : (g.withAgenda a).agenda.get t = some c := hc
  simp only [after, hget, finishTick_withAgenda]
  cases t <;> rfl

/-- Ticks that lead from one gateway to another. -/
def Ticks (g g' : Gateway) : Prop :=
  ∃ es, g.Fits es ∧ g.happen es = g' ∧ ∀ e ∈ es, e.isTick = true

theorem Ticks.refl (g : Gateway) : Ticks g g :=
  ⟨[], trivial, rfl, fun _ h => absurd h List.not_mem_nil⟩

theorem Ticks.cons {g g' : Gateway} {e : Event} (he : e.isTick = true) (hfits : g.CanHappen e)
    (h : Ticks (g.after e) g') : Ticks g g' := by
  obtain ⟨es, hes, hg, hticks⟩ := h
  refine ⟨e :: es, ⟨hfits, hes⟩, hg, fun x hx => ?_⟩
  rcases List.mem_cons.1 hx with rfl | hx
  · exact he
  · exact hticks x hx

/-- To let the tasks work is a list of ticks. -/
theorem ticks_workUntil (g : Gateway) (until? : Option Task) (target : Nat) :
    Ticks g (g.workUntil until? target) := by
  refine Agenda.advance_rec work until? target
    (P := fun a s a' s' => Ticks (s.withAgenda a) (s'.withAgenda a')) ?_ ?_ ?_ g.agenda g
  · intro a s _
    exact .refl _
  · intro a s t moment c deadline late a' s' hdue hphase hmoment ih
    refine .cons (e := .begin t moment) rfl ⟨c, deadline, late, hdue.clock, hphase, hmoment⟩ ?_
    rw [after_begin hdue.clock]
    exact ih
  · intro a s t moment c next a' s' hdue hphase ih
    refine .cons (e := .finish t moment) rfl ⟨c, moment, next, hdue.clock, hphase⟩ ?_
    rw [after_finish hdue.clock]
    exact ih

end Gateway

end Switchyard
