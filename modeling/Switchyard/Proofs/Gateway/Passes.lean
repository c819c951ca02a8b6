import Mathlib.Data.List.Induction
import Switchyard.Proofs.Gateway.History
import Switchyard.Proofs.Health.Pass

/-! Passes in the background. A task has a pass under way from the beginning of a tick to its
end, unless it is dropped in between; nothing else touches that pass, and the registry learns of
its results at the end and not before. So a pass is folded as a whole or not at all. -/
namespace Switchyard

namespace Gateway

/-! ### Tasks -/

/-- The pass that a task has under way. -/
def passOf (g : Gateway) : Task → Pass
  | .broadcast => {}
  | .health => g.healthPass
  | .drill => g.drillPass

/-- The task that an event belongs to. -/
def Event.task? : Event → Option Task
  | .start t | .signal t | .drop t | .begin t _ | .finish t _ => some t
  | .call _ | .rest _ => none

/-- Whether an event is a tick of a task that begins, ends or is dropped. -/
def Event.turns (t : Task) : Event → Bool
  | .begin u _ | .finish u _ | .drop u => u = t
  | _ => false

/-- Whether an event is a tick of a task that begins or ends. -/
def Event.ticks (t : Task) : Event → Bool
  | .begin u _ | .finish u _ => u = t
  | _ => false

variable {g : Gateway} {t u : Task} {e : Event}

theorem beginTick_agenda (t : Task) (moment : Nat) (g : Gateway) :
    (beginTick t moment g).1.agenda = g.agenda := by
  cases t <;> rfl

theorem finishTick_agenda (t : Task) (moment : Nat) (g : Gateway) :
    (finishTick t moment g).agenda = g.agenda := by
  cases t <;> rfl

theorem passOf_beginTick (h : u ≠ t) (moment : Nat) (g : Gateway) :
    (beginTick t moment g).1.passOf u = g.passOf u := by
  cases t with
  | broadcast => cases u <;> rfl
  | health =>
    cases u with
    | health => exact absurd rfl h
    | broadcast | drill => rfl
  | drill =>
    cases u with
    | drill => exact absurd rfl h
    | broadcast | health => rfl

theorem passOf_finishTick (h : u ≠ t) (moment : Nat) (g : Gateway) :
    (finishTick t moment g).passOf u = g.passOf u := by
  cases t with
  | broadcast => cases u <;> rfl
  | health =>
    cases u with
    | health => exact absurd rfl h
    | broadcast | drill => rfl
  | drill =>
    cases u with
    | drill => exact absurd rfl h
    | broadcast | health => rfl

theorem passOf_dropTask (h : u ≠ t) (g : Gateway) : (g.dropTask t).passOf u = g.passOf u := by
  cases t with
  | broadcast => cases u <;> rfl
  | health =>
    cases u with
    | health => exact absurd rfl h
    | broadcast | drill => rfl
  | drill =>
    cases u with
    | drill => exact absurd rfl h
    | broadcast | health => rfl

theorem agenda_dropTask (t : Task) (g : Gateway) :
    (g.dropTask t).agenda = g.agenda.set t none := by
  cases t <;> rfl

/-- Starting a task starts its clock, if it has none. -/
theorem agenda_startTask (t : Task) (g : Gateway) :
    (g.startTask t).agenda = g.agenda.set t
      (some ((g.agenda.get t).getD (Clock.launch (g.period t) g.elapsed))) := by
  unfold startTask
  split
  · rename_i c hc
    rw [hc, Option.getD_some]
    cases t <;> simp only [Agenda.get] at hc <;> simp only [Agenda.set, ← hc]
  · rename_i hc
    rw [hc]
    rfl

theorem passOf_startTask (t u : Task) (g : Gateway) : (g.startTask t).passOf u = g.passOf u := by
  unfold startTask
  split <;> cases u <;> rfl

/-! ### Events of others -/

/-- What belongs to another task leaves the clock of a task alone. -/
theorem get_after_of_ne (h : e.task? ≠ some t) : (g.after e).agenda.get t = g.agenda.get t := by
  cases e with
  | call c => rfl
  | rest other => rfl
  | start u =>
    have hne : t ≠ u := fun heq => h (congrArg some heq.symm)
    rw [after, agenda_startTask, Agenda.get_set_of_ne hne]
  | signal u =>
    have hne : t ≠ u := fun heq => h (congrArg some heq.symm)
    rw [after]
    split
    · exact Agenda.get_set_of_ne hne _ _
    · rfl
  | drop u =>
    have hne : t ≠ u := fun heq => h (congrArg some heq.symm)
    rw [after, agenda_dropTask, Agenda.get_set_of_ne hne]
  | begin u moment =>
    have hne : t ≠ u := fun heq => h (congrArg some heq.symm)
    rw [after]
    split
    · exact (Agenda.get_set_of_ne hne _ _).trans
        (congrArg (·.get t) (beginTick_agenda u moment g))
    · rfl
  | finish u moment =>
    have hne : t ≠ u := fun heq => h (congrArg some heq.symm)
    rw [after]
    split
    · exact (Agenda.get_set_of_ne hne _ _).trans
        (congrArg (·.get t) (finishTick_agenda u moment g))
    · rfl

/-- Only turns of a task touch its pass. -/
theorem passOf_after (h : e.turns t = false) : (g.after e).passOf t = g.passOf t := by
  cases e with
  | call c => cases t <;> rfl
  | rest other => cases t <;> rfl
  | start u => exact passOf_startTask u t g
  | signal u =>
    rw [after]
    split
    · cases t <;> rfl
    · rfl
  | drop u =>
    have hne : t ≠ u := fun heq => of_decide_eq_false h heq.symm
    exact passOf_dropTask hne g
  | begin u moment =>
    have hne : t ≠ u := fun heq => of_decide_eq_false h heq.symm
    rw [after]
    split
    · exact Eq.trans (by cases t <;> rfl) (passOf_beginTick hne moment g)
    · rfl
  | finish u moment =>
    have hne : t ≠ u := fun heq => of_decide_eq_false h heq.symm
    rw [after]
    split
    · exact Eq.trans (by cases t <;> rfl) (passOf_finishTick hne moment g)
    · rfl

theorem not_isUnderway_of_none (h : g.agenda.get t = none) : ¬ g.IsUnderway t := by
  rintro ⟨c, -, -, hc, -⟩
  cases h.symm.trans hc

theorem isUnderway_congr {g' : Gateway} (h : g'.agenda.get t = g.agenda.get t) :
    g'.IsUnderway t ↔ g.IsUnderway t := by
  rw [IsUnderway, IsUnderway, h]

theorem launch_not_running (period now : Nat) {ends next : Nat} :
    (Clock.launch period now).phase ≠ .running ends next := by
  intro h
  unfold Clock.launch at h
  split at h <;> cases h

theorem signal_running_iff (c : Clock) (now : Nat) {ends next : Nat} :
    (c.signal now).phase = .running ends next ↔ c.phase = .running ends next := by
  unfold Clock.signal
  split
  · rename_i deadline late hphase
    rw [hphase]
    constructor <;> intro h <;> cases h
  · exact Iff.rfl

/-- Only turns of a task begin and end its ticks. -/
theorem isUnderway_after (h : e.turns t = false) : (g.after e).IsUnderway t ↔ g.IsUnderway t := by
  by_cases htask : e.task? = some t
  · cases e with
    | start u =>
      cases htask
      have hget : (g.startTask t).agenda.get t =
          some ((g.agenda.get t).getD (Clock.launch (g.period t) g.elapsed)) := by
        rw [agenda_startTask, Agenda.get_set_self]
      cases hc : g.agenda.get t with
      | none =>
        rw [hc, Option.getD_none] at hget
        refine ⟨?_, fun h => absurd h (not_isUnderway_of_none hc)⟩
        rintro ⟨c, ends, next, hc', hphase⟩
        cases hget.symm.trans hc'
        exact absurd hphase (launch_not_running _ _)
      | some c =>
        rw [hc, Option.getD_some, ← hc] at hget
        exact isUnderway_congr hget
    | signal u =>
      cases htask
      rw [after]
      cases hc : g.agenda.get t with
      | none => exact Iff.rfl
      | some c =>
        have hget : (g.withClock t (c.signal g.elapsed)).agenda.get t =
            some (c.signal g.elapsed) := Agenda.get_set_self _ _ _
        simp only [IsUnderway, hget, hc, Option.some.injEq]
        constructor
        · rintro ⟨_, ends, next, rfl, hphase⟩
          exact ⟨c, ends, next, rfl, (signal_running_iff c _).1 hphase⟩
        · rintro ⟨_, ends, next, rfl, hphase⟩
          exact ⟨_, ends, next, rfl, (signal_running_iff _ _).2 hphase⟩
    | drop u | begin u moment | finish u moment =>
      cases htask
      exact absurd h (by simp [Event.turns])
    | _ => cases htask
  · exact isUnderway_congr (get_after_of_ne htask)

/-! ### Turns -/

theorem not_isUnderway_drop (g : Gateway) (t : Task) : ¬ (g.after (.drop t)).IsUnderway t := by
  refine not_isUnderway_of_none ?_
  rw [after, agenda_dropTask, Agenda.get_set_self]

/-- A tick that has ended is no longer under way. -/
theorem not_isUnderway_finish (h : g.IsUnderway t) (moment : Nat) :
    ¬ (g.after (.finish t moment)).IsUnderway t := by
  obtain ⟨c, ends, next, hc, hphase⟩ := h
  rintro ⟨c', ends', next', hc', hphase'⟩
  have hget : (g.after (.finish t moment)).agenda.get t =
      some (c.step 0 (g.ticksFirst t moment)) := by
    rw [after, hc]
    exact Agenda.get_set_self _ _ _
  cases hget.symm.trans hc'
  rcases Clock.step_of_running hphase 0 (g.ticksFirst t moment) with h | h
  · cases h.symm.trans hphase'
  · cases h.symm.trans hphase'

theorem not_isUnderway_of_awaits {moment : Nat} (h : g.Awaits t moment) : ¬ g.IsUnderway t := by
  obtain ⟨c, deadline, late, hc, hphase, -⟩ := h
  rintro ⟨c', ends, next, hc', hphase'⟩
  cases hc.symm.trans hc'
  cases hphase.symm.trans hphase'

/-- A tick that has begun is under way. -/
theorem isUnderway_begin {moment : Nat} (h : g.Awaits t moment) :
    (g.after (.begin t moment)).IsUnderway t := by
  obtain ⟨c, deadline, late, hc, hphase, -⟩ := h
  have hget : (g.after (.begin t moment)).agenda.get t =
      some (c.step (beginTick t moment g).2 false) := by
    rw [after, hc]
    exact Agenda.get_set_self _ _ _
  exact ⟨_, _, _, hget, Clock.step_of_waiting hphase _ false⟩

/-- Without turns a pass stays as it is. -/
theorem happen_of_quiet {es : List Event} (hquiet : ∀ e ∈ es, e.turns t = false) :
    ((g.happen es).IsUnderway t ↔ g.IsUnderway t) ∧ (g.happen es).passOf t = g.passOf t := by
  induction es generalizing g with
  | nil => exact ⟨Iff.rfl, rfl⟩
  | cons e es ih =>
    have he := hquiet e List.mem_cons_self
    have hrest : ∀ x ∈ es, x.turns t = false := fun x hx => hquiet x (List.mem_cons_of_mem _ hx)
    obtain ⟨hunderway, hpass⟩ := ih (g := g.after e) hrest
    exact ⟨hunderway.trans (isUnderway_after he), hpass.trans (passOf_after he)⟩

/-- A tick that is under way has begun, and there has been no other turn since. -/
theorem exists_begin {es : List Event} (hfits : g.Fits es) (hidle : ¬ g.IsUnderway t)
    (h : (g.happen es).IsUnderway t) :
    ∃ early moment between, es = early ++ .begin t moment :: between ∧
      ∀ e ∈ between, e.turns t = false := by
  -- From the last event back: what is under way was so before it, unless it has just begun.
  induction es using List.reverseRecOn with
  | nil => exact absurd h hidle
  | append_singleton es e ih =>
    obtain ⟨hfits, hcan, -⟩ := fits_append.1 hfits
    rw [happen_append, happen_cons, happen_nil] at h
    by_cases he : e.turns t = true
    · cases e with
      | begin u moment =>
        obtain rfl : u = t := of_decide_eq_true he
        exact ⟨es, moment, [], rfl, fun _ hx => absurd hx List.not_mem_nil⟩
      | finish u moment =>
        obtain rfl : u = t := of_decide_eq_true he
        exact absurd h (not_isUnderway_finish hcan moment)
      | drop u =>
        obtain rfl : u = t := of_decide_eq_true he
        exact absurd h (not_isUnderway_drop _ u)
      | _ => cases he
    · have he : e.turns t = false := Bool.eq_false_iff.2 he
      obtain ⟨early, moment, between, rfl, hquiet⟩ := ih hfits ((isUnderway_after he).1 h)
      refine ⟨early, moment, between ++ [e], by simp, fun x hx => ?_⟩
      rcases List.mem_append.1 hx with hx | hx
      · exact hquiet x hx
      · obtain rfl := List.mem_singleton.1 hx
        exact he

/-- The first turn after the beginning of a tick is that it ends or is dropped. -/
theorem exists_ending {es : List Event} (hfits : g.Fits es) (h : g.IsUnderway t) :
    ((∀ e ∈ es, e.turns t = false) ∧ (g.happen es).IsUnderway t) ∨
      ∃ between e later, es = between ++ e :: later ∧ (∀ x ∈ between, x.turns t = false) ∧
        (e = .drop t ∨ ∃ moment, e = .finish t moment) := by
  induction es generalizing g with
  | nil => exact .inl ⟨fun _ hx => absurd hx List.not_mem_nil, h⟩
  | cons e es ih =>
    obtain ⟨hcan, hfits⟩ := hfits
    by_cases he : e.turns t = true
    · refine .inr ⟨[], e, es, rfl, fun _ hx => absurd hx List.not_mem_nil, ?_⟩
      cases e with
      | begin u moment =>
        obtain rfl : u = t := of_decide_eq_true he
        exact absurd h (not_isUnderway_of_awaits hcan)
      | finish u moment =>
        obtain rfl : u = t := of_decide_eq_true he
        exact .inr ⟨moment, rfl⟩
      | drop u =>
        obtain rfl : u = t := of_decide_eq_true he
        exact .inl rfl
      | _ => cases he
    · have he : e.turns t = false := Bool.eq_false_iff.2 he
      have hmem {l : List Event} (hl : ∀ x ∈ l, x.turns t = false) :
          ∀ x ∈ e :: l, x.turns t = false := by
        intro x hx
        rcases List.mem_cons.1 hx with rfl | hx
        · exact he
        · exact hl x hx
      rcases ih hfits ((isUnderway_after he).2 h) with
        ⟨hquiet, hend⟩ | ⟨between, x, later, rfl, hquiet, hx⟩
      · exact .inl ⟨hmem hquiet, hend⟩
      · exact .inr ⟨e :: between, x, later, rfl, hmem hquiet, hx⟩

/-! ### After the end -/

/-- A task without a clock neither gets one nor ticks, unless it is started. -/
theorem happen_of_stopped {es : List Event} (hfits : g.Fits es) (hnone : g.agenda.get t = none)
    (hstart : ∀ e ∈ es, e ≠ .start t) :
    (g.happen es).agenda.get t = none ∧ ∀ e ∈ es, e.ticks t = false := by
  induction es generalizing g with
  | nil => exact ⟨hnone, fun _ h => absurd h List.not_mem_nil⟩
  | cons e es ih =>
    obtain ⟨hcan, hfits⟩ := hfits
    have hnext : (g.after e).agenda.get t = none ∧ e.ticks t = false := by
      by_cases htask : e.task? = some t
      · cases e with
        | start u =>
          cases htask
          exact absurd rfl (hstart _ List.mem_cons_self)
        | signal u =>
          cases htask
          rw [after, hnone]
          exact ⟨hnone, rfl⟩
        | drop u =>
          cases htask
          rw [after, agenda_dropTask, Agenda.get_set_self]
          exact ⟨rfl, rfl⟩
        | begin u moment =>
          cases htask
          obtain ⟨c, -, -, hc, -⟩ := hcan
          cases hnone.symm.trans hc
        | finish u moment =>
          cases htask
          exact absurd hcan (not_isUnderway_of_none hnone)
        | _ => cases htask
      · refine ⟨(get_after_of_ne htask).trans hnone, ?_⟩
        cases e with
        | begin u moment | finish u moment =>
          exact decide_eq_false fun heq => htask (congrArg some heq)
        | _ => rfl
    obtain ⟨hend, hquiet⟩ := ih hfits hnext.1 fun x hx => hstart x (List.mem_cons_of_mem _ hx)
    refine ⟨hend, fun x hx => ?_⟩
    rcases List.mem_cons.1 hx with rfl | hx
    · exact hnext.2
    · exact hquiet x hx

/-- Moves that do not start a task leave it without a clock. -/
theorem Comes.get_of_none {s : Scope} {g' : Gateway} (h : Comes s g g') (ht : t ∉ s.starts)
    (hnone : g.agenda.get t = none) : g'.agenda.get t = none := by
  obtain ⟨es, hes⟩ := h.exists_account
  have hstart : ∀ e ∈ es, e ≠ .start t := by
    rintro _ he rfl
    exact ht (hes.within _ he)
  rw [← hes.leads]
  exact (happen_of_stopped hes.fits hnone hstart).1

/-- A task that has been stopped has no clock, on whichever way it came to its end. -/
theorem get_stopTask (g : Gateway) (t : Task) (grace : Nat) :
    (g.stopTask t grace).agenda.get t = none := by
  have hstopped := g.stopped t grace
  have dropped (g : Gateway) : (g.dropTask t).agenda.get t = none := by
    rw [agenda_dropTask, Agenda.get_set_self]
  generalize g.stopTask t grace = g' at hstopped ⊢
  cases hstopped with
  | absent hnone => exact hnone
  | atOnce notices => exact dropped g
  | inTime hc hlast notices => exact dropped _
  | aborted hc hlast notices => exact Agenda.get_advance_of_none _ _ _ _ (dropped _)

/-- What leaves a gateway with a check under way that takes five seconds: its only instance says
nothing. -/
def slowCheck : List Deed :=
  [.network (({} : Network).install "10.0.0.1:9000" (Keyed.insert ∅ "*" [.silent])),
    .call (.change (.register (Registration.new "api" "10.0.0.1" 9000))), .connect false,
    .call .subscribe, .startBackground, .sleep 30500]

end Gateway

end Switchyard
