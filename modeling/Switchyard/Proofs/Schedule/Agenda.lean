import Mathlib.Tactic.Common
import Switchyard.Schedule.Agenda

/-! The agenda at work. While the tasks are let work, the next event of all is taken again and
again, until none is left up to the target or the task that is waited for has exited. What holds
of it is shown along these events. -/
namespace Switchyard

/-! ### Clocks -/

namespace Clock

variable {c : Clock} {moment later : Nat}

/-- The next event of a clock is never before the last. -/
theorem le_next?_step (h : c.next? = some moment) (duration : Nat) (ticksFirst : Bool)
    (hlater : (c.step duration ticksFirst).next? = some later) : moment ≤ later := by
  obtain ⟨period, positive, phase, signalled⟩ := c
  cases phase with
  | waiting deadline late =>
    simp only [next?, Option.some.injEq] at h
    simp only [step, begin, next?, Option.some.injEq] at hlater
    omega
  | running ends next =>
    simp only [next?, Option.some.injEq] at h
    simp only [step, finish] at hlater
    split at hlater
    · cases hlater
    · simp only [next?, Option.some.injEq] at hlater
      omega
  | exited moment => cases h

theorem next?_of_waiting {deadline late : Nat} (h : c.phase = .waiting deadline late) :
    c.next? = some (deadline + late) := by
  rw [next?, h]

theorem next?_of_running {ends next : Nat} (h : c.phase = .running ends next) :
    c.next? = some ends := by
  rw [next?, h]

theorem phase_cases (h : c.next? = some moment) :
    (∃ deadline late, c.phase = .waiting deadline late ∧ moment = deadline + late) ∨
      ∃ next, c.phase = .running moment next := by
  unfold next? at h
  split at h
  · rename_i deadline late hphase
    exact .inl ⟨deadline, late, hphase, (Option.some.inj h).symm⟩
  · rename_i ends next hphase
    cases h
    exact .inr ⟨next, hphase⟩
  · cases h

/-- A tick that has begun is under way. -/
theorem step_of_waiting {deadline late : Nat} (h : c.phase = .waiting deadline late)
    (duration : Nat) (ticksFirst : Bool) :
    (c.step duration ticksFirst).phase =
      .running (deadline + late + duration) (after c.period deadline late) := by
  rw [step, h]
  dsimp only
  rw [begin, h]

/-- A tick that has ended is not. -/
theorem step_of_running {ends next : Nat} (h : c.phase = .running ends next)
    (duration : Nat) (ticksFirst : Bool) :
    (c.step duration ticksFirst).phase = .exited ends ∨
      (c.step duration ticksFirst).phase = .waiting next (ends - next) := by
  rw [step, h]
  dsimp only
  rw [finish, h]
  dsimp only
  split
  · exact .inl rfl
  · exact .inr rfl

theorem isExited_iff : c.isExited = true ↔ ∃ moment, c.phase = .exited moment := by
  unfold isExited
  split <;> simp_all

end Clock

namespace Agenda

variable {a : Agenda} {t other : Task} {moment later target : Nat} {until? : Option Task}

/-! ### One clock and the others -/

theorem get_set (a : Agenda) (t other : Task) (c : Option Clock) :
    (a.set t c).get other = if other = t then c else a.get other := by
  cases t <;> cases other <;> rfl

@[simp] theorem get_set_self (a : Agenda) (t : Task) (c : Option Clock) :
    (a.set t c).get t = c := by
  rw [get_set, if_pos rfl]

theorem get_set_of_ne (h : other ≠ t) (a : Agenda) (c : Option Clock) :
    (a.set t c).get other = a.get other := by
  rw [get_set, if_neg h]

theorem ne_of_get {c : Clock} (h : a.get t = none) (hc : a.get other = some c) : t ≠ other := by
  rintro rfl
  cases h.symm.trans hc

theorem next?_set (a : Agenda) (t other : Task) (c : Option Clock) :
    (a.set t c).next? other = if other = t then c.bind (·.next?) else a.next? other := by
  rw [next?, get_set]
  split <;> rfl

theorem isRunning_set (a : Agenda) (t other : Task) (c : Option Clock) :
    (a.set t c).isRunning other =
      if other = t then c.any (fun c => !c.isExited) else a.isRunning other := by
  rw [isRunning, get_set]
  split <;> rfl

/-! ### The next event of all -/

theorem earlier_eq_some {p q : Option (Task × Nat)} {r : Task × Nat} (h : earlier p q = some r) :
    (p = some r ∧ ∀ y, q = some y → r.2 ≤ y.2) ∨ (q = some r ∧ ∀ x, p = some x → r.2 < x.2) := by
  cases p with
  | none => exact .inr ⟨h, nofun⟩
  | some x =>
    cases q with
    | none => exact .inl ⟨h, nofun⟩
    | some y =>
      simp only [earlier] at h
      split at h
      · rename_i hlt
        cases h
        refine .inr ⟨rfl, ?_⟩
        rintro _ ⟨⟩
        exact hlt
      · rename_i hle
        cases h
        refine .inl ⟨rfl, ?_⟩
        rintro _ ⟨⟩
        exact Nat.le_of_not_lt hle

theorem earlier_le {p q : Option (Task × Nat)} {x : Task × Nat} (h : p = some x ∨ q = some x) :
    ∃ r, earlier p q = some r ∧ r.2 ≤ x.2 := by
  cases hr : earlier p q with
  | none =>
    cases p <;> cases q <;> simp [earlier] at h hr
    split at hr <;> cases hr
  | some r =>
    refine ⟨r, rfl, ?_⟩
    rcases earlier_eq_some hr with ⟨hp, hq⟩ | ⟨hq, hp⟩
    · rcases h with h | h
      · rw [hp] at h
        cases h
        exact Nat.le_refl _
      · exact hq x h
    · rcases h with h | h
      · exact Nat.le_of_lt (hp x h)
      · rw [hq] at h
        cases h
        exact Nat.le_refl _

theorem task_of_event (h : a.event other = some (t, moment)) : t = other := by
  obtain ⟨m, -, he⟩ := Option.map_eq_some_iff.1 h
  cases he
  rfl

/-- No event is before the next one, and at its moment none of the task named first. -/
theorem earliest?_le (h : a.earliest? = some (t, moment)) (hother : a.next? other = some later) :
    moment ≤ later ∧ (other = .broadcast → t ≠ .broadcast → moment < later) := by
  have hevent : a.event other = some (other, later) := by rw [event, hother]; rfl
  rcases earlier_eq_some h with ⟨hfront, hdrill⟩ | ⟨hdrill, hfront⟩
  · rcases earlier_eq_some hfront with ⟨hb, hh⟩ | ⟨hh, hb⟩
    · obtain rfl := task_of_event hb
      cases other with
      | broadcast =>
        rw [hb] at hevent
        cases hevent
        exact ⟨Nat.le_refl _, fun _ hne => absurd rfl hne⟩
      | health => exact ⟨hh _ hevent, nofun⟩
      | drill => exact ⟨hdrill _ hevent, nofun⟩
    · obtain rfl := task_of_event hh
      cases other with
      | broadcast => exact ⟨Nat.le_of_lt (hb _ hevent), fun _ _ => hb _ hevent⟩
      | health =>
        rw [hh] at hevent
        cases hevent
        exact ⟨Nat.le_refl _, nofun⟩
      | drill => exact ⟨hdrill _ hevent, nofun⟩
  · obtain rfl := task_of_event hdrill
    have before (hx : a.event .broadcast = some (other, later) ∨
        a.event .health = some (other, later)) : moment < later := by
      obtain ⟨r, hr, hle⟩ := earlier_le hx
      exact Nat.lt_of_lt_of_le (hfront r hr) hle
    cases other with
    | broadcast => exact ⟨Nat.le_of_lt (before (.inl hevent)), fun _ _ => before (.inl hevent)⟩
    | health => exact ⟨Nat.le_of_lt (before (.inr hevent)), nofun⟩
    | drill =>
      rw [hdrill] at hevent
      cases hevent
      exact ⟨Nat.le_refl _, nofun⟩

theorem next?_of_earliest?_eq_none (h : a.earliest? = none) (t : Task) : a.next? t = none := by
  have hnone (p q : Option (Task × Nat)) (hpq : earlier p q = none) : p = none ∧ q = none := by
    constructor
    · refine Option.eq_none_iff_forall_ne_some.2 fun x hx => ?_
      obtain ⟨r, hr, -⟩ := earlier_le (q := q) (.inl hx)
      cases hpq.symm.trans hr
    · refine Option.eq_none_iff_forall_ne_some.2 fun x hx => ?_
      obtain ⟨r, hr, -⟩ := earlier_le (p := p) (.inr hx)
      cases hpq.symm.trans hr
  obtain ⟨hfront, hdrill⟩ := hnone _ _ h
  obtain ⟨hbroadcast, hhealth⟩ := hnone _ _ hfront
  cases t with
  | broadcast => exact Option.map_eq_none_iff.1 hbroadcast
  | health => exact Option.map_eq_none_iff.1 hhealth
  | drill => exact Option.map_eq_none_iff.1 hdrill

/-! ### Working until a moment -/

/-- That the tasks work no further. -/
inductive Stops (until? : Option Task) (target : Nat) (a : Agenda) : Prop where
  | exited (t : Task) (h : until? = some t) (hout : a.isRunning t = false)
  | empty (h : ∀ t, a.next? t = none)
  | beyond (h : ∀ t moment, a.next? t = some moment → target < moment)

/-- That an event of a task comes next. -/
structure Due (until? : Option Task) (target : Nat) (a : Agenda) (t : Task) (moment : Nat)
    (c : Clock) : Prop where
  clock : a.get t = some c
  le : moment ≤ target
  waited : ∀ other, until? = some other → a.isRunning other = true
  earliest : a.earliest? = some (t, moment)

namespace Due

variable {c : Clock}

theorem next? (h : Due until? target a t moment c) : c.next? = some moment := by
  have hnext := next?_of_earliest? h.earliest
  rw [Agenda.next?, h.clock] at hnext
  exact hnext

theorem first (h : Due until? target a t moment c) (hother : a.next? other = some later) :
    moment ≤ later := (earliest?_le h.earliest hother).1

end Due

/-- What holds when the tasks stop, and is passed back over each beginning and each end of a
tick, holds of the work as a whole. -/
theorem advance_rec {σ : Type} (w : Work σ) (until? : Option Task) (target : Nat)
    {P : Agenda → σ → Agenda → σ → Prop}
    (stop : ∀ a s, Stops until? target a → P a s a s)
    (begin : ∀ a s t moment c deadline late a' s', Due until? target a t moment c →
      c.phase = .waiting deadline late → moment = deadline + late →
      P (a.set t (some (c.step (w.begin t moment s).2 false))) (w.begin t moment s).1 a' s' →
      P a s a' s')
    (finish : ∀ a s t moment c next a' s', Due until? target a t moment c →
      c.phase = .running moment next →
      P (a.set t (some (c.step 0 (w.ticksFirst t moment s)))) (w.finish t moment s) a' s' →
      P a s a' s')
    (a : Agenda) (s : σ) :
    P a s (advance w until? target a s).1 (advance w until? target a s).2 := by
  have waited {a : Agenda} (h : ¬ (until?.any fun t => !a.isRunning t) = true) (other : Task)
      (hother : until? = some other) : a.isRunning other = true := by
    rw [hother, Option.any_some] at h
    simpa using h
  fun_induction advance w until? target a s with
  | case1 a s hout =>
    obtain ⟨t, ht, hnot⟩ := (Option.any_eq_true _ _).1 hout
    exact stop a s (.exited t ht (by simpa using hnot))
  | case2 a s hgo hnone => exact stop a s (.empty (next?_of_earliest?_eq_none hnone))
  | case3 a s hgo t moment hnext hle hget =>
    have hsome := next?_of_earliest? hnext
    rw [next?, hget] at hsome
    cases hsome
  | case4 a s hgo t moment hnext hle c hget deadline late hphase s' duration hbegun ih =>
    have hdue : Due until? target a t moment c := ⟨hget, hle, waited hgo, hnext⟩
    have hmoment : moment = deadline + late := by
      have hnext := hdue.next?
      rw [Clock.next?_of_waiting hphase] at hnext
      exact (Option.some.inj hnext).symm
    refine begin a s t moment c deadline late _ _ hdue hphase hmoment ?_
    rw [hbegun]
    exact ih
  | case5 a s hgo t moment hnext hle c hget hphase ih =>
    have hdue : Due until? target a t moment c := ⟨hget, hle, waited hgo, hnext⟩
    rcases Clock.phase_cases hdue.next? with ⟨deadline, late, hwaiting, -⟩ | ⟨next, hrunning⟩
    · exact absurd hwaiting (hphase deadline late)
    · exact finish a s t moment c next _ _ hdue hrunning ih
  | case6 a s hgo t moment hnext hnle =>
    refine stop a s (.beyond fun other later hother => ?_)
    have hfirst := (earliest?_le hnext hother).1
    omega

/-- What the tasks preserve holds after they have been let run. -/
theorem advance_induct {σ : Type} {w : Work σ} {p : σ → Prop}
    (hbegin : ∀ t moment s, p s → p (w.begin t moment s).1)
    (hfinish : ∀ t moment s, p s → p (w.finish t moment s)) (until? : Option Task)
    (target : Nat) (a : Agenda) (s : σ) (h : p s) : p (advance w until? target a s).2 :=
  advance_rec w until? target (P := fun _ s _ s' => p s → p s') (fun _ _ _ hs => hs)
    (fun _ s t moment _ _ _ _ _ _ _ _ ih hs => ih (hbegin t moment s hs))
    (fun _ s t moment _ _ _ _ _ _ ih hs => ih (hfinish t moment s hs)) a s h

/-- A task that has no clock gets none. -/
theorem get_advance_of_none {σ : Type} (w : Work σ) (until? : Option Task) (target : Nat)
    {a : Agenda} (s : σ) (h : a.get t = none) : (advance w until? target a s).1.get t = none := by
  have keep {a : Agenda} {other : Task} {c : Clock} (hc : a.get other = some c) (c' : Clock)
      (h : a.get t = none) : (a.set other (some c')).get t = none := by
    rw [get_set_of_ne (ne_of_get h hc), h]
  exact advance_rec w until? target (P := fun a _ a' _ => a.get t = none → a'.get t = none)
    (fun _ _ _ h => h)
    (fun _ _ _ _ _ _ _ _ _ hdue _ _ ih h => ih (keep hdue.clock _ h))
    (fun _ _ _ _ _ _ _ _ hdue _ ih h => ih (keep hdue.clock _ h)) a s h

end Agenda

end Switchyard
