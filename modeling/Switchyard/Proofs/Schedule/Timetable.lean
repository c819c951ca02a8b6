import Switchyard.Proofs.Schedule.Agenda

/-! The timetable of a task that is never told to stop. It is made of the period, the moment of
the start and the time that each tick takes, and the clock keeps to it event by event. Ticks never
overlap, keep to the grid while none takes longer than the period, and are not made up for after
one that did. -/
namespace Switchyard

/-- A tick on a timetable: when it is due and when it begins. -/
structure Tick where
  due : Nat
  began : Nat
deriving DecidableEq, Repr

namespace Tick

/-- The tick after one that takes `duration`. It is due a period after that one was, or a period
after that one began if it began too late, and it begins as soon as it is due and that one is
over. -/
def next (period : Nat) (s : Tick) (duration : Nat) : Tick :=
  let due := if s.began ≤ s.due + Clock.tolerance then s.due + period else s.began + period
  ⟨due, max due (s.began + duration)⟩

/-- The ticks of a task started at `origin`, counted from zero. -/
def nth (period origin : Nat) (takes : Nat → Nat) : Nat → Tick
  | 0 => ⟨origin + period, origin + period⟩
  | n + 1 => (nth period origin takes n).next period (takes n)

/-- When a tick ends. -/
def ended (period origin : Nat) (takes : Nat → Nat) (n : Nat) : Nat :=
  (nth period origin takes n).began + takes n

variable {period origin : Nat} {takes : Nat → Nat}

/-! ### Laws of the timetable -/

theorem due_le_began (n : Nat) :
    (nth period origin takes n).due ≤ (nth period origin takes n).began := by
  cases n with
  | zero => exact Nat.le_refl _
  | succ n => exact Nat.le_max_left _ _

/-- A tick is due when the clock says so. -/
theorem due_succ (n : Nat) :
    (nth period origin takes (n + 1)).due =
      Clock.after period (nth period origin takes n).due
        ((nth period origin takes n).began - (nth period origin takes n).due) := by
  have hle := @due_le_began period origin takes n
  rw [nth, next, Clock.after]
  dsimp only
  split <;> split <;> omega

/-- No tick begins before the one before it has ended. -/
theorem ended_le_began (n : Nat) :
    ended period origin takes n ≤ (nth period origin takes (n + 1)).began := Nat.le_max_right _ _

/-- A tick that is due by the end of the one before it begins at that end. -/
theorem began_of_overdue {n : Nat}
    (h : (nth period origin takes (n + 1)).due ≤ ended period origin takes n) :
    (nth period origin takes (n + 1)).began = ended period origin takes n := Nat.max_eq_right h

/-- While no tick takes longer than the period all of them begin on the grid. -/
theorem nth_of_on_time {n : Nat} (h : ∀ k < n, takes k ≤ period) :
    nth period origin takes n =
      ⟨origin + (n + 1) * period, origin + (n + 1) * period⟩ := by
  induction n with
  | zero => rw [nth, Nat.zero_add, Nat.one_mul]
  | succ n ih =>
    have hn := h n (Nat.lt_succ_self n)
    have hmul : (n + 1 + 1) * period = (n + 1) * period + period := Nat.succ_mul _ _
    rw [nth, ih fun k hk => h k (Nat.lt_succ_of_lt hk), next]
    dsimp only
    rw [if_pos (Nat.le_add_right _ _), hmul, ← Nat.add_assoc,
      Nat.max_eq_left (Nat.add_le_add_left hn _)]

/-- A tick is due no earlier than a period after the one before it was due. -/
theorem due_add_le (n m : Nat) :
    (nth period origin takes n).due + m * period ≤ (nth period origin takes (n + m)).due := by
  induction m with
  | zero => rw [Nat.zero_mul]; exact Nat.le_refl _
  | succ m ih =>
    have hle := @due_le_began period origin takes (n + m)
    rw [Nat.succ_mul, ← Nat.add_assoc n, nth, next]
    dsimp only
    split <;> omega

/-- However late some ticks are, `m` periods pass between a tick and the `m`-th after it, up to the
tolerance. -/
theorem began_add_le (n m : Nat) :
    (nth period origin takes n).began + m * period ≤
      (nth period origin takes (n + m)).began + Clock.tolerance := by
  cases m with
  | zero => rw [Nat.zero_mul]; exact Nat.le_add_right _ _
  | succ m =>
    have hnext : (nth period origin takes n).began + period ≤
        (nth period origin takes (n + 1)).due + Clock.tolerance := by
      rw [nth, next]
      dsimp only
      split <;> omega
    have hgrid := @due_add_le period origin takes (n + 1) m
    have hbegan := @due_le_began period origin takes (n + 1 + m)
    rw [Nat.succ_mul, ← Nat.add_assoc n, Nat.add_right_comm n m 1]
    omega

/-- Ticks begin one after another. -/
theorem began_mono {n m : Nat} (h : n ≤ m) :
    (nth period origin takes n).began ≤ (nth period origin takes m).began := by
  induction h with
  | refl => exact Nat.le_refl _
  | step _ ih => exact Nat.le_trans ih (Nat.le_trans (Nat.le_add_right _ _) (ended_le_began _))

end Tick

/-! ### Clocks on a timetable -/

namespace Clock

/-- Where a clock stands on a timetable, by the events that are past: between two ticks, or in
one. -/
inductive Stands (period origin : Nat) (takes : Nat → Nat) : Nat → Phase → Prop where
  | between (n : Nat) : Stands period origin takes (2 * n)
      (.waiting (Tick.nth period origin takes n).due
        ((Tick.nth period origin takes n).began - (Tick.nth period origin takes n).due))
  | within (n : Nat) : Stands period origin takes (2 * n + 1)
      (.running (Tick.ended period origin takes n) (Tick.nth period origin takes (n + 1)).due)

/-- The events of a timetable, counted from zero: every tick begins and ends. -/
def timed (period origin : Nat) (takes : Nat → Nat) (j : Nat) : Event :=
  if j % 2 = 0 then .start (Tick.nth period origin takes (j / 2)).began
  else .finish (Tick.ended period origin takes (j / 2))

def Event.moment : Event → Nat
  | .start moment | .finish moment => moment

variable {period origin : Nat} {takes : Nat → Nat} {c : Clock} {j : Nat}

theorem timed_even (n : Nat) :
    timed period origin takes (2 * n) = .start (Tick.nth period origin takes n).began := by
  rw [timed, if_pos (by omega), Nat.mul_div_cancel_left n Nat.two_pos]

theorem timed_odd (n : Nat) :
    timed period origin takes (2 * n + 1) = .finish (Tick.ended period origin takes n) := by
  rw [timed, if_neg (by omega), show (2 * n + 1) / 2 = n by omega]

theorem moment_mono {k : Nat} (h : j ≤ k) :
    (timed period origin takes j).moment ≤ (timed period origin takes k).moment := by
  induction h with
  | refl => exact Nat.le_refl _
  | @step k _ ih =>
    refine Nat.le_trans ih ?_
    obtain ⟨n, rfl | rfl⟩ : ∃ n, k = 2 * n ∨ k = 2 * n + 1 := ⟨k / 2, by omega⟩
    · rw [timed_even, timed_odd]
      exact Nat.le_add_right _ _
    · rw [timed_odd, show (2 * n + 1).succ = 2 * (n + 1) by omega, timed_even]
      exact Tick.ended_le_began n

/-- The next event is past by the moment at which the next tick to begin begins. -/
theorem moment_le_began (j : Nat) :
    (timed period origin takes j).moment ≤ (Tick.nth period origin takes ((j + 1) / 2)).began := by
  obtain ⟨n, rfl | rfl⟩ : ∃ n, j = 2 * n ∨ j = 2 * n + 1 := ⟨j / 2, by omega⟩
  · rw [timed_even, show (2 * n + 1) / 2 = n by omega]
    exact Nat.le_refl _
  · rw [timed_odd, show (2 * n + 1 + 1) / 2 = n + 1 by omega]
    exact Tick.ended_le_began n

theorem stands_start (positive : 0 < period) :
    Stands period origin takes 0 (start period positive origin).phase := by
  have hphase : (start period positive origin).phase = .waiting (Tick.nth period origin takes 0).due
      ((Tick.nth period origin takes 0).began - (Tick.nth period origin takes 0).due) := by
    rw [Tick.nth, Nat.sub_self]
    rfl
  rw [hphase]
  exact .between 0

namespace Stands

theorem eq_between {n : Nat} {phase : Phase} (h : Stands period origin takes (2 * n) phase) :
    phase = .waiting (Tick.nth period origin takes n).due
      ((Tick.nth period origin takes n).began - (Tick.nth period origin takes n).due) := by
  generalize hj : 2 * n = j at h
  cases h with
  | between m =>
    obtain rfl : n = m := by omega
    rfl
  | within m => omega

theorem eq_within {n : Nat} {phase : Phase} (h : Stands period origin takes (2 * n + 1) phase) :
    phase = .running (Tick.ended period origin takes n)
      (Tick.nth period origin takes (n + 1)).due := by
  generalize hj : 2 * n + 1 = j at h
  cases h with
  | between m => omega
  | within m =>
    obtain rfl : n = m := by omega
    rfl

theorem exists_of_waiting {deadline late : Nat}
    (h : Stands period origin takes j (.waiting deadline late)) : ∃ n, j = 2 * n := by
  cases h with
  | between n => exact ⟨n, rfl⟩

theorem exists_of_running {ends next : Nat}
    (h : Stands period origin takes j (.running ends next)) : ∃ n, j = 2 * n + 1 := by
  cases h with
  | within n => exact ⟨n, rfl⟩

/-- The next event of a clock on a timetable is the one that the timetable has. -/
theorem next? (h : Stands period origin takes j c.phase) :
    c.next? = some (timed period origin takes j).moment := by
  generalize hphase : c.phase = phase at h
  cases h with
  | between n =>
    rw [next?_of_waiting hphase, timed_even]
    exact congrArg some (Nat.add_sub_of_le (Tick.due_le_began n))
  | within n => rw [next?_of_running hphase, timed_odd]; rfl

/-- A clock that has not been told to stop comes from one event of its timetable to the next. -/
theorem step (h : Stands period origin takes j c.phase) (hperiod : c.period = period)
    (going : c.signalled = false) {duration : Nat}
    (hduration : j % 2 = 0 → duration = takes (j / 2)) (ticksFirst : Bool) :
    Stands period origin takes (j + 1) (c.step duration ticksFirst).phase := by
  generalize hphase : c.phase = phase at h
  cases h with
  | between n =>
    have hbegan := Nat.add_sub_of_le (@Tick.due_le_began period origin takes n)
    have htakes : duration = takes n := by
      rw [hduration (by omega), Nat.mul_div_cancel_left n Nat.two_pos]
    rw [step_of_waiting hphase, hperiod, hbegan, htakes, ← Tick.due_succ]
    exact .within n
  | within n =>
    have hstep : (c.step duration ticksFirst).phase =
        .waiting (Tick.nth period origin takes (n + 1)).due
          (Tick.ended period origin takes n - (Tick.nth period origin takes (n + 1)).due) := by
      rw [Clock.step, hphase]
      dsimp only
      rw [finish, hphase]
      dsimp only
      rw [going, Bool.false_and, if_neg Bool.false_ne_true]
    -- a tick that is due by then is late by what its predecessor takes beyond that
    have hlate : Tick.ended period origin takes n - (Tick.nth period origin takes (n + 1)).due =
        (Tick.nth period origin takes (n + 1)).began -
          (Tick.nth period origin takes (n + 1)).due := by
      have hmax : (Tick.nth period origin takes (n + 1)).began =
        max (Tick.nth period origin takes (n + 1)).due (Tick.ended period origin takes n) := rfl
      omega
    rw [hstep, hlate]
    exact .between (n + 1)

/-- What is heard of the next event, and the durations that are left after it. -/
theorem event (h : Stands period origin takes j c.phase) (durations : List Nat) :
    (match c.phase with
      | .waiting _ _ => (durations.tail, Event.start (timed period origin takes j).moment)
      | _ => (durations, Event.finish (timed period origin takes j).moment)) =
      (if j % 2 = 0 then durations.tail else durations, timed period origin takes j) := by
  generalize c.phase = phase at h
  cases h with
  | between n => rw [timed_even, if_pos (by omega)]; rfl
  | within n => rw [timed_odd, if_neg (by omega)]; rfl

end Stands

theorem step_frame (c : Clock) (duration : Nat) (ticksFirst : Bool) :
    (c.step duration ticksFirst).period = c.period ∧
      (c.step duration ticksFirst).signalled = c.signalled := by
  obtain ⟨period, positive, phase, signalled⟩ := c
  cases phase with
  | waiting deadline late => exact ⟨rfl, rfl⟩
  | running ends next =>
    simp only [step, finish]
    split <;> exact ⟨rfl, rfl⟩
  | exited moment => exact ⟨rfl, rfl⟩

/-- Of the durations that are left the first is that of the next tick. -/
theorem takes_of_getD {durations : List Nat}
    (h : ∀ i, durations.getD i 0 = takes ((j + 1) / 2 + i)) :
    (j % 2 = 0 → durations.headD 0 = takes (j / 2)) ∧
      ∀ i, (if j % 2 = 0 then durations.tail else durations).getD i 0 =
        takes ((j + 1 + 1) / 2 + i) := by
  refine ⟨fun heven => ?_, fun i => ?_⟩
  · have hhead : durations.headD 0 = durations.getD 0 0 := by cases durations <;> rfl
    rw [hhead, h, show (j + 1) / 2 + 0 = j / 2 by omega]
  · split
    · have htail : durations.tail.getD i 0 = durations.getD (i + 1) 0 := by
        cases durations <;> rfl
      rw [htail, h, show (j + 1) / 2 + (i + 1) = (j + 1 + 1) / 2 + i by omega]
    · rw [h, show (j + 1) / 2 = (j + 1 + 1) / 2 by omega]

/-- Where a clock has come to by a moment: it is still on its timetable, every event up to then is
past and no other, and the durations that are left are those of the ticks to come. -/
structure Reached (period origin : Nat) (takes : Nat → Nat) (target j : Nat) (c : Clock)
    (durations : List Nat) : Prop where
  stands : Stands period origin takes j c.phase
  kept : c.period = period
  going : c.signalled = false
  left : ∀ i, durations.getD i 0 = takes ((j + 1) / 2 + i)
  next : target < (timed period origin takes j).moment
  past : ∀ i < j, (timed period origin takes i).moment ≤ target

theorem exists_reached (target : Nat) (ticksFirst : Bool) {c : Clock} {durations : List Nat}
    (h : Stands period origin takes j c.phase) (hperiod : c.period = period)
    (going : c.signalled = false) (hdurations : ∀ i, durations.getD i 0 = takes ((j + 1) / 2 + i))
    (hpast : ∀ i < j, (timed period origin takes i).moment ≤ target) :
    ∃ j', Reached period origin takes target j' (c.advance target ticksFirst durations).1
      (c.advance target ticksFirst durations).2.1 := by
  fun_induction advance target ticksFirst c durations generalizing j with
  | case1 c durations hnone => cases h.next?.symm.trans hnone
  | case2 c durations moment hnext hle rest event hsplit r =>
    rename_i ih
    obtain rfl := Option.some.inj (h.next?.symm.trans hnext)
    obtain ⟨rfl, rfl⟩ := Prod.mk.inj ((h.event durations).symm.trans hsplit)
    obtain ⟨hsame, hstill⟩ := step_frame c (durations.headD 0) ticksFirst
    obtain ⟨htakes, hrest⟩ := takes_of_getD hdurations
    refine ih (h.step hperiod going htakes ticksFirst) (hsame.trans hperiod) (hstill.trans going)
      hrest fun i hi => ?_
    rcases Nat.lt_succ_iff_lt_or_eq.1 hi with hi | rfl
    · exact hpast i hi
    · exact hle
  | case3 c durations moment hnext hgt =>
    obtain rfl := Option.some.inj (h.next?.symm.trans hnext)
    exact ⟨j, h, hperiod, going, hdurations, Nat.lt_of_not_le hgt, hpast⟩

/-- Between two ticks, by the moments of both. -/
theorem Reached.of_between {target j n : Nat} {c : Clock} {durations : List Nat}
    (h : Reached period origin takes target j c durations)
    (before : ∀ k < n, Tick.ended period origin takes k ≤ target)
    (after : target < (Tick.nth period origin takes n).began) : j = 2 * n := by
  have hle : j ≤ 2 * n := by
    by_contra hlt
    have hpast := h.past (2 * n) (Nat.lt_of_not_le hlt)
    rw [timed_even] at hpast
    exact absurd hpast (Nat.not_le_of_lt after)
  have hge : 2 * n ≤ j := by
    by_contra hlt
    cases n with
    | zero => exact hlt (Nat.zero_le j)
    | succ n =>
      have hmono : (timed period origin takes j).moment ≤
          (timed period origin takes (2 * n + 1)).moment := moment_mono (by omega)
      have hended := before n (Nat.lt_succ_self n)
      have hnext := h.next
      rw [timed_odd] at hmono
      exact absurd (Nat.lt_of_lt_of_le hnext hmono) (Nat.not_lt_of_le hended)
  omega

/-- In a tick, by its moments. -/
theorem Reached.of_within {target j n : Nat} {c : Clock} {durations : List Nat}
    (h : Reached period origin takes target j c durations)
    (before : (Tick.nth period origin takes n).began ≤ target)
    (after : target < Tick.ended period origin takes n) : j = 2 * n + 1 := by
  have hle : j ≤ 2 * n + 1 := by
    by_contra hlt
    have hpast := h.past (2 * n + 1) (Nat.lt_of_not_le hlt)
    rw [timed_odd] at hpast
    exact absurd hpast (Nat.not_le_of_lt after)
  have hge : 2 * n < j := by
    by_contra hlt
    have hmono : (timed period origin takes j).moment ≤
        (timed period origin takes (2 * n)).moment := moment_mono (Nat.le_of_not_lt hlt)
    have hnext := h.next
    rw [timed_even] at hmono
    exact absurd (Nat.lt_of_lt_of_le hnext hmono) (Nat.not_lt_of_le before)
  omega

/-- What a clock does up to a moment is what its timetable has up to then. -/
theorem getElem?_advance (target : Nat) (ticksFirst : Bool) {c : Clock} {durations : List Nat}
    (h : Stands period origin takes j c.phase) (hperiod : c.period = period)
    (going : c.signalled = false) (hdurations : ∀ i, durations.getD i 0 = takes ((j + 1) / 2 + i))
    (i : Nat) :
    (c.advance target ticksFirst durations).2.2[i]? =
      if (timed period origin takes (j + i)).moment ≤ target then
        some (timed period origin takes (j + i))
      else none := by
  fun_induction advance target ticksFirst c durations generalizing j i with
  | case1 c durations hnone => cases h.next?.symm.trans hnone
  | case2 c durations moment hnext hle rest event hsplit r =>
    rename_i ih
    obtain rfl := Option.some.inj (h.next?.symm.trans hnext)
    obtain ⟨rfl, rfl⟩ := Prod.mk.inj ((h.event durations).symm.trans hsplit)
    cases i with
    | zero =>
      rw [Nat.add_zero, if_pos hle]
      rfl
    | succ i =>
      obtain ⟨hsame, hstill⟩ := step_frame c (durations.headD 0) ticksFirst
      obtain ⟨htakes, hrest⟩ := takes_of_getD hdurations
      have hnext := ih (h.step hperiod going htakes ticksFirst) (hsame.trans hperiod)
        (hstill.trans going) hrest i
      rw [Nat.add_right_comm] at hnext
      exact hnext
  | case3 c durations moment hnext hgt =>
    obtain rfl := Option.some.inj (h.next?.symm.trans hnext)
    have hmono : (timed period origin takes j).moment ≤
        (timed period origin takes (j + i)).moment := moment_mono (Nat.le_add_right j i)
    rw [if_neg (by omega)]
    rfl

theorem advance_of_exited (h : c.isExited = true) (target : Nat) (ticksFirst : Bool)
    (durations : List Nat) : c.advance target ticksFirst durations = (c, durations, []) := by
  obtain ⟨moment, hphase⟩ := isExited_iff.1 h
  have hnone : c.next? = none := by rw [next?, hphase]
  rw [advance]
  split
  · rfl
  · rename_i moment hnext
    cases hnone.symm.trans hnext

/-- A task whose period cannot be kept exits at once. -/
theorem isExited_launch (lost : ¬ period ≤ longest) : (launch period origin).isExited = true := by
  rw [launch, dif_neg fun h => lost h.2]
  rfl

/-- A task whose period cannot be kept does nothing at all, and its first tick would be due at a
moment that cannot be told. -/
theorem getElem?_launch (positive : 0 < period) {target : Nat} (told : target ≤ longest)
    (ticksFirst : Bool) (durations : List Nat) (i : Nat) :
    ((launch period origin).advance target ticksFirst durations).2.2[i]? =
      if (timed period origin (fun n => durations.getD n 0) i).moment ≤ target then
        some (timed period origin (fun n => durations.getD n 0) i)
      else none := by
  by_cases kept : period ≤ longest
  · have hstands : Stands period origin (fun n => durations.getD n 0) 0
        (start period positive origin).phase := stands_start positive
    have hstart := getElem?_advance target ticksFirst hstands rfl rfl
      (fun n => congrArg (durations.getD · 0) (by omega)) i
    rw [launch, dif_pos ⟨positive, kept⟩, hstart, Nat.zero_add]
  · have hfirst : origin + period ≤
        (timed period origin (fun n => durations.getD n 0) i).moment :=
      moment_mono (j := 0) (Nat.zero_le i)
    rw [advance_of_exited (isExited_launch kept), if_neg (by omega)]
    rfl

theorem exists_reached_launch (positive : 0 < period) (kept : period ≤ longest) (target : Nat)
    (ticksFirst : Bool) (durations : List Nat) :
    ∃ j, Reached period origin (fun n => durations.getD n 0) target j
      ((launch period origin).advance target ticksFirst durations).1
      ((launch period origin).advance target ticksFirst durations).2.1 := by
  rw [launch, dif_pos ⟨positive, kept⟩]
  exact exists_reached target ticksFirst (stands_start positive) rfl rfl
    (fun n => congrArg (durations.getD · 0) (by omega)) nofun

end Clock

end Switchyard
