import Switchyard.Proofs.Schedule.Timetable

/-! Tasks that are told to stop. Between two ticks a task exits at once. A tick that is under way
goes on to its end or to the end of the grace; then the task exits, unless the next tick is due by
that moment: it may happen to attend to that first, and so on. `Follows` leaves all such choices
open, each to be made by itself. -/
namespace Switchyard.Clock

/-! ### Open choices -/

/-- What a clock may come to up to a moment, and the events on the way. What it attends to first
at the end of a tick is chosen anew each time. -/
inductive Follows (target : Nat) : Clock → List Nat → Clock → List Event → Prop where
  | rest {c : Clock} {durations : List Nat}
      (beyond : ∀ moment, c.next? = some moment → target < moment) :
      Follows target c durations c []
  | start {c c' : Clock} {durations : List Nat} {events : List Event} {deadline late : Nat}
      (phase : c.phase = .waiting deadline late) (le : deadline + late ≤ target)
      (later : Follows target (c.step (durations.headD 0) false) durations.tail c' events) :
      Follows target c durations c' (.start (deadline + late) :: events)
  | finish {c c' : Clock} {durations : List Nat} {events : List Event} {ends next : Nat}
      (ticksFirst : Bool) (phase : c.phase = .running ends next) (le : ends ≤ target)
      (later : Follows target (c.step 0 ticksFirst) durations c' events) :
      Follows target c durations c' (.finish ends :: events)

/-- To choose alike each time is one of the ways. -/
theorem follows_advance (target : Nat) (ticksFirst : Bool) (c : Clock) (durations : List Nat) :
    Follows target c durations (c.advance target ticksFirst durations).1
      (c.advance target ticksFirst durations).2.2 := by
  fun_induction advance target ticksFirst c durations with
  | case1 c durations hnone =>
    refine .rest fun moment h => ?_
    cases hnone.symm.trans h
  | case2 c durations moment hnext hle rest event hsplit r =>
    rename_i ih
    rcases phase_cases hnext with ⟨deadline, late, hphase, rfl⟩ | ⟨next, hphase⟩
    · rw [hphase] at hsplit
      obtain ⟨rfl, rfl⟩ := Prod.mk.inj hsplit
      refine .start hphase hle ?_
      have hstep : c.step (durations.headD 0) false = c.step (durations.headD 0) ticksFirst := by
        rw [step, step, hphase]
      rw [hstep]
      exact ih
    · rw [hphase] at hsplit
      obtain ⟨rfl, rfl⟩ := Prod.mk.inj hsplit
      refine .finish ticksFirst hphase hle ?_
      have hstep : c.step 0 ticksFirst = c.step (durations.headD 0) ticksFirst := by
        rw [step, step, hphase]
      rw [hstep]
      exact ih
  | case3 c durations moment hnext hgt =>
    refine .rest fun later h => ?_
    obtain rfl := Option.some.inj (hnext.symm.trans h)
    omega

/-- How a task that is told to stop at `now` may come to its end, when, and what may happen
meanwhile. -/
inductive Halts (now grace : Nat) (c : Clock) (durations : List Nat) :
    Ending × Nat × List Event → Prop where
  | exited (out : c.isExited = true) : Halts now grace c durations (.stopped, now, [])
  | atOnce (going : c.isExited = false) (none : lastMoment? now grace = none) :
      Halts now grace c durations (.aborted, now, [])
  | stopped {c' : Clock} {events : List Event} {last moment : Nat} (going : c.isExited = false)
      (some : lastMoment? now grace = some last)
      (follows : Follows last (c.signal now) durations c' events)
      (out : c'.phase = .exited moment) :
      Halts now grace c durations (.stopped, moment, events)
  | aborted {c' : Clock} {events : List Event} {last : Nat} (going : c.isExited = false)
      (some : lastMoment? now grace = some last)
      (follows : Follows last (c.signal now) durations c' events)
      (still : c'.isExited = false) :
      Halts now grace c durations (.aborted, now + grace, events)

theorem halts_stop (now grace : Nat) (ticksFirst : Bool) (c : Clock) (durations : List Nat) :
    Halts now grace c durations (c.stop now grace ticksFirst durations) := by
  unfold stop
  split
  · exact .exited (by assumption)
  · rename_i hgoing
    have going : c.isExited = false := Bool.eq_false_iff.2 hgoing
    split
    · exact .atOnce going (by assumption)
    · rename_i last hlast
      have hfollows := follows_advance last ticksFirst (c.signal now) durations
      dsimp only
      split
      · exact .stopped going hlast hfollows (by assumption)
      · rename_i hstill
        refine .aborted going hlast hfollows (Bool.eq_false_iff.2 fun hout => ?_)
        obtain ⟨moment, hphase⟩ := isExited_iff.1 hout
        exact hstill moment hphase

/-! ### One tick and the next -/

variable {period origin target : Nat} {takes : Nat → Nat} {c c' : Clock} {durations : List Nat}
  {events : List Event} {n : Nat}

/-- That a tick lasts until the next one is due. -/
def Overruns (period origin : Nat) (takes : Nat → Nat) (n : Nat) : Prop :=
  (Tick.nth period origin takes (n + 1)).due ≤ Tick.ended period origin takes n

/-- A clock that has been told to stop and stands in a tick. -/
structure Stopping (period origin : Nat) (takes : Nat → Nat) (n : Nat) (c : Clock)
    (durations : List Nat) : Prop where
  phase : c.phase = .running (Tick.ended period origin takes n)
    (Tick.nth period origin takes (n + 1)).due
  kept : c.period = period
  told : c.signalled = true
  left : ∀ i, durations.getD i 0 = takes (n + 1 + i)

namespace Stopping

/-- At the end of the tick the task exits, or it attends to a tick that is due by then. -/
theorem finish (h : Stopping period origin takes n c durations) (ticksFirst : Bool) :
    ((c.step 0 ticksFirst).phase = .exited (Tick.ended period origin takes n) ∧
        (ticksFirst = true → ¬ Overruns period origin takes n)) ∨
      (ticksFirst = true ∧ Overruns period origin takes n ∧
        (c.step 0 ticksFirst).phase = .waiting (Tick.nth period origin takes (n + 1)).due
          (Tick.ended period origin takes n - (Tick.nth period origin takes (n + 1)).due)) := by
  rw [step, h.phase]
  dsimp only
  rw [Clock.finish, h.phase]
  dsimp only
  rw [h.told, Bool.true_and]
  cases ticksFirst with
  | false => exact .inl ⟨rfl, fun h => absurd h Bool.false_ne_true⟩
  | true =>
    by_cases hdue : Overruns period origin takes n
    · have hle : (Tick.nth period origin takes (n + 1)).due ≤ Tick.ended period origin takes n :=
        hdue
      simp [hle, hdue]
    · have hlt : ¬ (Tick.nth period origin takes (n + 1)).due ≤
        Tick.ended period origin takes n := hdue
      simp [hlt, hdue]

/-- The tick that it attends to begins at that very moment. -/
theorem start (h : Stopping period origin takes n c durations)
    (hdue : Overruns period origin takes n) {ticksFirst : Bool}
    (hphase : (c.step 0 ticksFirst).phase = .waiting (Tick.nth period origin takes (n + 1)).due
      (Tick.ended period origin takes n - (Tick.nth period origin takes (n + 1)).due)) :
    Stopping period origin takes (n + 1)
      ((c.step 0 ticksFirst).step (durations.headD 0) false) durations.tail := by
  obtain ⟨hkept, htold⟩ := step_frame c 0 ticksFirst
  obtain ⟨hkept', htold'⟩ := step_frame (c.step 0 ticksFirst) (durations.headD 0) false
  have hbegan : (Tick.nth period origin takes (n + 1)).began = Tick.ended period origin takes n :=
    Tick.began_of_overdue hdue
  have hle : (Tick.nth period origin takes (n + 1)).due ≤ Tick.ended period origin takes n := hdue
  have hhead : durations.headD 0 = takes (n + 1) := by
    have hfirst := h.left 0
    cases durations <;> exact hfirst
  refine ⟨?_, hkept'.trans (hkept.trans h.kept), htold'.trans (htold.trans h.told), fun i => ?_⟩
  · have hended : Tick.ended period origin takes (n + 1) =
        Tick.ended period origin takes n + takes (n + 1) := by
      rw [Tick.ended, hbegan]
    rw [step_of_waiting hphase, hkept, h.kept, Nat.add_sub_of_le hle, hhead, hended,
      Tick.due_succ (n + 1), hbegan]
  · have htail : durations.tail.getD i 0 = durations.getD (i + 1) 0 := by
      cases durations <;> rfl
    rw [htail, h.left]
    exact congrArg takes (by omega)

end Stopping

/-! ### How a task may come to its end -/

/-- The ends of `k` ticks from the `n`-th on, each with the tick that begins at that end. -/
def relays (period origin : Nat) (takes : Nat → Nat) (n : Nat) : Nat → List Event
  | 0 => []
  | k + 1 =>
    .finish (Tick.ended period origin takes n) :: .start (Tick.ended period origin takes n) ::
      relays period origin takes (n + 1) k

/-- That a clock in its `n`-th tick goes on with the `k` ticks after it, and then exits at the end
of the last, or has not come to that end by `target`. -/
structure Ends (period origin : Nat) (takes : Nat → Nat) (target n k : Nat) (c' : Clock)
    (events : List Event) : Prop where
  overruns : ∀ i < k, Overruns period origin takes (n + i) ∧
    Tick.ended period origin takes (n + i) ≤ target
  ending : Tick.ended period origin takes (n + k) ≤ target ∧
      c'.phase = .exited (Tick.ended period origin takes (n + k)) ∧
      events = relays period origin takes n k ++
        [.finish (Tick.ended period origin takes (n + k))] ∨
    target < Tick.ended period origin takes (n + k) ∧ c'.isExited = false ∧
      events = relays period origin takes n k

theorem Ends.succ {k : Nat} (h : Ends period origin takes target (n + 1) k c' events)
    (hdue : Overruns period origin takes n) (hle : Tick.ended period origin takes n ≤ target) :
    Ends period origin takes target n (k + 1) c'
      (.finish (Tick.ended period origin takes n) :: .start (Tick.ended period origin takes n) ::
        events) := by
  have hshift (i : Nat) : n + (i + 1) = n + 1 + i := by omega
  refine ⟨fun i hi => ?_, ?_⟩
  · cases i with
    | zero => exact ⟨hdue, hle⟩
    | succ i =>
      rw [hshift]
      exact h.overruns i (Nat.lt_of_succ_lt_succ hi)
  · rw [hshift]
    rcases h.ending with ⟨hin, hphase, rfl⟩ | ⟨hout, hstill, rfl⟩
    · exact .inl ⟨hin, hphase, rfl⟩
    · exact .inr ⟨hout, hstill, rfl⟩

/-- Whatever is chosen, a task that is told to stop in a tick comes to its end with that tick or
with one of those that overran after it. -/
theorem Follows.exists_ends (h : Follows target c durations c' events)
    (hc : Stopping period origin takes n c durations) :
    ∃ k, Ends period origin takes target n k c' events := by
  -- two events at a time: a tick ends, and the next one begins
  induction hlength : events.length using Nat.strongRecOn generalizing c durations n events with
  | ind length ih =>
    cases h with
    | rest beyond =>
      refine ⟨0, nofun, .inr ⟨beyond _ (next?_of_running hc.phase), ?_, rfl⟩⟩
      rw [isExited, hc.phase]
    | start phase le later => cases hc.phase.symm.trans phase
    | finish ticksFirst phase le later =>
      obtain ⟨rfl, rfl⟩ := Phase.running.inj (hc.phase.symm.trans phase)
      rcases hc.finish ticksFirst with ⟨hphase, -⟩ | ⟨-, hdue, hphase⟩
      · cases later with
        | rest => exact ⟨0, nofun, .inl ⟨le, hphase, rfl⟩⟩
        | start phase' => cases hphase.symm.trans phase'
        | finish _ phase' => cases hphase.symm.trans phase'
      · have hnow := Nat.add_sub_of_le hdue
        cases later with
        | rest beyond =>
          have hlt := beyond _ (next?_of_waiting hphase)
          omega
        | @start _ _ _ more _ _ phase' le' later' =>
          obtain ⟨rfl, rfl⟩ := Phase.waiting.inj (hphase.symm.trans phase')
          obtain ⟨k, hk⟩ := ih more.length (by simp only [← hlength, List.length_cons]; omega)
            later' (hc.start hdue hphase) rfl
          rw [hnow]
          exact ⟨k + 1, hk.succ hdue le⟩
        | finish _ phase' => cases hphase.symm.trans phase'

/-- Each of these ends is one of the ways. -/
theorem exists_follows (hc : Stopping period origin takes n c durations) {k : Nat}
    (h : ∀ i < k, Overruns period origin takes (n + i) ∧
      Tick.ended period origin takes (n + i) ≤ target) :
    ∃ c' events, Follows target c durations c' events ∧
      Ends period origin takes target n k c' events := by
  induction k generalizing n c durations with
  | zero =>
    by_cases hle : Tick.ended period origin takes n ≤ target
    · rcases hc.finish false with ⟨hphase, -⟩ | ⟨hchoice, -⟩
      · refine ⟨_, _, .finish false hc.phase hle (.rest fun moment hnext => ?_), nofun,
          .inl ⟨hle, hphase, rfl⟩⟩
        rw [Clock.next?, hphase] at hnext
        cases hnext
      · cases hchoice
    · refine ⟨c, [], .rest fun moment hnext => ?_, nofun, .inr ⟨Nat.lt_of_not_le hle, ?_, rfl⟩⟩
      · obtain rfl := Option.some.inj ((next?_of_running hc.phase).symm.trans hnext)
        exact Nat.lt_of_not_le hle
      · rw [isExited, hc.phase]
  | succ k ih =>
    obtain ⟨hdue, hle⟩ := h 0 (Nat.zero_lt_succ k)
    rcases hc.finish true with ⟨-, hnot⟩ | ⟨-, -, hphase⟩
    · exact absurd hdue (hnot rfl)
    · have hnow := Nat.add_sub_of_le (show (Tick.nth period origin takes (n + 1)).due ≤
        Tick.ended period origin takes n from hdue)
      obtain ⟨c', events, hfollows, hends⟩ := ih (hc.start hdue hphase) fun i hi => by
        rw [Nat.add_right_comm, Nat.add_assoc]
        exact h (i + 1) (Nat.succ_lt_succ hi)
      have hstart := Follows.start hphase (hnow.symm ▸ hle) hfollows
      rw [hnow] at hstart
      exact ⟨c', _, .finish true hc.phase hle hstart, hends.succ hdue hle⟩

/-- How a task that is told to stop in its `n`-th tick comes to its end when it goes on with `k`
ticks more: it exits at the end of the last, if that comes before the limit. -/
def ending (period origin : Nat) (takes : Nat → Nat) (limit n k : Nat) :
    Ending × Nat × List Event :=
  if Tick.ended period origin takes (n + k) < limit then
    (.stopped, Tick.ended period origin takes (n + k),
      relays period origin takes n k ++ [.finish (Tick.ended period origin takes (n + k))])
  else (.aborted, limit, relays period origin takes n k)

section

variable {now grace seen j : Nat} {outcome : Ending × Nat × List Event}

theorem Halts.of_exited (h : Halts now grace c durations outcome) (out : c.isExited = true) :
    outcome = (.stopped, now, []) := by
  cases h with
  | exited => rfl
  | atOnce going => cases out.symm.trans going
  | stopped going => cases out.symm.trans going
  | aborted going => cases out.symm.trans going

/-- A clock between two ticks exits when it is told to. -/
theorem Halts.of_between (h : Halts now grace c durations outcome) {deadline late : Nat}
    (hphase : c.phase = .waiting deadline late) :
    outcome.2 = (now, []) ∧ (0 < grace → outcome.1 = .stopped) := by
  have hsignal : (c.signal now).phase = .exited now := by
    rw [signal, hphase]
  have hlast {last : Nat} {c' : Clock} {events : List Event}
      (hfollows : Follows last (c.signal now) durations c' events) :
      c'.phase = .exited now ∧ events = [] := by
    cases hfollows with
    | rest => exact ⟨hsignal, rfl⟩
    | start phase => cases hsignal.symm.trans phase
    | finish _ phase => cases hsignal.symm.trans phase
  cases h with
  | exited => exact ⟨rfl, fun _ => rfl⟩
  | atOnce going none =>
    refine ⟨rfl, fun hgrace => ?_⟩
    rw [lastMoment?, if_neg (Nat.ne_of_gt hgrace)] at none
    cases none
  | stopped going some follows out =>
    obtain ⟨hout, rfl⟩ := hlast follows
    obtain rfl := Phase.exited.inj (hout.symm.trans out)
    exact ⟨rfl, fun _ => rfl⟩
  | aborted going some follows still =>
    obtain ⟨hout, -⟩ := hlast follows
    rw [isExited, hout] at still
    cases still

theorem grace_of_no_lastMoment (h : lastMoment? now grace = none) : grace = 0 := by
  unfold lastMoment? at h
  split at h
  · assumption
  · cases h

theorem le_last_iff {last moment : Nat} (h : lastMoment? now grace = some last) :
    moment ≤ last ↔ moment < now + grace := by
  unfold lastMoment? at h
  split at h
  · cases h
  · obtain rfl := Option.some.inj h
    omega

/-- A clock in a tick comes to its end in one of the ways. -/
theorem Halts.exists_ending (h : Halts now grace c durations outcome)
    (going : c.isExited = false) (hc : Stopping period origin takes n (c.signal now) durations)
    (hnow : now ≤ Tick.ended period origin takes n) :
    ∃ k, (∀ i < k, Overruns period origin takes (n + i) ∧
        Tick.ended period origin takes (n + i) < now + grace) ∧
      outcome = ending period origin takes (now + grace) n k := by
  cases h with
  | exited out => cases going.symm.trans out
  | atOnce _ none =>
    obtain rfl := grace_of_no_lastMoment none
    exact ⟨0, nofun, (if_neg (Nat.not_lt.2 hnow)).symm⟩
  | stopped _ some follows out =>
    obtain ⟨k, hk, ⟨hin, hphase, rfl⟩ | ⟨-, hstill, -⟩⟩ := follows.exists_ends hc
    · obtain rfl := Phase.exited.inj (hphase.symm.trans out)
      exact ⟨k, fun i hi => ⟨(hk i hi).1, (le_last_iff some).1 (hk i hi).2⟩,
        (if_pos ((le_last_iff some).1 hin)).symm⟩
    · rw [isExited, out] at hstill
      cases hstill
  | aborted _ some follows still =>
    obtain ⟨k, hk, ⟨-, hphase, -⟩ | ⟨hout, -, rfl⟩⟩ := follows.exists_ends hc
    · rw [isExited, hphase] at still
      cases still
    · exact ⟨k, fun i hi => ⟨(hk i hi).1, (le_last_iff some).1 (hk i hi).2⟩,
        (if_neg fun hin => Nat.not_le_of_lt hout ((le_last_iff some).2 hin)).symm⟩

/-- And each of the ways is open to it. -/
theorem halts_ending (going : c.isExited = false)
    (hc : Stopping period origin takes n (c.signal now) durations)
    (hnow : now ≤ Tick.ended period origin takes n) {k : Nat}
    (hk : ∀ i < k, Overruns period origin takes (n + i) ∧
      Tick.ended period origin takes (n + i) < now + grace) :
    Halts now grace c durations (ending period origin takes (now + grace) n k) := by
  cases hlast : lastMoment? now grace with
  | none =>
    obtain rfl := grace_of_no_lastMoment hlast
    cases k with
    | zero =>
      have hending : ending period origin takes (now + 0) n 0 = (.aborted, now, []) :=
        if_neg (Nat.not_lt.2 hnow)
      rw [hending]
      exact .atOnce going hlast
    | succ k => exact absurd (hk 0 (Nat.zero_lt_succ k)).2 (Nat.not_lt.2 hnow)
  | some last =>
    obtain ⟨c', events, hfollows, hends⟩ := exists_follows hc
      fun i hi => ⟨(hk i hi).1, (le_last_iff hlast).2 (hk i hi).2⟩
    rcases hends.ending with ⟨hin, hphase, rfl⟩ | ⟨hout, hstill, rfl⟩
    · rw [ending, if_pos ((le_last_iff hlast).1 hin)]
      exact .stopped going hlast hfollows hphase
    · rw [ending, if_neg fun hin => Nat.not_le_of_lt hout ((le_last_iff hlast).2 hin)]
      exact .aborted going hlast hfollows hstill

/-- A clock that is told to stop in a tick. -/
theorem stopping_signal (hphase : c.phase = .running (Tick.ended period origin takes n)
      (Tick.nth period origin takes (n + 1)).due) (hkept : c.period = period)
    (hleft : ∀ i, durations.getD i 0 = takes (n + 1 + i)) (now : Nat) :
    Stopping period origin takes n (c.signal now) durations := by
  have hsignal : c.signal now = { c with signalled := true } := by rw [signal, hphase]
  rw [hsignal]
  exact ⟨hphase, hkept, rfl, hleft⟩

/-- Nothing begins in a tick that is the last. -/
theorem ending_zero (limit : Nat) :
    ending period origin takes limit n 0 =
      if Tick.ended period origin takes n < limit then
        (.stopped, Tick.ended period origin takes n, [.finish (Tick.ended period origin takes n)])
      else (.aborted, limit, []) := rfl

theorem start_mem_ending (limit k : Nat) :
    .start (Tick.ended period origin takes n) ∈
      (ending period origin takes limit n (k + 1)).2.2 := by
  rw [ending]
  split <;> simp [relays]

end

/-- A task is told to stop at `now`, what is due at that very moment being past already or not. If
no tick is under way it exits at once. A tick that is under way comes to its end, and the task with
it, unless the grace is over first; but when the next tick is due by then, the task may as well go
on with that one, and with any number of ticks each of which is due by the end of the one before.
So no tick begins, whatever the task attends to first, just when the one that is under way ends
before the next is due or does not end in time. -/
theorem stops_after_overruns {period seen now : Nat} (positive : 0 < period)
    (told : seen ≤ longest) (near : now = seen ∨ now = seen + 1) (origin grace : Nat)
    (durations : List Nat) (ticksFirst : Bool) :
    let takes n := durations.getD n 0
    let tick := Tick.nth period origin takes
    let ended := Tick.ended period origin takes
    let limit := now + grace
    let work := (launch period origin).advance seen ticksFirst durations
    let halts := Halts now grace work.1 work.2.1
    (∀ choice, halts (work.1.stop now grace choice work.2.1)) ∧
    (∀ n, (∀ k < n, ended k ≤ seen) → seen < (tick n).began → ∀ outcome, halts outcome →
      outcome.2 = (now, []) ∧ (0 < grace → outcome.1 = .stopped)) ∧
    ∀ n, (tick n).began ≤ seen → seen < ended n →
      (∀ outcome, halts outcome ↔ ∃ k,
        (∀ i < k, (tick (n + i + 1)).due ≤ ended (n + i) ∧ ended (n + i) < limit) ∧
          outcome = ending period origin takes limit n k) ∧
      (ended n < (tick (n + 1)).due → ∀ outcome, halts outcome → outcome =
        if ended n < limit then (.stopped, ended n, [.finish (ended n)])
        else (.aborted, limit, [])) ∧
      ((∀ outcome, halts outcome → ∀ moment, .start moment ∉ outcome.2.2) ↔
        ended n < (tick (n + 1)).due ∨ limit ≤ ended n) := by
  intro takes tick ended limit work halts
  refine ⟨fun choice => halts_stop now grace choice work.1 work.2.1,
    fun n hbefore hafter outcome h => ?_, fun n hbegan hended => ?_⟩
  · by_cases kept : period ≤ longest
    · obtain ⟨j, hreached⟩ := exists_reached_launch positive kept seen ticksFirst durations
      obtain rfl := hreached.of_between hbefore hafter
      exact h.of_between hreached.stands.eq_between
    · have hlost : work.1.isExited = true := by
        show ((launch period origin).advance seen ticksFirst durations).1.isExited = true
        rw [advance_of_exited (isExited_launch kept)]
        exact isExited_launch kept
      obtain rfl := h.of_exited hlost
      exact ⟨rfl, fun _ => rfl⟩
  · have kept : period ≤ longest := by
      have hfirst : origin + period ≤ (tick n).began := Tick.began_mono (Nat.zero_le n)
      omega
    obtain ⟨j, hreached⟩ := exists_reached_launch positive kept seen ticksFirst durations
    obtain rfl := hreached.of_within hbegan hended
    have hphase := hreached.stands.eq_within
    have hstopping := stopping_signal hphase hreached.kept
      (fun i => by rw [hreached.left]; exact congrArg takes (by omega)) now
    have hgoing : work.1.isExited = false := by rw [isExited, hphase]
    have hnow : now ≤ ended n := by omega
    have hhalts (outcome : Ending × Nat × List Event) : halts outcome ↔ ∃ k,
        (∀ i < k, (tick (n + i + 1)).due ≤ ended (n + i) ∧ ended (n + i) < limit) ∧
          outcome = ending period origin takes limit n k :=
      ⟨fun h => h.exists_ending hgoing hstopping hnow, fun ⟨k, hk, heq⟩ =>
        heq ▸ halts_ending hgoing hstopping hnow hk⟩
    -- with a tick more than the one under way, that one overran and ended in time
    have hone (outcome : Ending × Nat × List Event) (h : halts outcome)
        (hlast : ended n < (tick (n + 1)).due ∨ limit ≤ ended n) :
        outcome = if ended n < limit then (.stopped, ended n, [.finish (ended n)])
          else (.aborted, limit, []) := by
      obtain ⟨k, hk, rfl⟩ := (hhalts outcome).1 h
      cases k with
      | zero => exact ending_zero limit
      | succ k =>
        obtain ⟨hdue, hin⟩ := hk 0 (Nat.zero_lt_succ k)
        rcases hlast with hfree | hout
        · exact absurd hfree (Nat.not_lt.2 hdue)
        · exact absurd hin (Nat.not_lt.2 hout)
    refine ⟨hhalts, fun hfree outcome h => hone outcome h (.inl hfree), fun hnone => ?_,
      fun hlast outcome h moment hstart => ?_⟩
    · by_contra hgoes
      obtain ⟨hdue, hin⟩ := not_or.1 hgoes
      have hmore : halts (ending period origin takes limit n 1) := by
        refine (hhalts _).2 ⟨1, fun i hi => ?_, rfl⟩
        obtain rfl : i = 0 := by omega
        exact ⟨Nat.not_lt.1 hdue, Nat.not_le.1 hin⟩
      exact hnone _ hmore _ (start_mem_ending limit 0)
    · rw [hone outcome h hlast] at hstart
      split at hstart <;> simp at hstart

/-- A tick of a task with a period of 10 is under way from 10 to 14 when the task is told to stop,
and the next would be due at 20. -/
theorem stops_after_overruns_short :
    let work := (launch 10 0).advance 12 false [4]
    ∀ outcome, Halts 12 60 work.1 work.2.1 outcome → outcome = (.stopped, 14, [.finish 14]) := by
  intro work outcome h
  obtain ⟨-, -, hwithin⟩ := @stops_after_overruns 10 12 12 (by decide) (by decide) (.inl rfl)
    0 60 [4] false
  exact (hwithin 0 (by decide) (by decide)).2.1 (by decide) outcome h

/-- A tick that is under way from 10 to 35 outlasts the period of 10. Told to stop at 12, the task
may begin another tick at 35. -/
theorem tick_begins_after_stop :
    let work := (launch 10 0).advance 12 false [25]
    ∃ outcome, Halts 12 60 work.1 work.2.1 outcome ∧
      ∃ moment, 12 < moment ∧ .start moment ∈ outcome.2.2 := by
  intro work
  exact ⟨_, halts_stop 12 60 true _ _, 35, by decide, by decide +kernel⟩

end Switchyard.Clock
