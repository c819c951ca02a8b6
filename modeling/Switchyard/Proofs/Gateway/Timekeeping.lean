import Switchyard.Proofs.Gateway.Regularity
import Switchyard.Proofs.Hub.Updates
import Switchyard.Proofs.Schedule.Timetable

/-! The tasks of a gateway and their timetables. From its start until something stops it a task
ticks by the timetable of that start, whatever else is done with the gateway meanwhile; to start it
again is nothing. Each tick of the broadcasts is one update for every subscriber. -/
namespace Switchyard

namespace Gateway

variable {g g' : Gateway} {t : Task} {e : Event}

/-- A task that has been started is not started again. -/
theorem startTask_of_held {c : Clock} (h : g.agenda.get t = some c) : g.startTask t = g := by
  rw [startTask, h]

/-! ### Ticks and their times -/

/-- The tick of a task that an event begins: its moment, and the time that it takes. -/
def Event.begun (t : Task) (g : Gateway) : Event → List (Nat × Nat)
  | .begin u moment => if u = t then [(moment, (beginTick u moment g).2)] else []
  | _ => []

/-- The ticks of a task that begin with some events. -/
def begun (t : Task) (g : Gateway) (es : List Event) : List (Nat × Nat) :=
  observed after (fun g e => e.begun t g) g es

/-- Whether an event tells a task to stop or drops it. -/
def Event.stops (t : Task) : Event → Bool
  | .signal u | .drop u => u = t
  | _ => false

theorem begun_of_other (h : e.task? ≠ some t) : e.begun t g = [] := by
  cases e with
  | begin u moment => exact if_neg fun heq => h (congrArg some heq)
  | _ => rfl

/-- That a task is at work on a timetable, of which `j` events are past. -/
structure OnTime (period origin : Nat) (takes : Nat → Nat) (j : Nat) (g : Gateway) (t : Task)
    (c : Clock) : Prop where
  held : g.agenda.get t = some c
  kept : c.period = period
  going : c.signalled = false
  stands : Clock.Stands period origin takes j c.phase

variable {period origin j : Nat} {takes : Nat → Nat} {c : Clock}

/-- A tick that begins is the next one of the timetable. -/
theorem OnTime.begin (h : OnTime period origin takes j g t c) {moment : Nat}
    (hcan : g.Awaits t moment) (htakes : (beginTick t moment g).2 = takes ((j + 1) / 2)) :
    moment = (Tick.nth period origin takes ((j + 1) / 2)).began ∧ j % 2 = 0 ∧
      ∃ c', OnTime period origin takes (j + 1) (g.after (.begin t moment)) t c' := by
  obtain ⟨c', deadline, late, hc', hphase, hmoment⟩ := hcan
  obtain rfl := Option.some.inj (h.held.symm.trans hc')
  obtain ⟨n, rfl⟩ := (hphase ▸ h.stands).exists_of_waiting
  obtain ⟨rfl, rfl⟩ := Phase.waiting.inj (hphase.symm.trans h.stands.eq_between)
  have hn : (2 * n + 1) / 2 = n := by omega
  rw [hn] at htakes ⊢
  have hget : (g.after (.begin t moment)).agenda.get t =
      some (c.step (beginTick t moment g).2 false) := by
    rw [after, h.held]
    exact Agenda.get_set_self _ _ _
  obtain ⟨hkept, hgoing⟩ := Clock.step_frame c (beginTick t moment g).2 false
  have hduration : 2 * n % 2 = 0 → (beginTick t moment g).2 = takes (2 * n / 2) := fun _ => by
    rw [htakes, Nat.mul_div_cancel_left n Nat.two_pos]
  have hstands := h.stands.step h.kept h.going hduration false
  exact ⟨hmoment.trans (Nat.add_sub_of_le (Tick.due_le_began n)), Nat.mul_mod_right 2 n, _,
    hget, hkept.trans h.kept, hgoing.trans h.going, hstands⟩

theorem OnTime.finish (h : OnTime period origin takes j g t c) (hcan : g.IsUnderway t)
    (moment : Nat) :
    j % 2 = 1 ∧ ∃ c', OnTime period origin takes (j + 1) (g.after (.finish t moment)) t c' := by
  obtain ⟨c', ends, next, hc', hphase⟩ := hcan
  obtain rfl := Option.some.inj (h.held.symm.trans hc')
  obtain ⟨n, rfl⟩ := (hphase ▸ h.stands).exists_of_running
  have hodd : (2 * n + 1) % 2 = 1 := by omega
  have hget : (g.after (.finish t moment)).agenda.get t =
      some (c.step 0 (g.ticksFirst t moment)) := by
    rw [after, h.held]
    exact Agenda.get_set_self _ _ _
  obtain ⟨hkept, hgoing⟩ := Clock.step_frame c 0 (g.ticksFirst t moment)
  have hduration : (2 * n + 1) % 2 = 0 → 0 = takes ((2 * n + 1) / 2) := fun heven => by omega
  have hstands := h.stands.step h.kept h.going hduration (g.ticksFirst t moment)
  exact ⟨hodd, _, hget, hkept.trans h.kept, hgoing.trans h.going, hstands⟩

/-- An event that does not stop a task leaves it on its timetable, and the tick that it begins, if
it does, is the next one. -/
theorem OnTime.step (h : OnTime period origin takes j g t c) (hcan : g.CanHappen e)
    (going : e.stops t = false) (htakes : ∀ p ∈ e.begun t g, p.2 = takes ((j + 1) / 2)) :
    (∀ p ∈ e.begun t g, p.1 = (Tick.nth period origin takes ((j + 1) / 2)).began) ∧
      ∃ j' c', OnTime period origin takes j' (g.after e) t c' ∧
        (j' + 1) / 2 = (j + 1) / 2 + (e.begun t g).length := by
  by_cases htask : e.task? = some t
  · cases e with
    | start u =>
      cases htask
      have hsame : g.after (.start t) = g := startTask_of_held h.held
      rw [hsame]
      exact ⟨nofun, j, c, h, rfl⟩
    | signal u | drop u =>
      cases htask
      exact absurd going (by simp [Event.stops])
    | begin u moment =>
      cases htask
      have hbegun : (Event.begin t moment).begun t g = [(moment, (beginTick t moment g).2)] :=
        if_pos rfl
      rw [hbegun] at htakes ⊢
      obtain ⟨hmoment, heven, c', hc'⟩ := h.begin hcan (htakes _ List.mem_cons_self)
      refine ⟨fun p hp => ?_, j + 1, c', hc', by rw [List.length_singleton]; omega⟩
      obtain rfl := List.mem_singleton.1 hp
      exact hmoment
    | finish u moment =>
      cases htask
      obtain ⟨hodd, c', hc'⟩ := h.finish hcan moment
      exact ⟨nofun, j + 1, c', hc', by simp only [Event.begun, List.length_nil]; omega⟩
    | _ => cases htask
  · rw [begun_of_other htask]
    exact ⟨nofun, j, c, ⟨(get_after_of_ne htask).trans h.held, h.kept, h.going, h.stands⟩, rfl⟩

theorem length_begun_le (t : Task) (g : Gateway) (e : Event) : (e.begun t g).length ≤ 1 := by
  unfold Event.begun
  split
  · split
    · exact Nat.le_refl _
    · exact Nat.zero_le _
  · exact Nat.zero_le _

/-- Events that do not stop a task leave it on its timetable, and the ticks that they begin are the
next ones. -/
theorem OnTime.run (h : OnTime period origin takes j g t c) {es : List Event} (hfits : g.Fits es)
    (going : ∀ e ∈ es, e.stops t = false)
    (htakes : ∀ i p, (begun t g es)[i]? = some p → p.2 = takes ((j + 1) / 2 + i)) :
    (∀ i p, (begun t g es)[i]? = some p →
      p.1 = (Tick.nth period origin takes ((j + 1) / 2 + i)).began) ∧
      ∃ j' c', OnTime period origin takes j' (g.happen es) t c' ∧
        (j' + 1) / 2 = (j + 1) / 2 + (begun t g es).length := by
  induction es generalizing g j c with
  | nil => exact ⟨nofun, j, c, h, rfl⟩
  | cons e es ih =>
    obtain ⟨hcan, hfits⟩ := hfits
    obtain ⟨hgoing, hrest⟩ := List.forall_mem_cons.1 going
    have hsplit : begun t g (e :: es) = e.begun t g ++ begun t (g.after e) es := rfl
    have hone := length_begun_le t g e
    have hfront {p : Nat × Nat} (hp : p ∈ e.begun t g) : (begun t g (e :: es))[0]? = some p := by
      obtain ⟨i, hi, rfl⟩ := List.getElem_of_mem hp
      obtain rfl : i = 0 := by omega
      rw [hsplit, List.getElem?_append_left hi, List.getElem?_eq_getElem hi]
    obtain ⟨hfirst, j', c', hmid, hj'⟩ := h.step hcan hgoing fun p hp => htakes 0 p (hfront hp)
    have hback (i : Nat) : (begun t g (e :: es))[(e.begun t g).length + i]? =
        (begun t (g.after e) es)[i]? := by
      rw [hsplit, List.getElem?_append_right (Nat.le_add_right _ _), Nat.add_sub_cancel_left]
    obtain ⟨hlater, j'', c'', hend, hj''⟩ := ih hmid hfits hrest fun i p hp => by
      rw [hj', Nat.add_assoc]
      exact htakes _ p (hback i ▸ hp)
    refine ⟨fun i p hp => ?_, j'', c'', hend, ?_⟩
    · by_cases hi : i < (e.begun t g).length
      · rw [hsplit, List.getElem?_append_left hi] at hp
        obtain rfl : i = 0 := by omega
        exact hfirst p (List.mem_of_getElem? hp)
      · obtain ⟨i, rfl⟩ := Nat.exists_eq_add_of_le (Nat.le_of_not_lt hi)
        rw [hback] at hp
        have hthis := hlater i p hp
        rwa [hj', Nat.add_assoc] at hthis
    · rw [hj'', hj', hsplit, List.length_append, Nat.add_assoc]

/-- Only what may stop a task tells it to, or drops it. -/
theorem History.not_stop {ds : List Deed} {es : List Event} (h : History g ds es)
    (hds : ∀ d ∈ ds, t ∉ d.scope.stops) : ∀ e ∈ es, e.stops t = false := by
  induction h with
  | nil g => exact fun _ he => absurd he List.not_mem_nil
  | cons first _ ih =>
    intro e he
    rcases List.mem_append.1 he with he | he
    · have hwithin := first.within e he
      cases e with
      | signal u | drop u =>
        refine decide_eq_false fun heq => ?_
        subst heq
        exact hds _ List.mem_cons_self hwithin
      | _ => rfl
    · exact ih (fun d hd => hds d (List.mem_cons_of_mem _ hd)) e he

end Gateway

/-! ### The tick to come -/

namespace Clock

/-- When the tick is due that comes next. -/
def due? (c : Clock) : Option Nat :=
  match c.phase with
  | .waiting due _ | .running _ due => some due
  | .exited _ => none

variable {c : Clock} {moment due : Nat}

/-- A tick that begins makes the next one due within a period, and a tick that ends changes none. -/
theorem due?_step_le (hnext : c.next? = some moment)
    (h : ∀ due, c.due? = some due → due ≤ moment + c.period) (duration : Nat) (ticksFirst : Bool)
    (hdue : (c.step duration ticksFirst).due? = some due) :
    due ≤ moment + (c.step duration ticksFirst).period := by
  rw [(step_frame c duration ticksFirst).1]
  rcases phase_cases hnext with ⟨deadline, late, hphase, rfl⟩ | ⟨next, hphase⟩
  · rw [due?, step_of_waiting hphase] at hdue
    obtain rfl := Option.some.inj hdue
    unfold after
    split <;> omega
  · have hnow : c.due? = some next := by rw [due?, hphase]
    rcases step_of_running hphase duration ticksFirst with hout | hwaits
    · rw [due?, hout] at hdue
      cases hdue
    · rw [due?, hwaits] at hdue
      obtain rfl := Option.some.inj hdue
      exact h next hnow

theorem due?_signal (now : Nat) (hdue : (c.signal now).due? = some due) : c.due? = some due := by
  unfold signal at hdue
  split at hdue
  · cases hdue
  · exact hdue

theorem due?_launch {period now : Nat} (hdue : (launch period now).due? = some due) :
    due = now + (launch period now).period := by
  unfold launch at hdue ⊢
  split
  · rename_i hkept
    rw [dif_pos hkept] at hdue
    exact (Option.some.inj hdue).symm
  · rename_i hlost
    rw [dif_neg hlost] at hdue
    cases hdue

/-- On a timetable the tick to come is the one after those that have begun. -/
theorem Stands.due? {period origin j : Nat} {takes : Nat → Nat}
    (h : Stands period origin takes j c.phase) :
    c.due? = some (Tick.nth period origin takes ((j + 1) / 2)).due := by
  generalize hphase : c.phase = phase at h
  cases h with
  | between n => rw [Clock.due?, hphase, show (2 * n + 1) / 2 = n by omega]
  | within n => rw [Clock.due?, hphase, show (2 * n + 1 + 1) / 2 = n + 1 by omega]

end Clock

namespace Agenda

/-- That no tick is due later than a period from a moment. -/
def Ahead (a : Agenda) (now : Nat) : Prop :=
  ∀ t c due, a.get t = some c → c.due? = some due → due ≤ now + c.period

variable {a : Agenda} {t : Task} {c : Clock} {now later target moment : Nat} {until? : Option Task}

theorem Ahead.mono (h : a.Ahead now) (hle : now ≤ later) : a.Ahead later := fun t c due hc hdue =>
  Nat.le_trans (h t c due hc hdue) (Nat.add_le_add_right hle _)

theorem Ahead.set (h : a.Ahead now) {c? : Option Clock}
    (hc : ∀ c due, c? = some c → c.due? = some due → due ≤ now + c.period) :
    (a.set t c?).Ahead now := by
  intro other c due hget hdue
  rw [get_set] at hget
  split at hget
  · exact hc c due hget hdue
  · exact h other c due hget hdue

theorem Ahead.step (h : a.Ahead now) (hdue : Due until? target a t moment c)
    (htimely : a.Timely now) (duration : Nat) (ticksFirst : Bool) :
    (a.set t (some (c.step duration ticksFirst))).Ahead moment := by
  have hle : now ≤ moment := htimely t moment (by
    rw [Agenda.next?, hdue.clock]
    exact hdue.next?)
  refine (h.mono hle).set fun c' due hc' hthen => ?_
  obtain rfl := Option.some.inj hc'
  exact Clock.due?_step_le hdue.next? (fun due hnow => h.mono hle t c due hdue.clock hnow)
    duration ticksFirst hthen

end Agenda

namespace Gateway

variable {g g' : Gateway} {t : Task}

theorem ahead_workUntil (htimely : g.agenda.Timely g.elapsed) (h : g.agenda.Ahead g.elapsed)
    (until? : Option Task) (target : Nat) :
    (g.workUntil until? target).agenda.Ahead (g.workUntil until? target).elapsed := by
  refine Agenda.advance_rec work until? target
    (P := fun a g a' g' => a.Timely g.elapsed → a.Ahead g.elapsed → a'.Ahead g'.elapsed)
    (fun _ _ _ _ h => h) ?_ ?_ g.agenda g htimely h
  · intro a g t moment c deadline late a' g' hdue _ _ ih htimely h
    have hmoment : (work.begin t moment g).1.elapsed = moment := by cases t <;> rfl
    refine ih ?_ ?_ <;> rw [hmoment]
    · exact hdue.timely _ _
    · exact h.step hdue htimely _ _
  · intro a g t moment c next a' g' hdue _ ih htimely h
    have hmoment : (work.finish t moment g).elapsed = moment := by cases t <;> rfl
    refine ih ?_ ?_ <;> rw [hmoment]
    · exact hdue.timely _ _
    · exact h.step hdue htimely _ _

theorem ahead_passUntil (hg : g.Regular) (h : g.agenda.Ahead g.elapsed) (target : Nat) :
    (g.passUntil target).agenda.Ahead (g.passUntil target).elapsed :=
  (ahead_workUntil hg.timely h none target).mono (worked none target g.agenda g).within

theorem ahead_startTask (h : g.agenda.Ahead g.elapsed) (t : Task) :
    (g.startTask t).agenda.Ahead (g.startTask t).elapsed := by
  cases hc : g.agenda.get t with
  | some c => rwa [startTask_of_held hc]
  | none =>
    have hnow : (g.startTask t).elapsed = g.elapsed := by rw [startTask, hc]; rfl
    rw [agenda_startTask, hc, Option.getD_none, hnow]
    refine h.set fun c due hc hdue => ?_
    obtain rfl := Option.some.inj hc
    exact Nat.le_of_eq (Clock.due?_launch hdue)

theorem ahead_dropTask (h : g.agenda.Ahead g.elapsed) (t : Task) :
    (g.dropTask t).agenda.Ahead (g.dropTask t).elapsed := by
  rw [agenda_dropTask, elapsed_dropTask]
  exact h.set nofun

theorem ahead_signal (h : g.agenda.Ahead g.elapsed) {c : Clock} (hc : g.agenda.get t = some c) :
    (g.withClock t (c.signal g.elapsed)).agenda.Ahead g.elapsed := by
  refine h.set fun c' due hc' hdue => ?_
  obtain rfl := Option.some.inj hc'
  have hperiod : (c.signal g.elapsed).period = c.period := by
    unfold Clock.signal
    split <;> rfl
  rw [hperiod]
  exact h t c due hc (Clock.due?_signal g.elapsed hdue)

theorem ahead_stopTask (hg : g.Regular) (h : g.agenda.Ahead g.elapsed) (t : Task) (grace : Nat) :
    (g.stopTask t grace).agenda.Ahead (g.stopTask t grace).elapsed := by
  have hstopped := g.stopped t grace
  have hworked {c : Clock} (hc : g.agenda.get t = some c) (last : Nat) :=
    ahead_dropTask (ahead_workUntil (hg.signal hc).timely (ahead_signal h hc) (some t) last) t
  generalize g.stopTask t grace = g' at hstopped ⊢
  cases hstopped with
  | absent => exact h
  | atOnce notices => exact ahead_dropTask h t
  | @inTime c hc last _ notices => exact hworked hc last
  | @aborted c hc last _ notices =>
    exact ahead_passUntil (((hg.signal hc).workUntil (some t) last).dropTask t) (hworked hc last) _

/-- Whatever is done with a gateway, the tick to come of a task is never due later than a period
from now. -/
theorem Comes.ahead {s : Scope} (h : Comes s g g') (hg : g.Regular)
    (ha : g.agenda.Ahead g.elapsed) : g'.agenda.Ahead g'.elapsed := by
  induction h with
  | refl => exact ha
  | call _ c _ ih => exact ih
  | rest _ same ih =>
    rw [same.agenda, same.elapsed]
    exact ih
  | join _ accepting ih => exact ih
  | pass h target ih => exact ahead_passUntil (h.regular hg).1 ih target
  | start _ t _ ih => exact ahead_startTask ih t
  | stop h t grace _ ih => exact ahead_stopTask (h.regular hg).1 ih t grace

theorem ahead_run (hg : g.Regular) (ha : g.agenda.Ahead g.elapsed) (ds : List Deed) :
    (g.run ds).agenda.Ahead (g.run ds).elapsed := by
  induction ds generalizing g with
  | nil => exact ha
  | cons d ds ih =>
    have hcomes := Comes.perform g d
    exact ih (hcomes.regular hg).1 (hcomes.ahead hg ha)

/-! ### Tasks that cannot keep their period -/

/-- A task whose clock has exited begins no tick. -/
theorem begun_of_exited {c : Clock} (hc : g.agenda.get t = some c) (hout : c.isExited = true)
    {es : List Event} (hfits : g.Fits es) (going : ∀ e ∈ es, e.stops t = false) :
    begun t g es = [] ∧ (g.happen es).agenda.get t = some c := by
  obtain ⟨moment, hphase⟩ := Clock.isExited_iff.1 hout
  induction es generalizing g with
  | nil => exact ⟨rfl, hc⟩
  | cons e es ih =>
    obtain ⟨hcan, hfits⟩ := hfits
    obtain ⟨hgoing, hrest⟩ := List.forall_mem_cons.1 going
    have hnext : e.begun t g = [] ∧ (g.after e).agenda.get t = some c := by
      by_cases htask : e.task? = some t
      · cases e with
        | start u =>
          cases htask
          exact ⟨rfl, (congrArg (·.agenda.get t) (startTask_of_held hc)).trans hc⟩
        | signal u | drop u =>
          cases htask
          exact absurd hgoing (by simp [Event.stops])
        | begin u moment' =>
          cases htask
          obtain ⟨c', deadline, late, hc', hwaiting, -⟩ := hcan
          obtain rfl := Option.some.inj (hc.symm.trans hc')
          cases hphase.symm.trans hwaiting
        | finish u moment' =>
          cases htask
          obtain ⟨c', ends, next, hc', hrunning⟩ := hcan
          obtain rfl := Option.some.inj (hc.symm.trans hc')
          cases hphase.symm.trans hrunning
        | _ => cases htask
      · exact ⟨begun_of_other htask, (get_after_of_ne htask).trans hc⟩
    obtain ⟨hnone, hend⟩ := ih hnext.2 hfits hrest
    have hsplit : begun t g (e :: es) = e.begun t g ++ begun t (g.after e) es := rfl
    exact ⟨by rw [hsplit, hnext.1, hnone, List.append_nil], hend⟩

/-! ### Updates -/

/-- The updates that an event has for a subscriber, by their moments: a tick of the broadcasts has
one. -/
def Event.announced (client : Nat) (g : Gateway) : Event → List Instant
  | .call c => Feed.updates client g.now c
  | .begin .broadcast moment => [(g.atMoment moment).now]
  | _ => []

/-- The updates that some events have for a subscriber. -/
def announced (client : Nat) (g : Gateway) (es : List Event) : List Instant :=
  observed after (fun g e => e.announced client g) g es

theorem announces_changes {r r' : Registry} (h : r.Reaches r') (hub : Hub) :
    Feed.Announces ⟨r, hub⟩ ⟨r', hub⟩ fun _ => [] := by
  obtain ⟨changes, rfl⟩ := h
  induction changes generalizing r with
  | nil => exact .refl _
  | cons e rest ih => exact (Feed.Announces.change ⟨r, hub⟩ e.1 e.2).then_quiet ih

theorem announces_flush (g : Gateway) : g.feed.Announces g.flush.feed fun _ => [] := by
  obtain ⟨⟨clients, hclients⟩, -⟩ := flushAll_spec g.hub g.sockets
  have hfeed : g.flush.feed = ⟨g.registry, (flushAll g.hub g.sockets).1⟩ := rfl
  rw [hfeed, hclients]
  exact .receives g.feed g.now clients

/-- An event comes to calls that have its updates. -/
theorem announces_after (g : Gateway) {e : Event} (hcan : g.CanHappen e) :
    g.feed.Announces (g.after e).feed fun client => e.announced client g := by
  cases e with
  | call c => exact .one g.feed g.now c
  | start t => exact g.feed_startTask t ▸ .refl g.feed
  | signal t =>
    rw [after]
    split <;> exact .refl g.feed
  | drop t => exact g.feed_dropTask t ▸ .refl g.feed
  | begin t moment =>
    obtain ⟨c, -, -, hc, -⟩ := hcan
    rw [after, hc]
    cases t with
    | broadcast =>
      exact (Feed.Announces.one g.feed (g.atMoment moment).now .broadcast).then_quiet
        ((g.atMoment moment).announce.1.announces_flush)
    | health => exact .refl g.feed
    | drill => exact announces_changes (beginTick_reaches .drill moment g) g.hub
  | finish t moment =>
    obtain ⟨c, -, -, hc, -⟩ := hcan
    rw [after, hc]
    cases t with
    | broadcast => exact .refl g.feed
    | health => exact announces_changes (finishTick_reaches .health moment g) g.hub
    | drill => exact announces_changes (finishTick_reaches .drill moment g) g.hub
  | rest other => exact .refl g.feed

theorem announces_happen {es : List Event} (hfits : g.Fits es) :
    g.feed.Announces (g.happen es).feed fun client => announced client g es := by
  induction es generalizing g with
  | nil => exact .refl g.feed
  | cons e es ih => exact (g.announces_after hfits.1).trans (ih hfits.2)

/-- The updates that an event has for a subscriber apart from the ticks. -/
def Event.handed (client : Nat) (g : Gateway) : Event → List Instant
  | .call c => Feed.updates client g.now c
  | _ => []

/-- The updates that some events have for a subscriber apart from the ticks. -/
def handed (client : Nat) (g : Gateway) (es : List Event) : List Instant :=
  observed after (fun g e => e.handed client g) g es

/-- There is an update for each tick, besides those that calls have. -/
theorem length_announced (client : Nat) (g : Gateway) (es : List Event) :
    (announced client g es).length =
      (begun .broadcast g es).length + (handed client g es).length := by
  induction es generalizing g with
  | nil => rfl
  | cons e es ih =>
    have hfirst : (e.announced client g).length =
        (e.begun .broadcast g).length + (e.handed client g).length := by
      cases e with
      | call c => exact (Nat.zero_add _).symm
      | begin t moment => cases t <;> rfl
      | _ => rfl
    have hlater := ih (g.after e)
    simp only [announced, begun, handed, observed, List.length_append] at hlater ⊢
    omega

/-! ### Quiet deeds -/

/-- Whether a deed is only a call that has no update, or has to do with starting the tasks and with
time. -/
def Deed.Quiet : Deed → Prop
  | .call c => c.Quiet
  | .start _ | .startBackground | .sleep _ => True
  | _ => False

theorem handed_of_quiet {es : List Event} (h : ∀ c, .call c ∈ es → c.Quiet) (client : Nat)
    (g : Gateway) : handed client g es = [] := by
  induction es generalizing g with
  | nil => rfl
  | cons e es ih =>
    have hfirst : e.handed client g = [] := by
      cases e with
      | call c => exact h c List.mem_cons_self client g.now
      | _ => rfl
    have hlater := ih (fun c hc => h c (List.mem_cons_of_mem _ hc)) (g.after e)
    rw [handed, observed, hfirst]
    exact hlater

/-- A quiet deed is accounted for without a call that has an update. -/
theorem exists_quiet_account (g : Gateway) {d : Deed} (quiet : d.Quiet) :
    ∃ es, Accounts d.scope g (g.perform d) es ∧ ∀ c, .call c ∈ es → c.Quiet := by
  cases d with
  | call c =>
    have hcalled : Accounts (Deed.call c).scope g (g.after (.call c)) [.call c] :=
      .one (e := .call c) trivial (by cases c <;> trivial)
    refine ⟨_, hcalled.append (.rest (same_heed g c)), fun c' hc' => ?_⟩
    simp only [List.cons_append, List.nil_append, List.mem_cons, Event.call.injEq, reduceCtorEq,
      List.not_mem_nil, or_false] at hc'
    exact hc' ▸ quiet
  | start t =>
    exact ⟨[.start t], .one (e := .start t) trivial List.mem_cons_self, fun c hc => by simp at hc⟩
  | startBackground =>
    have hhealth : Accounts Deed.startBackground.scope g (g.startTask .health) [.start .health] :=
      .one (e := .start .health) trivial List.mem_cons_self
    have hhub : Accounts Deed.startBackground.scope (g.startTask .health) g.startBackground
        [.start .broadcast] :=
      .one (e := .start .broadcast) trivial (List.mem_cons_of_mem _ List.mem_cons_self)
    exact ⟨_, hhealth.append hhub, fun c hc => by simp at hc⟩
  | sleep millis =>
    obtain ⟨es, hfits, hleads, hticks⟩ := g.ticks_workUntil none (g.elapsed + millis)
    have hworked := Accounts.ticks (s := (Deed.sleep millis).scope) hfits hleads hticks
    have hmoment : Accounts (Deed.sleep millis).scope (g.workUntil none (g.elapsed + millis))
        (g.sleep millis) [.rest (g.sleep millis)] :=
      .one (e := .rest (g.sleep millis)) trivial trivial
    refine ⟨_, hworked.append hmoment, fun c hc => ?_⟩
    rcases List.mem_append.1 hc with hc | hc
    · cases hticks _ hc
    · simp at hc
  | _ => exact quiet.elim

/-- Quiet deeds have a history in which all updates are from ticks. -/
theorem exists_quiet_history (g : Gateway) {ds : List Deed} (quiet : ∀ d ∈ ds, d.Quiet) :
    ∃ es, History g ds es ∧ ∀ client, handed client g es = [] := by
  have hcalls : ∃ es, History g ds es ∧ ∀ c, .call c ∈ es → c.Quiet := by
    induction ds generalizing g with
    | nil => exact ⟨[], .nil g, fun _ hc => absurd hc List.not_mem_nil⟩
    | cons d ds ih =>
      obtain ⟨hd, hds⟩ := List.forall_mem_cons.1 quiet
      obtain ⟨es, hes, hfirst⟩ := g.exists_quiet_account hd
      obtain ⟨more, hmore, hlater⟩ := ih (g.perform d) hds
      exact ⟨es ++ more, .cons hes hmore, fun c hc =>
        (List.mem_append.1 hc).elim (hfirst c) (hlater c)⟩
  obtain ⟨es, hes, hquiet⟩ := hcalls
  exact ⟨es, hes, fun client => handed_of_quiet hquiet client g⟩

/-! ### From a start on -/

/-- The times that ticks took. -/
def takesOf (ticks : List (Nat × Nat)) (n : Nat) : Nat := (ticks.getD n (0, 0)).2

/-- A tick of the broadcasts takes no time. -/
theorem takesOf_broadcast (g : Gateway) (es : List Event) (n : Nat) :
    takesOf (begun .broadcast g es) n = 0 := by
  have hbrief : ∀ p ∈ begun .broadcast g es, p.2 = 0 := by
    induction es generalizing g with
    | nil => exact fun _ hp => absurd hp List.not_mem_nil
    | cons e es ih =>
      intro p hp
      rcases List.mem_append.1 hp with hp | hp
      · cases e with
        | begin t moment =>
          cases t with
          | broadcast =>
            obtain rfl := List.mem_singleton.1 hp
            rfl
          | health | drill => exact absurd hp List.not_mem_nil
        | _ => exact absurd hp List.not_mem_nil
      · exact ih _ p hp
  rw [takesOf, List.getD_eq_getElem?_getD]
  cases hp : (begun .broadcast g es)[n]? with
  | none => rfl
  | some p => exact hbrief p (List.mem_of_getElem? hp)

/-- That ticks are those of a timetable, all up to a moment. -/
structure KeepTo (period origin : Nat) (ticks : List (Nat × Nat)) (now : Nat) : Prop where
  /-- Each of them begins when the timetable says. -/
  began : ∀ n p, ticks[n]? = some p → p.1 = (Tick.nth period origin (takesOf ticks) n).began
  /-- None has been left out. -/
  all : now ≤ (Tick.nth period origin (takesOf ticks) ticks.length).began
  /-- None has begun before its time. -/
  ahead : (Tick.nth period origin (takesOf ticks) ticks.length).due ≤ now + period

/-- Of ticks that never take longer than a period there is one for each period that is over. -/
theorem KeepTo.length_bounds {period origin now : Nat} {ticks : List (Nat × Nat)}
    (h : KeepTo period origin ticks now) (brief : ∀ n, takesOf ticks n ≤ period) :
    now ≤ origin + (ticks.length + 1) * period ∧ origin + ticks.length * period ≤ now := by
  have htick : Tick.nth period origin (takesOf ticks) ticks.length = _ :=
    Tick.nth_of_on_time fun k _ => brief k
  have hall := h.all
  have hahead := h.ahead
  rw [htick] at hall hahead
  refine ⟨hall, ?_⟩
  rw [Nat.succ_mul, ← Nat.add_assoc] at hahead
  exact Nat.le_of_add_le_add_right hahead

theorem startTask_eq_launch (hnone : g.agenda.get t = none) :
    (g.startTask t).agenda.get t = some (Clock.launch (g.period t) g.elapsed) := by
  rw [agenda_startTask, Agenda.get_set_self, hnone, Option.getD_none]

/-- A task that is at work on a timetable from its origin on, and is not stopped, keeps to it. -/
theorem OnTime.keepTo {period origin : Nat} {c : Clock} {es : List Event}
    (h : OnTime period origin (takesOf (begun t g es)) 0 g t c) (hfits : g.Fits es)
    (going : ∀ e ∈ es, e.stops t = false)
    (htimely : (g.happen es).agenda.Timely (g.happen es).elapsed)
    (hahead : (g.happen es).agenda.Ahead (g.happen es).elapsed) :
    KeepTo period origin (begun t g es) (g.happen es).elapsed ∧
      ∃ c, (g.happen es).agenda.get t = some c := by
  obtain ⟨hbegan, j, c, hend, hj⟩ := h.run hfits going fun i p hp => by
    rw [show (0 + 1) / 2 + i = i by omega, takesOf, List.getD_eq_getElem?_getD, hp]
    rfl
  rw [show (0 + 1) / 2 + (begun t g es).length = (begun t g es).length by omega] at hj
  refine ⟨⟨fun n p hp => ?_, ?_, ?_⟩, c, hend.held⟩
  · have hthis := hbegan n p hp
    rwa [show (0 + 1) / 2 + n = n by omega] at hthis
  · have hnow := htimely t _ (by
      rw [Agenda.next?, hend.held]
      exact hend.stands.next?)
    rw [← hj]
    exact Nat.le_trans hnow (Clock.moment_le_began j)
  · have hdue := hahead t c _ hend.held hend.stands.due?
    rwa [hj, hend.kept] at hdue

/-- From its start on a task that is not stopped keeps to the timetable of that start. -/
theorem keepTo_of_history (hg : g.Regular) (ha : g.agenda.Ahead g.elapsed)
    (hnone : g.agenda.get t = none) (positive : 0 < g.period t) {ds : List Deed} {es : List Event}
    (h : History (g.startTask t) ds es) (going : ∀ d ∈ ds, t ∉ d.scope.stops)
    (told : ((g.startTask t).run ds).elapsed ≤ Clock.longest) :
    KeepTo (g.period t) g.elapsed (begun t (g.startTask t) es) ((g.startTask t).run ds).elapsed ∧
      ∃ c, ((g.startTask t).run ds).agenda.get t = some c := by
  have hstarted := startTask_eq_launch hnone
  have hgoing := h.not_stop going
  by_cases kept : g.period t ≤ Clock.longest
  · rw [Clock.launch, dif_pos ⟨positive, kept⟩] at hstarted
    have hontime : OnTime (g.period t) g.elapsed (takesOf (begun t (g.startTask t) es)) 0
        (g.startTask t) t _ := ⟨hstarted, rfl, rfl, Clock.stands_start positive⟩
    have htimely := (regular_run (hg.startTask t) ds).timely
    have hahead := ahead_run (hg.startTask t) (ahead_startTask ha t) ds
    rw [← h.leads] at htimely hahead ⊢
    exact hontime.keepTo h.fits hgoing htimely hahead
  · -- The first tick is due after all the moments that there are, so there is none.
    have hforward := elapsed_le_run (hg.startTask t) ds
    rw [elapsed_startTask] at hforward
    obtain ⟨hquiet, hend⟩ :=
      begun_of_exited hstarted (Clock.isExited_launch kept) h.fits hgoing
    rw [h.leads] at hend
    rw [hquiet]
    refine ⟨⟨fun n p hp => absurd (List.mem_of_getElem? hp) List.not_mem_nil, ?_, ?_⟩, _, hend⟩
    · show _ ≤ g.elapsed + g.period t
      omega
    · show g.elapsed + g.period t ≤ _
      omega

/-- What a history makes of a subscriber that is in the set at its end: it has been given all the
updates that there were, in their order, and has received them or still has them queued. -/
structure Updated (g g' : Gateway) (client : Nat) (s s' : Subscriber) (updates : List Instant)
    (calls : List (Instant × Feed.Call)) : Prop where
  leads : g'.feed = g.feed.run calls
  accepted : (g.feed.accepted client calls).filterMap ServerMessage.updatedAt? = updates
  received : s'.receiving = true → g.feed.received client calls ++ s'.queue =
    s.queue ++ (g.feed.accepted client calls).map ServerMessage.encode

theorem exists_updated {ds : List Deed} {es : List Event} (h : History g ds es) {client : Nat}
    {s s' : Subscriber} (hs : g.hub.subscribers[client]? = some s)
    (hs' : (g.run ds).hub.subscribers[client]? = some s') (member : s'.member = true) :
    ∃ calls, Updated g (g.run ds) client s s' (announced client g es) calls := by
  obtain ⟨calls, hcalls, hupdates⟩ := announces_happen h.fits
  rw [h.leads] at hcalls
  have hhub : (g.feed.run calls).hub.subscribers[client]? = some s' := by rw [← hcalls]; exact hs'
  obtain ⟨last, hran⟩ := Feed.exists_ran g.feed client hs calls
  obtain rfl := Option.some.inj (hran.present.symm.trans hhub)
  exact ⟨calls, hcalls, (Feed.accepted_updates hs hhub member).trans (hupdates client),
    fun hr => (hran.conserves hr).2⟩

/-- The ticks of a task are those of its timetable, event by event. The first begins a period after
the start; each is due a period after the one before it was, or after that one began if it began
too late, and begins as soon as it is due and that one has ended. So the `n`-th begins after `n`
periods while none takes longer than a period, and `m` periods lie between a tick and the `m`-th
after it up to the tolerance. In a gateway a task that is held and not stopped keeps to the
timetable of its start whatever is done, and another start is nothing; and a subscriber that
stays is given one update for each tick of the broadcasts, besides those that calls have for it, of
which quiet deeds have none. -/
theorem ticks_by_timetable :
    (∀ (period origin target : Nat) (ticksFirst : Bool) (durations : List Nat), 0 < period →
      target ≤ Clock.longest →
      let events := ((Clock.launch period origin).advance target ticksFirst durations).2.2
      let takes n := durations.getD n 0
      ∀ n, let began := (Tick.nth period origin takes n).began
        events[2 * n]? = (if began ≤ target then some (.start began) else none) ∧
        events[2 * n + 1]? =
          if began + takes n ≤ target then some (.finish (began + takes n)) else none) ∧
    (∀ (period origin : Nat) (takes : Nat → Nat) (n : Nat),
      let tick := Tick.nth period origin takes
      (tick 0).began = origin + period ∧
      (tick (n + 1)).due = (if (tick n).began ≤ (tick n).due + Clock.tolerance then
        (tick n).due + period else (tick n).began + period) ∧
      (tick n).began + takes n ≤ (tick (n + 1)).began ∧
      ((tick (n + 1)).due ≤ (tick n).began + takes n →
        (tick (n + 1)).began = (tick n).began + takes n) ∧
      ((∀ k < n, takes k ≤ period) → (tick n).began = origin + (n + 1) * period) ∧
      ∀ m, (tick n).began + m * period ≤ (tick (n + m)).began + Clock.tolerance) ∧
    ∀ (settings : Settings) (base : Int) (ticksFirst : Task → Nat → Bool) (before ds : List Deed)
      (t : Task),
      let g := (new settings base ticksFirst).run before
      let started := g.startTask t
      let g' := started.run ds
      g.agenda.get t = none → 0 < g.period t → g'.elapsed ≤ Clock.longest →
      (∀ d ∈ ds, t ∉ d.scope.stops) →
      g'.startTask t = g' ∧ (∃ es, History started ds es) ∧
      ((∀ d ∈ ds, d.Quiet) →
        ∃ es, History started ds es ∧ ∀ client, handed client started es = []) ∧
      ∀ es, History started ds es →
        KeepTo (g.period t) g.elapsed (begun t started es) g'.elapsed ∧
        ∀ client s s', started.hub.subscribers[client]? = some s →
          g'.hub.subscribers[client]? = some s' → s'.member = true →
          (∃ calls, Updated started g' client s s' (announced client started es) calls) ∧
          (announced client started es).length =
            (begun .broadcast started es).length + (handed client started es).length := by
  refine ⟨fun period origin target ticksFirst durations positive told => ?_,
    fun period origin takes n => ?_, fun settings base ticksFirst before ds t => ?_⟩
  · intro events takes n began
    have hevent (i : Nat) : events[i]? = _ :=
      @Clock.getElem?_launch period origin positive target told ticksFirst durations i
    have hstart := hevent (2 * n)
    have hfinish := hevent (2 * n + 1)
    rw [Clock.timed_even] at hstart
    rw [Clock.timed_odd] at hfinish
    exact ⟨hstart, hfinish⟩
  · intro tick
    refine ⟨rfl, rfl, Tick.ended_le_began n, Tick.began_of_overdue, fun ontime => ?_,
      Tick.began_add_le n⟩
    exact congrArg Tick.began (Tick.nth_of_on_time ontime)
  · intro g started g' hnone positive told going
    have hg : g.Regular := regular_run (regular_new settings base ticksFirst) before
    have ha : g.agenda.Ahead g.elapsed :=
      ahead_run (regular_new settings base ticksFirst) (fun t _ _ hc => by cases t <;> cases hc)
        before
    obtain ⟨some, hsome⟩ := exists_history started ds
    obtain ⟨-, c, hc⟩ := keepTo_of_history hg ha hnone positive hsome going told
    refine ⟨startTask_of_held hc, ⟨some, hsome⟩, started.exists_quiet_history,
      fun es h => ⟨?_, fun client s s' hs hs' hm => ?_⟩⟩
    · exact (keepTo_of_history hg ha hnone positive h going told).1
    · exact ⟨exists_updated h hs hs' hm, length_announced client started es⟩

/-- A tick that takes long past the next two is followed by one at its end. A subscriber that is
there when the broadcasts are started, twice, has two updates after two periods and a half. -/
theorem ticks_by_timetable_two_updates :
    ((Clock.launch 5000 0).advance 40000 false [12000]).2.2[2]? = some (.start 17000) ∧
      let started := ((new {} 0).run [.call .subscribe]).startTask .broadcast
      let ds : List Deed := [.start .broadcast, .sleep 25000]
      ∃ es calls s s', History started ds es ∧ s'.member = true ∧
        (begun .broadcast started es).length = 2 ∧
        Updated started (started.run ds) 0 s s' (announced 0 started es) calls ∧
        (announced 0 started es).length = 2 := by
  obtain ⟨hclock, -, hgateway⟩ := ticks_by_timetable
  refine ⟨(hclock 5000 0 40000 false [12000] (by decide) (by decide) 1).1, ?_⟩
  intro started ds
  have hquiet : ∀ d ∈ ds, d.Quiet := by
    intro d hd
    simp only [ds, List.mem_cons, List.not_mem_nil, or_false] at hd
    rcases hd with rfl | rfl
    · trivial
    · trivial
  have hgoing : ∀ d ∈ ds, Task.broadcast ∉ d.scope.stops := by
    intro d hd
    simp only [ds, List.mem_cons, List.not_mem_nil, or_false] at hd
    rcases hd with rfl | rfl
    · exact List.not_mem_nil
    · exact List.not_mem_nil
  have hmember : (started.run ds).hub.subscribers[0]?.map (·.member) = some true := by
    decide +kernel
  obtain ⟨s', hs', hm⟩ := Option.map_eq_some_iff.1 hmember
  obtain ⟨-, -, hplain, hlaw⟩ := hgateway {} 0 (fun _ _ => false) [.call .subscribe] ds .broadcast
    rfl (by decide) (by decide) hgoing
  obtain ⟨es, hes, hnone⟩ := hplain hquiet
  obtain ⟨hkeeps, hupdates⟩ := hlaw es hes
  obtain ⟨⟨calls, hcalls⟩, hlength⟩ := hupdates 0 _ s' rfl hs' hm
  have hkeeps : KeepTo 10000 0 (begun .broadcast started es) 25000 := hkeeps
  have htwo : (begun .broadcast started es).length = 2 := by
    obtain ⟨hall, hahead⟩ := hkeeps.length_bounds fun n =>
      Nat.le_trans (Nat.le_of_eq (takesOf_broadcast started es n)) (Nat.zero_le _)
    omega
  refine ⟨es, calls, _, s', hes, hm, htwo, hcalls, ?_⟩
  rw [hlength, htwo, hnone]
  rfl

end Gateway

end Switchyard
