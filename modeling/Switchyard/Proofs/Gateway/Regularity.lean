import Switchyard.Proofs.Gateway.Passes
import Switchyard.Proofs.Hub.Delivery

/-! What holds of a gateway between any two deeds. No task has an event in the past, so time never
runs back. No update is under way: an update takes no time, and its end comes before anything else
can happen. And the open sockets serve subscribers of their own. -/
namespace Switchyard

/-! ### Time -/

namespace Agenda

/-- That no task has an event before a moment. -/
def Timely (a : Agenda) (now : Nat) : Prop := ∀ t moment, a.next? t = some moment → now ≤ moment

variable {a : Agenda} {t : Task} {now moment target : Nat} {until? : Option Task} {c : Clock}

theorem Timely.set (h : a.Timely now) {c : Option Clock}
    (hc : ∀ moment, c.bind (·.next?) = some moment → now ≤ moment) :
    (a.set t c).Timely now := by
  intro other moment hnext
  rw [next?_set] at hnext
  split at hnext
  · exact hc moment hnext
  · exact h other moment hnext

/-- The event that comes next leaves nothing behind it. -/
theorem Due.timely (h : Due until? target a t moment c) (duration : Nat) (ticksFirst : Bool) :
    (a.set t (some (c.step duration ticksFirst))).Timely moment :=
  Timely.set (fun _ _ hother => h.first hother) fun _ hlater =>
    Clock.le_next?_step h.next? duration ticksFirst hlater

end Agenda

namespace Gateway

variable {g g' : Gateway} {t : Task} {target : Nat} {until? : Option Task}

/-- Where the tasks stand once they have been let work. -/
structure Worked (until? : Option Task) (target : Nat) (a : Agenda) (g : Gateway) (a' : Agenda)
    (g' : Gateway) : Prop where
  timely : a.Timely g.elapsed → a'.Timely g'.elapsed
  forward : a.Timely g.elapsed → g.elapsed ≤ g'.elapsed
  within : g'.elapsed ≤ max g.elapsed target
  exhausted : until? = none → a'.Timely (target + 1)

/-- An event at its moment before the rest of the work. -/
theorem Worked.step {a a' mid : Agenda} {g g' middle : Gateway} {moment : Nat} {c : Clock}
    (hdue : Agenda.Due until? target a t moment c) (hmoment : middle.elapsed = moment)
    (hmid : mid.Timely moment) (h : Worked until? target mid middle a' g') :
    Worked until? target a g a' g' where
  timely _ := h.timely (hmoment ▸ hmid)
  forward htimely := by
    have hbefore : g.elapsed ≤ moment := htimely t moment (by
      rw [Agenda.next?, hdue.clock]
      exact hdue.next?)
    have hafter := h.forward (hmoment ▸ hmid)
    omega
  within := by
    have hle := hdue.le
    have hwithin := h.within
    omega
  exhausted := h.exhausted

theorem worked (until? : Option Task) (target : Nat) (a : Agenda) (g : Gateway) :
    Worked until? target a g (Agenda.advance work until? target a g).1
      (Agenda.advance work until? target a g).2 := by
  refine Agenda.advance_rec work until? target (P := Worked until? target) ?_ ?_ ?_ a g
  · intro a g hstops
    refine ⟨fun h => h, fun _ => Nat.le_refl _, Nat.le_max_left _ _, fun hnone t moment hnext => ?_⟩
    cases hstops with
    | exited t h => cases hnone.symm.trans h
    | empty h => cases (h t).symm.trans hnext
    | beyond h => exact h t moment hnext
  · intro a g t moment c deadline late a' g' hdue _ _ h
    exact h.step hdue (by cases t <;> rfl) (hdue.timely _ _)
  · intro a g t moment c next a' g' hdue _ h
    exact h.step hdue (by cases t <;> rfl) (hdue.timely _ _)

theorem elapsed_dropTask (g : Gateway) (t : Task) : (g.dropTask t).elapsed = g.elapsed := by
  cases t <;> rfl

theorem links_dropTask (g : Gateway) (t : Task) : (g.dropTask t).links = g.links := by
  cases t <;> rfl

theorem elapsed_startTask (g : Gateway) (t : Task) : (g.startTask t).elapsed = g.elapsed := by
  unfold startTask
  split <;> rfl

/-- A task is stopped within the grace that it is given. -/
theorem elapsed_stopTask_le (g : Gateway) (t : Task) (grace : Nat) :
    (g.stopTask t grace).elapsed ≤ g.elapsed + grace := by
  have hstopped := g.stopped t grace
  have hworked {c : Clock} {last : Nat} (hlast : last ≤ g.elapsed + grace) :
      (((g.withClock t (c.signal g.elapsed)).workUntil (some t) last).dropTask t).elapsed ≤
        g.elapsed + grace := by
    have hwithin := (worked (some t) last (g.withClock t (c.signal g.elapsed)).agenda
      (g.withClock t (c.signal g.elapsed))).within
    rw [elapsed_dropTask]
    exact Nat.le_trans hwithin (Nat.max_le.2 ⟨Nat.le_add_right _ _, hlast⟩)
  generalize g.stopTask t grace = g' at hstopped ⊢
  cases hstopped with
  | absent => exact Nat.le_add_right _ _
  | atOnce notices =>
    exact Nat.le_trans (Nat.le_of_eq (g.elapsed_dropTask t)) (Nat.le_add_right _ _)
  | inTime hc hlast notices => exact hworked hlast
  | aborted hc hlast notices => exact Nat.max_le.2 ⟨hworked hlast, Nat.le_refl _⟩

/-! ### Updates -/

/-- That an update that is under way ends before anything else can happen. -/
def Brief (until? : Option Task) (target : Nat) (a : Agenda) : Prop :=
  ∀ c ends next, a.get .broadcast = some c → c.phase = .running ends next →
    ends ≤ target ∧ a.Timely ends ∧ ∀ t, until? = some t → a.isRunning t = true

/-- While an update is under way, its end comes next. -/
theorem Brief.next {a : Agenda} {moment : Nat} {c : Clock} (h : Brief until? target a)
    (hdue : Agenda.Due until? target a t moment c) (ht : t ≠ .broadcast) {c' : Clock}
    {ends next : Nat} (hc' : a.get .broadcast = some c') : c'.phase ≠ .running ends next := by
  intro hphase
  obtain ⟨-, htimely, -⟩ := h c' ends next hc' hphase
  have hends : a.next? .broadcast = some ends := by
    rw [Agenda.next?, hc']
    exact Clock.next?_of_running hphase
  have hlt := (Agenda.earliest?_le hdue.earliest hends).2 rfl ht
  have hle := htimely t moment (by
    rw [Agenda.next?, hdue.clock]
    exact hdue.next?)
  omega

/-- An update that begins ends at that moment. -/
theorem Brief.begin {a : Agenda} {moment : Nat} {c : Clock} (h : Brief until? target a)
    (hdue : Agenda.Due until? target a t moment c) {deadline late : Nat}
    (hphase : c.phase = .waiting deadline late) (hmoment : moment = deadline + late) (g : Gateway) :
    Brief until? target (a.set t (some (c.step (work.begin t moment g).2 false))) := by
  intro c' ends next hc' hrunning
  by_cases ht : t = .broadcast
  · subst ht
    rw [Agenda.get_set_self] at hc'
    cases hc'
    have hends := hrunning.symm.trans (Clock.step_of_waiting hphase 0 false)
    cases hends
    rw [Nat.add_zero, ← hmoment]
    refine ⟨hdue.le, hdue.timely _ _, fun other hother => ?_⟩
    -- Only an end makes a task exit, so the one that is waited for is still there.
    rw [Agenda.isRunning_set]
    split
    · rw [Option.any_some, Clock.isExited, hrunning]
      rfl
    · exact hdue.waited other hother
  · rw [Agenda.get_set_of_ne (Ne.symm ht)] at hc'
    exact absurd hrunning (h.next hdue ht hc')

theorem Brief.finish {a : Agenda} {moment : Nat} {c : Clock} (h : Brief until? target a)
    (hdue : Agenda.Due until? target a t moment c) {later : Nat}
    (hphase : c.phase = .running moment later) (ticksFirst : Bool) :
    Brief until? target (a.set t (some (c.step 0 ticksFirst))) := by
  intro c' ends next hc' hrunning
  by_cases ht : t = .broadcast
  · subst ht
    rw [Agenda.get_set_self] at hc'
    cases hc'
    rcases Clock.step_of_running hphase 0 ticksFirst with h | h
    · cases hrunning.symm.trans h
    · cases hrunning.symm.trans h
  · rw [Agenda.get_set_of_ne (Ne.symm ht)] at hc'
    exact absurd hrunning (h.next hdue ht hc')

/-- When the tasks work no further, no update is under way. -/
theorem Brief.not_running {a : Agenda} (h : Brief until? target a)
    (hstops : Agenda.Stops until? target a) {c : Clock} {ends next : Nat}
    (hc : a.get .broadcast = some c) : c.phase ≠ .running ends next := by
  intro hphase
  obtain ⟨hle, -, hwaited⟩ := h c ends next hc hphase
  have hends : a.next? .broadcast = some ends := by
    rw [Agenda.next?, hc]
    exact Clock.next?_of_running hphase
  cases hstops with
  | exited t h hout => cases (hwaited t h).symm.trans hout
  | empty h => cases (h .broadcast).symm.trans hends
  | beyond h =>
    have hbeyond := h .broadcast ends hends
    omega

/-- Once the tasks have been let work, no update is under way. -/
theorem not_running_advance {a : Agenda} (g : Gateway) (h : Brief until? target a) {c : Clock}
    {ends next : Nat} (hc : (Agenda.advance work until? target a g).1.get .broadcast = some c) :
    c.phase ≠ .running ends next := by
  refine Agenda.advance_rec work until? target
    (P := fun a _ a' _ => Brief until? target a → ∀ c ends next, a'.get .broadcast = some c →
      c.phase ≠ .running ends next) ?_ ?_ ?_ a g h c ends next hc
  · intro a g hstops hbrief c ends next hc
    exact hbrief.not_running hstops hc
  · intro a g t moment c deadline late a' g' hdue hphase hmoment ih hbrief
    exact ih (hbrief.begin hdue hphase hmoment g)
  · intro a g t moment c next a' g' hdue hphase ih hbrief
    exact ih (hbrief.finish hdue hphase _)

/-! ### Regular gateways -/

/-- What holds between any two deeds. -/
structure Regular (g : Gateway) : Prop where
  timely : g.agenda.Timely g.elapsed
  idle : ¬ g.IsUnderway .broadcast
  served : ∀ client ∈ g.links, ∃ s, g.hub.subscribers[client]? = some s
  apart : g.links.Nodup

theorem regular_new (settings : Settings) (base : Int) (ticksFirst : Task → Nat → Bool) :
    (new settings base ticksFirst).Regular where
  timely t moment h := by cases t <;> cases h
  idle := not_isUnderway_of_none rfl
  served client h := absurd h List.not_mem_nil
  apart := List.nodup_nil

/-- A subscriber never loses its number. -/
theorem present_of_reaches (h : g.feed.Reaches g'.feed) {client : Nat} {s : Subscriber}
    (hs : g.hub.subscribers[client]? = some s) : ∃ s', g'.hub.subscribers[client]? = some s' := by
  obtain ⟨calls, hhub⟩ := exists_hub_run h
  obtain ⟨s', hran⟩ := Feed.exists_ran g.feed client hs calls
  exact ⟨s', hhub ▸ hran.present⟩

theorem brief_of_idle (h : ¬ g.IsUnderway .broadcast) : Brief until? target g.agenda :=
  fun c ends next hc hphase => absurd ⟨c, ends, next, hc, hphase⟩ h

theorem idle_workUntil (h : ¬ g.IsUnderway .broadcast) (until? : Option Task) (target : Nat) :
    ¬ (g.workUntil until? target).IsUnderway .broadcast := by
  rintro ⟨c, ends, next, hc, hphase⟩
  exact not_running_advance g (brief_of_idle h) hc hphase

theorem links_advance (until? : Option Task) (target : Nat) (a : Agenda) (g : Gateway) :
    ((Agenda.advance work until? target a g).2.links).Sublist g.links := by
  refine Agenda.advance_induct (p := fun g' => g'.links.Sublist g.links) ?_ ?_ until? target a g
    (.refl _)
  · intro t moment g' h
    cases t with
    | broadcast => exact (flushAll_spec _ _).2.trans h
    | health => exact h
    | drill => exact h
  · intro t moment g' h
    cases t <;> exact h

/-- To stop a task opens no socket. -/
theorem links_stopTask (g : Gateway) (t : Task) (grace : Nat) :
    (g.stopTask t grace).links.Sublist g.links := by
  have hstopped := g.stopped t grace
  have hworked (c : Clock) (last : Nat) :
      (((g.withClock t (c.signal g.elapsed)).workUntil (some t) last).dropTask t).links.Sublist
        g.links := by
    rw [links_dropTask]
    exact links_advance (some t) last _ (g.withClock t (c.signal g.elapsed))
  generalize g.stopTask t grace = g' at hstopped ⊢
  cases hstopped with
  | absent => exact .refl _
  | atOnce notices => exact (g.links_dropTask t).symm ▸ .refl _
  | @inTime c _ last _ notices => exact hworked c last
  | @aborted c _ last _ notices => exact (links_advance none _ _ _).trans (hworked c last)

namespace Regular

/-- What keeps the sockets, or closes some, keeps them apart and served. -/
theorem of_sublist (h : g.Regular) (hreaches : g.feed.Reaches g'.feed)
    (hlinks : g'.links.Sublist g.links) (htimely : g'.agenda.Timely g'.elapsed)
    (hidle : ¬ g'.IsUnderway .broadcast) : g'.Regular where
  timely := htimely
  idle := hidle
  served client hclient := by
    obtain ⟨s, hs⟩ := h.served client (hlinks.subset hclient)
    exact present_of_reaches hreaches hs
  apart := hlinks.nodup h.apart

/-- What concerns the agenda alone. -/
theorem of_agenda (h : g.Regular) {a : Agenda} (htimely : a.Timely g.elapsed)
    (hidle : ∀ c ends next, a.get .broadcast = some c → c.phase ≠ .running ends next) :
    (g.withAgenda a).Regular :=
  h.of_sublist (.refl _) (.refl _) htimely fun ⟨c, ends, next, hc, hphase⟩ =>
    hidle c ends next hc hphase

theorem not_running (h : g.Regular) {c : Clock} (hc : g.agenda.get .broadcast = some c)
    (ends next : Nat) : c.phase ≠ .running ends next :=
  fun hphase => h.idle ⟨c, ends, next, hc, hphase⟩

theorem rest (h : g.Regular) (same : Same g g') : g'.Regular := by
  obtain ⟨hregistry, hhub, hagenda, -, -, helapsed, hlinks⟩ := same
  have hfeed : g'.feed = g.feed := by rw [feed, hregistry, hhub, feed]
  refine h.of_sublist (hfeed ▸ .refl _) hlinks ?_ ?_
  · rw [hagenda, helapsed]
    exact h.timely
  · rw [IsUnderway, hagenda]
    exact h.idle

theorem call (h : g.Regular) (c : Feed.Call) : (g.after (.call c)).Regular :=
  h.of_sublist (after_reaches g (.call c)) (.refl _) h.timely h.idle

/-- A newcomer has a number that nobody had. -/
theorem join (h : g.Regular) (accepting : g.hub.accepting = true) : g.joined.Regular := by
  have hcalled := h.call .subscribe
  have hlinks : g.joined.links = g.links ++ [g.hub.subscribers.length] := by
    show (g.sockets ++ [_]).filterMap link = _
    rw [List.filterMap_append]
    rfl
  have hfresh : ∀ client ∈ g.links, client < g.hub.subscribers.length := by
    intro client hclient
    obtain ⟨s, hs⟩ := h.served client hclient
    exact (List.getElem?_eq_some_iff.1 hs).1
  refine ⟨hcalled.timely, hcalled.idle, fun client hclient => ?_, ?_⟩
  · rw [hlinks] at hclient
    rcases List.mem_append.1 hclient with hclient | hclient
    · exact hcalled.served client hclient
    · obtain rfl := List.mem_singleton.1 hclient
      have hget := g.hub.getElem?_subscribe g.hub.subscribers.length g.registry.list
      rw [if_pos ⟨accepting, rfl⟩] at hget
      exact ⟨_, hget⟩
  · rw [hlinks]
    refine List.nodup_append.2
      ⟨h.apart, List.pairwise_singleton _ _, fun client hclient new hnew => ?_⟩
    obtain rfl := List.mem_singleton.1 hnew
    exact Nat.ne_of_lt (hfresh client hclient)

theorem workUntil (h : g.Regular) (until? : Option Task) (target : Nat) :
    (g.workUntil until? target).Regular := by
  obtain ⟨es, hes⟩ := g.exists_account_workUntil (s := {}) until? target
  have hreaches : g.feed.Reaches (g.workUntil until? target).feed := by
    rw [← hes.leads]
    exact g.happen_reaches es
  exact h.of_sublist hreaches (links_advance until? target g.agenda g)
    ((worked until? target g.agenda g).timely h.timely) (idle_workUntil h.idle until? target)

theorem elapsed_le_workUntil (h : g.Regular) (until? : Option Task) (target : Nat) :
    g.elapsed ≤ (g.workUntil until? target).elapsed :=
  (worked until? target g.agenda g).forward h.timely

theorem passUntil (h : g.Regular) (target : Nat) : (g.passUntil target).Regular := by
  have hworked := h.workUntil none target
  refine hworked.of_sublist (.refl _) (.refl _) (fun t moment hnext => ?_) hworked.idle
  have hbeyond := (worked none target g.agenda g).exhausted rfl t moment hnext
  have hafter := hworked.timely t moment hnext
  have hforward := h.elapsed_le_workUntil none target
  exact Nat.max_le.2 ⟨Nat.le_trans hforward hafter, Nat.le_of_succ_le hbeyond⟩

theorem startTask (h : g.Regular) (t : Task) : (g.startTask t).Regular := by
  have hstarted : (g.withAgenda (g.startTask t).agenda).Regular := by
    rw [agenda_startTask]
    refine h.of_agenda (h.timely.set fun moment hnext => ?_) fun c ends next hc hphase => ?_
    · rw [Option.bind_some] at hnext
      cases hc : g.agenda.get t with
      | some c =>
        rw [hc, Option.getD_some] at hnext
        refine h.timely t moment ?_
        rw [Agenda.next?, hc]
        exact hnext
      | none =>
        rw [hc, Option.getD_none, Clock.launch] at hnext
        split at hnext
        · simp only [Clock.start, Clock.next?, Option.some.injEq] at hnext
          omega
        · cases hnext
    · rw [Agenda.get_set] at hc
      split at hc
      · rename_i ht
        subst ht
        cases hb : g.agenda.get .broadcast with
        | some c' =>
          rw [hb] at hc
          cases hc
          exact h.not_running hb ends next hphase
        | none =>
          rw [hb] at hc
          cases hc
          exact launch_not_running _ _ hphase
      · exact h.not_running hc ends next hphase
  unfold Gateway.startTask at hstarted ⊢
  split
  · exact h
  · rename_i hnone
    rw [hnone] at hstarted
    exact hstarted.rest (.of_sockets rfl rfl rfl rfl rfl rfl rfl)

theorem dropTask (h : g.Regular) (t : Task) : (g.dropTask t).Regular := by
  have hfeed := g.feed_dropTask t
  have hsame : (g.dropTask t).links = g.links ∧ (g.dropTask t).elapsed = g.elapsed := by
    cases t <;> exact ⟨rfl, rfl⟩
  refine h.of_sublist (hfeed ▸ .refl _) (hsame.1 ▸ .refl _) ?_ ?_
  · rw [agenda_dropTask, hsame.2]
    exact h.timely.set nofun
  · rintro ⟨c, ends, next, hc, hphase⟩
    rw [agenda_dropTask, Agenda.get_set] at hc
    split at hc
    · cases hc
    · exact h.not_running hc ends next hphase

theorem signal (h : g.Regular) {t : Task} {c : Clock} (hc : g.agenda.get t = some c) :
    (g.withClock t (c.signal g.elapsed)).Regular := by
  refine h.of_agenda (h.timely.set fun moment hnext => ?_) fun c' ends next hc' hphase => ?_
  · rw [Option.bind_some] at hnext
    rcases Clock.phase_cases hnext with ⟨deadline, late, hphase, -⟩ | ⟨next, hphase⟩
    · unfold Clock.signal at hphase
      split at hphase
      · cases hphase
      · rename_i hother
        exact absurd hphase (hother deadline late)
    · refine h.timely t moment ?_
      rw [Agenda.next?, hc]
      exact Clock.next?_of_running ((signal_running_iff c _).1 hphase)
  · rw [Agenda.get_set] at hc'
    split at hc'
    · rename_i ht
      subst ht
      cases hc'
      exact h.not_running hc ends next ((signal_running_iff c _).1 hphase)
    · exact h.not_running hc' ends next hphase

theorem stopTask (h : g.Regular) (t : Task) (grace : Nat) :
    (g.stopTask t grace).Regular ∧ g.elapsed ≤ (g.stopTask t grace).elapsed := by
  have hstopped := g.stopped t grace
  have hworked {c : Clock} (hc : g.agenda.get t = some c) (last : Nat) :
      ((g.withClock t (c.signal g.elapsed)).workUntil (some t) last).Regular :=
    (h.signal hc).workUntil (some t) last
  generalize g.stopTask t grace = g' at hstopped ⊢
  cases hstopped with
  | absent => exact ⟨h, Nat.le_refl _⟩
  | atOnce notices =>
    exact ⟨(h.dropTask t).rest (same_say _ _), Nat.le_of_eq (g.elapsed_dropTask t).symm⟩
  | @inTime c hc last _ notices =>
    refine ⟨((hworked hc last).dropTask t).rest (same_say _ _), ?_⟩
    exact Nat.le_trans ((h.signal hc).elapsed_le_workUntil (some t) last)
      (Nat.le_of_eq (elapsed_dropTask _ t).symm)
  | @aborted c hc last _ notices =>
    refine ⟨(((hworked hc last).dropTask t).passUntil _).rest (same_say _ _), ?_⟩
    exact Nat.le_trans (Nat.le_add_right _ grace) (Nat.le_max_right _ _)

end Regular

/-- Whatever moves lead to is regular, and comes no earlier. -/
theorem Comes.regular {s : Scope} (h : Comes s g g') (hg : g.Regular) :
    g'.Regular ∧ g.elapsed ≤ g'.elapsed := by
  induction h with
  | refl => exact ⟨hg, Nat.le_refl _⟩
  | call _ c _ ih => exact ⟨ih.1.call c, ih.2⟩
  | rest _ same ih => exact ⟨ih.1.rest same, same.elapsed ▸ ih.2⟩
  | join _ accepting ih => exact ⟨ih.1.join accepting, ih.2⟩
  | pass _ target ih => exact ⟨ih.1.passUntil target, Nat.le_trans ih.2 (Nat.le_max_left _ _)⟩
  | start _ t _ ih =>
    exact ⟨ih.1.startTask t, Nat.le_trans ih.2 (Nat.le_of_eq (elapsed_startTask _ t).symm)⟩
  | stop _ t grace _ ih =>
    obtain ⟨hregular, hle⟩ := ih.1.stopTask t grace
    exact ⟨hregular, Nat.le_trans ih.2 hle⟩

theorem regular_run (h : g.Regular) (ds : List Deed) : (g.run ds).Regular := by
  induction ds generalizing g with
  | nil => exact h
  | cons d ds ih => exact ih ((Comes.perform g d).regular h).1

theorem elapsed_le_run (hg : g.Regular) (ds : List Deed) : g.elapsed ≤ (g.run ds).elapsed := by
  induction ds generalizing g with
  | nil => exact Nat.le_refl _
  | cons d ds ih =>
    obtain ⟨hregular, hle⟩ := (Comes.perform g d).regular hg
    exact Nat.le_trans hle (ih hregular)

end Gateway

end Switchyard
