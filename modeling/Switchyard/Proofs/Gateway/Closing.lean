import Switchyard.Proofs.Gateway.History
import Switchyard.Proofs.Hub.Membership

/-! The hub of a gateway through its history. As whatever happens to it is calls, the gauge shows
how many subscribers there are, and a hub that has been closed stays closed, also when its updates
are started again. -/
namespace Switchyard

namespace Gateway

open Feed (Reaches)

/-! ### The gauge and the end -/

variable {g g' : Gateway}

theorem gauge_of_reaches (h : Reaches g.feed g'.feed)
    (hg : g.hub.gauge.count = g.hub.memberCount) : g'.hub.gauge.count = g'.hub.memberCount := by
  obtain ⟨calls, hhub⟩ := exists_hub_run h
  rw [hhub]
  exact Feed.run_gauge hg calls

theorem closed_of_reaches (h : Reaches g.feed g'.feed) (hg : g.hub.Closed) : g'.hub.Closed := by
  obtain ⟨calls, hhub⟩ := exists_hub_run h
  rw [hhub]
  exact Feed.closed_run hg calls

theorem gauge_run (settings : Settings) (base : Int) (ticksFirst : Task → Nat → Bool)
    (ds : List Deed) :
    ((new settings base ticksFirst).run ds).hub.gauge.count =
      ((new settings base ticksFirst).run ds).hub.memberCount :=
  gauge_of_reaches (run_reaches _ ds) rfl

theorem closed_closeHub (hg : g.hub.gauge.count = g.hub.memberCount) (grace : Nat) :
    (g.closeHub grace).hub.Closed := by
  have hstopped : Reaches g.feed (g.stopTask .broadcast grace).feed :=
    (Comes.refl.stop (s := { stops := [.broadcast] }) .broadcast grace List.mem_cons_self).reaches
  have hclosed := Feed.closed_of_close (f := (g.stopTask .broadcast grace).feed)
    (gauge_of_reaches hstopped hg) g.now
  exact closed_of_reaches
    (g := ((g.stopTask .broadcast grace).withHub fun h => h.close).1) (flush_reaches _) hclosed

theorem closed_shutdown (hg : g.hub.gauge.count = g.hub.memberCount) (deadline : Nat) :
    (g.shutdown deadline).1.hub.Closed := by
  have hclosed := closed_closeHub hg (deadline - g.elapsed)
  have hstopped : Reaches (g.closeHub (deadline - g.elapsed)).feed (g.shutdown deadline).1.feed :=
    (Comes.refl.stop (s := { stops := [.health] }) .health _ List.mem_cons_self).reaches
  exact closed_of_reaches hstopped hclosed

/-- Whether a deed closes the hub. -/
def Deed.closes : Deed → Bool
  | .call .close | .closeHub _ | .shutdown _ => true
  | _ => false

theorem closed_perform (hg : g.hub.gauge.count = g.hub.memberCount) {d : Deed}
    (hd : d.closes = true) : (g.perform d).hub.Closed := by
  cases d with
  | closeHub grace => exact closed_closeHub hg grace
  | shutdown deadline => exact closed_shutdown hg deadline
  | call c =>
    cases c with
    | close => exact Feed.closed_of_close (f := g.feed) hg g.now
    | _ => cases hd
  | _ => cases hd

theorem subscribe_of_closed (hg : g.hub.Closed) :
    g.subscribe = (g, .error .shuttingDown) := by
  rw [subscribe, withHub, hg.subscribe_eq]
  rfl

theorem announce_of_closed (hg : g.hub.Closed) :
    g.announce = (g.say [.updateSent 0], 0) := by
  rw [announce, withHub, hg.broadcast_eq]

theorem suffix_of_reaches (h : Reaches g.feed g'.feed) (hg : g.hub.Closed) {client : Nat}
    {s' : Subscriber} (hs' : g'.hub.subscribers[client]? = some s') :
    ∃ s, g.hub.subscribers[client]? = some s ∧ s'.queue <:+ s.queue := by
  obtain ⟨calls, hhub⟩ := exists_hub_run h
  rw [hhub] at hs'
  exact Feed.suffix_run (f := g.feed) hg calls hs'

/-- The gauge shows how many subscribers there are, and has been raised once for each arrival and
lowered once for each of those who have left, by one notice of its own. Once the hub has been
closed, there is nobody, nobody is let in, and no update is queued for anybody, whatever else is
called and also when the updates are started again. -/
theorem counts_members_until_closed (threshold : UInt32) (capacity : Nat) (settings : Settings)
    (base : Int) (ticksFirst : Task → Nat → Bool) :
    (∀ calls : List (Instant × Feed.Call),
      let start := Feed.start threshold capacity
      let f := start.run calls
      f.hub.gauge.count = f.hub.memberCount ∧
      f.hub.gauge.count + lowered (start.notices calls) = raised (start.notices calls) ∧
      (∀ client, (start.farewells client calls).length =
        if client < f.hub.subscribers.length ∧ f.hub.isMember client = false then 1 else 0) ∧
      ∀ (now : Instant) (later : List (Instant × Feed.Call)),
        let closed := f.step (now, .close)
        let f' := closed.run later
        f'.hub.Closed ∧
        (∀ services, f'.hub.subscribe services = ⟨f'.hub, .error .shuttingDown, []⟩) ∧
        (∀ now services, f'.hub.broadcast now services = ⟨f'.hub, 0, [.updateSent 0]⟩) ∧
        ∀ client, closed.accepted client later = []) ∧
    ∀ ds : List Deed,
      let g := (new settings base ticksFirst).run ds
      (∃ calls, g.feed = (Feed.start settings.healthCheck.evictionThreshold
        settings.broadcast.queueCapacity.toNat).run calls) ∧
      g.hub.gauge.count = g.hub.memberCount ∧
      ∀ d : Deed, d.closes = true → ∀ later : List Deed,
        let g' := (g.perform d).run later
        g'.hub.Closed ∧ g'.subscribe = (g', .error .shuttingDown) ∧
        g'.announce = (g'.say [.updateSent 0], 0) ∧
        ∀ (client : Nat) (s' : Subscriber), g'.hub.subscribers[client]? = some s' →
          ∃ s, (g.perform d).hub.subscribers[client]? = some s ∧ s'.queue <:+ s.queue := by
  refine ⟨fun calls => ?_, fun ds => ?_⟩
  · intro start f
    have hgauge : f.hub.gauge.count = f.hub.memberCount := Feed.run_gauge (f := start) rfl calls
    refine ⟨hgauge, ?_, fun client => ?_, fun now later => ?_⟩
    · rw [hgauge]
      exact (start.run_lowered calls).trans (Nat.zero_add _)
    · have hfarewells := start.run_farewells client calls
      have hnobody : start.hub.isMember client = false := rfl
      have hnone : decide (client < start.hub.subscribers.length) = false := rfl
      rw [hnobody, hnone] at hfarewells
      by_cases hin : client < f.hub.subscribers.length <;>
        cases hm : f.hub.isMember client <;> simp_all [f]
    · intro closed f'
      have hclosed : closed.hub.Closed := Feed.closed_of_close hgauge now
      have hclosed' : f'.hub.Closed := Feed.closed_run hclosed later
      exact ⟨hclosed', hclosed'.subscribe_eq, hclosed'.broadcast_eq,
        fun client => Feed.accepted_of_closed hclosed client later⟩
  · intro g
    have hgauge : g.hub.gauge.count = g.hub.memberCount := gauge_run settings base ticksFirst ds
    refine ⟨run_reaches _ ds, hgauge, fun d hd later => ?_⟩
    have hclosed := closed_perform hgauge hd
    have hreaches := run_reaches (g.perform d) later
    have hclosed' := closed_of_reaches hreaches hclosed
    exact ⟨hclosed', subscribe_of_closed hclosed', announce_of_closed hclosed',
      fun _ _ => suffix_of_reaches hreaches hclosed⟩

/-- Updates that are started again after the end, and a minute of them. -/
theorem counts_members_until_closed_restarted :
    Deed.closes (.closeHub 50) = true ∧
      let g := ((new {} 0).run [.call .subscribe, .startBackground]).perform (.closeHub 50)
      (g.run [.start .broadcast, .sleep 60000]).hub.Closed := by
  refine ⟨rfl, ?_⟩
  have hlaw := (counts_members_until_closed 3 16 {} 0 (fun _ _ => false)).2
    [.call .subscribe, .startBackground]
  exact (hlaw.2.2 (.closeHub 50) rfl [.start .broadcast, .sleep 60000]).1

end Gateway

end Switchyard
