import Switchyard.Proofs.Gateway.Background

/-! Who gives which notices. Each notice is given by one part of the gateway. While time passes
only the registry, the health checks and the hub are heard, so what the proxy says about a
request is not mixed up with anything else. -/
namespace Switchyard

open Registry (Change)

/-- The parts of a gateway that give notices. -/
inductive Speaker where
  | registry
  | health
  | balancer
  | proxy
  | hub
  | socket
  | task
deriving DecidableEq

namespace Notice

def speaker : Notice → Speaker
  | registered .. | deregistered .. | unknownDeregistered .. | evicted .. => .registry
  | markedHealthy .. | markedUnhealthy .. | probeFailed .. | probeCompleted ..
  | deregisteredMeanwhile .. | reregisteredMeanwhile .. | passCompleted .. => .health
  | selected .. => .balancer
  | noneHealthy .. | forwarding .. | forwardFailed .. | forwardCancelled .. => .proxy
  | subscribed .. | unsubscribed .. | messageIgnored .. | sendFailed .. | updateSent ..
  | hubClosed .. => .hub
  | subscriptionRefused .. | socketBroken .. | writeFailed .. => .socket
  | taskStarted .. | taskStopped .. | taskAborted .. | backgroundStopped => .task

/-- Errors are told of by the proxy alone. -/
theorem speaker_of_error {n : Notice} (h : n.level = .error) : n.speaker = .proxy := by
  cases n <;> first | rfl | cases h

/-- That no instance is healthy is told by the proxy alone. -/
theorem speaker_of_noneHealthy {n : Notice} (h : n.message = "No healthy instance available") :
    n.speaker = .proxy := by
  cases n <;> first | rfl | simp [message] at h

/-- That all notices of a list are given by some parts. -/
def From (speakers : List Speaker) (notices : List Notice) : Prop :=
  ∀ n ∈ notices, n.speaker ∈ speakers

theorem from_nil (speakers : List Speaker) : From speakers [] := nofun

namespace From

variable {speakers more : List Speaker} {notices rest : List Notice}

theorem append (h : From speakers notices) (h' : From speakers rest) :
    From speakers (notices ++ rest) := List.forall_mem_append.2 ⟨h, h'⟩

theorem mono (h : From speakers notices) (hsub : speakers ⊆ more) : From more notices :=
  fun n hn => hsub (h n hn)

/-- Among the notices of some parts there are none that only others give. -/
theorem filter_eq_nil (h : From speakers notices) {p : Notice → Bool} {speaker : Speaker}
    (hp : ∀ n, p n = true → n.speaker = speaker) (hsilent : speaker ∉ speakers) :
    notices.filter p = [] :=
  List.filter_eq_nil_iff.2 fun n hn hpn => hsilent (hp n hpn ▸ h n hn)

end From

end Notice

open Notice (From)

/-! ### The hub -/

namespace Hub

variable (h : Hub)

theorem from_unsubscribe (client : Nat) : From [.hub] (h.unsubscribe client).notices := by
  unfold unsubscribe
  split <;> simp [From, Notice.speaker]

theorem from_push (client : Nat) (text : String) : From [.hub] (h.push client text).notices := by
  unfold push
  split
  · exact Notice.from_nil _
  · split
    · exact List.forall_mem_cons.2 ⟨List.mem_singleton_self _, h.from_unsubscribe client⟩
    · exact Notice.from_nil _

theorem from_pushAll (text : String) (clients : List Nat) :
    From [.hub] (h.pushAll text clients).notices := by
  induction clients generalizing h with
  | nil => exact Notice.from_nil _
  | cons client rest ih => exact (h.from_push client text).append (ih _)

theorem from_handle (now : Instant) (services : Keyed Instance) (client : Nat) (text : String) :
    From [.hub] (h.handle now services client text).notices := by
  unfold handle
  split
  · simp [From, Notice.speaker]
  · exact h.from_push client _
  · exact h.from_push client _

theorem from_broadcast (now : Instant) (services : Keyed Instance) :
    From [.hub] (h.broadcast now services).notices :=
  (h.from_pushAll _ _).append (by simp [From, Notice.speaker])

theorem from_subscribe (services : Keyed Instance) :
    From [.hub] (h.subscribe services).notices := by
  unfold subscribe
  dsimp only
  split <;> simp [From, Notice.speaker]

theorem from_close : From [.hub] h.close.notices := by
  simp [close, From, Notice.speaker]

end Hub

/-! ### The balancer and the proxy -/

theorem Balancer.from_select (b : Balancer) (service : String) (draw : Nat)
    (healthy : List Instance) : From [.balancer] (b.select service draw healthy).notices := by
  unfold select
  split <;> simp [From, Notice.speaker]

namespace Proxy

theorem from_engage (p : Proxy) (n now draw : Nat) (healthy : List Instance) :
    From [.balancer, .proxy] (p.engage n now draw healthy).notices := by
  unfold engage
  split
  · rename_i service _ _
    have hselect : From [.balancer, .proxy] (p.balancer.select service draw healthy).notices :=
      (p.balancer.from_select service draw healthy).mono (by simp)
    dsimp only
    split
    · exact hselect
    · exact hselect.append (by simp [From, Notice.speaker])
  · exact Notice.from_nil _

theorem from_cancel (p : Proxy) (n now : Nat) : From [.proxy] (p.cancel n now).notices := by
  unfold cancel
  split
  · exact Notice.from_nil _
  · dsimp only
    split <;> simp [From, Notice.speaker]

end Proxy

/-! ### The registry and the health checks -/

theorem Registry.from_change (now : Instant) (r : Registry) (c : Change) :
    From [.registry] (c.run now r).2 := by
  have hfold (id : String) (healthy : Bool) :
      From [.registry] (r.fold now id healthy).notices := by
    unfold fold
    split
    · exact Notice.from_nil _
    · dsimp only
      split <;> simp [From, Notice.speaker]
  cases c with
  | register q =>
    simp only [Change.run, register]
    split <;> simp [From, Notice.speaker]
  | deregister id =>
    simp only [Change.run, deregister]
    split <;> simp [From, Notice.speaker]
  | fold id healthy => exact hfold id healthy
  | foldProbed copy healthy =>
    simp only [Change.run, foldProbed]
    split
    · exact Notice.from_nil _
    · split
      · exact hfold copy.id healthy
      · exact Notice.from_nil _

theorem Registry.from_run (r : Registry) (changes : List (Instant × Change)) :
    From [.registry] (r.run changes).2 := by
  induction changes generalizing r with
  | nil => exact Notice.from_nil _
  | cons e rest ih => exact (r.from_change e.1 e.2).append (ih _)

namespace Health

theorem from_remarks (i : Instance) (v : Verdict) (a : Folded) :
    From [.health] (remarks i v a) := by
  cases a <;> cases v <;> simp [remarks, From, Notice.speaker]

theorem from_absorb (now : Instant) (r : Registry) (t : Report) (found : List Probed) :
    From [.registry, .health] (absorb now r t found).notices := by
  induction found generalizing r t with
  | nil => exact Notice.from_nil _
  | cons p rest ih =>
    have hfolded := r.from_change now (.foldProbed p.copy p.verdict.isHealthy)
    have hremarks := from_remarks p.copy p.verdict
      (r.foldProbed now p.copy p.verdict.isHealthy).answer
    exact ((hfolded.mono (by simp)).append (hremarks.mono (by simp))).append (ih _ _)

theorem from_settle (now : Instant) (r : Registry) (found : List Probed) :
    From [.registry, .health] (settle now r found).notices :=
  (from_absorb now r {} found).append (by simp [From, Notice.speaker])

end Health

theorem Script.from_pass (now : Instant) (s : Script) (r : Registry) (p : Pass)
    (listing : List Instance) : From [.registry] (s.pass now r p listing).2.notices := by
  induction listing generalizing s r p with
  | nil => exact Notice.from_nil _
  | cons i rest ih => exact (r.from_run _).append (ih _ _ _)

/-! ### While time passes -/

namespace Gateway

/-- That a log goes on from that of an earlier gateway with what some parts have said. -/
def Adds (speakers : List Speaker) (g g' : Gateway) : Prop :=
  ∃ notices, g'.log = notices.reverse ++ g.log ∧ From speakers notices

namespace Adds

variable {speakers more : List Speaker} {g g' g'' : Gateway}

theorem aside (h : g'.log = g.log) : Adds speakers g g' := ⟨[], h, Notice.from_nil _⟩

theorem say {notices : List Notice} (h : From speakers notices)
    (hlog : g'.log = notices.reverse ++ g.log) : Adds speakers g g' := ⟨notices, hlog, h⟩

theorem trans (h : Adds speakers g g') (h' : Adds speakers g' g'') : Adds speakers g g'' := by
  obtain ⟨first, hfirst, hfrom⟩ := h
  obtain ⟨second, hsecond, hfrom'⟩ := h'
  refine ⟨first ++ second, ?_, hfrom.append hfrom'⟩
  rw [hsecond, hfirst, List.reverse_append, List.append_assoc]

end Adds

/-- The parts that work in the background. -/
def backstage : List Speaker := [.registry, .health, .hub]

/-- What the proxy says is not mixed up with what is heard meanwhile. -/
theorem filter_during {during : List Notice} (h : From backstage during) {p : Notice → Bool}
    (hp : ∀ n, p n = true → n.speaker = .proxy) (before after : List Notice) :
    (before ++ during ++ after).filter p = before.filter p ++ after.filter p := by
  have hduring : during.filter p = [] := h.filter_eq_nil hp (by decide)
  rw [List.filter_append, List.filter_append, hduring, List.append_nil]

theorem adds_beginTick (t : Task) (moment : Nat) (g : Gateway) :
    Adds backstage g (beginTick t moment g).1 := by
  cases t with
  | broadcast => exact .say ((g.hub.from_broadcast _ _).mono (by simp [backstage])) rfl
  | health => exact .aside rfl
  | drill => exact .say ((Script.from_pass _ _ _ _ _).mono (by simp [backstage])) rfl

theorem adds_finishTick (t : Task) (moment : Nat) (g : Gateway) :
    Adds backstage g (finishTick t moment g) := by
  cases t with
  | broadcast => exact .aside rfl
  | health => exact .say ((Health.from_settle _ _ _).mono (by simp [backstage])) rfl
  | drill => exact .say ((Health.from_settle _ _ _).mono (by simp [backstage])) rfl

/-- While time passes only the parts in the background are heard. -/
theorem adds_sleep (g : Gateway) (millis : Nat) : Adds backstage g (g.sleep millis) :=
  Agenda.advance_induct (p := Adds backstage g)
    (fun t moment g' h => h.trans (adds_beginTick t moment g'))
    (fun t moment g' h => h.trans (adds_finishTick t moment g')) none _ g.agenda g (.aside rfl)

end Gateway

end Switchyard
