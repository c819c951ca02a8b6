import Switchyard.Proofs.Gateway.Deeds
import Switchyard.Proofs.Gateway.Speakers
import Switchyard.Proofs.Health.Rounds

/-! The log of a gateway and the ids of its registry. Of all that the parts of a gateway say, the
notices of entry come from the registry alone, and none of them is lost; so whoever reads the log
knows the ids. -/
namespace Switchyard

open Notice (From Others Replays)

/-- Of ids that come and go the registry alone tells. -/
theorem Notice.Others.of_from {speakers : List Speaker} {notices : List Notice}
    (h : From speakers notices) (hsilent : .registry ∉ speakers) : Others notices := by
  intro n hn
  have hspeaker : n.speaker ≠ .registry := fun heq => hsilent (heq ▸ h n hn)
  cases n <;> first | rfl | exact absurd rfl hspeaker

/-! ### What a pass says -/

namespace Health

theorem replays_absorb (now : Instant) (r : Registry) (t : Report) (found : List Probed) :
    Replays r.ids (absorb now r t found).notices (absorb now r t found).state.ids := by
  induction found generalizing r t with
  | nil => exact .nil _
  | cons p rest ih =>
    have hfolded : Replays r.ids (r.foldProbed now p.copy p.verdict.isHealthy).notices
        (r.foldProbed now p.copy p.verdict.isHealthy).state.ids :=
      Registry.replays_foldProbed p.copy p.verdict.isHealthy
    exact (hfolded.append (.of_others (Rounds.others_remarks p.copy p.verdict _) _)).append
      (ih _ _)

theorem replays_settle (now : Instant) (r : Registry) (found : List Probed) :
    Replays r.ids (settle now r found).notices (settle now r found).state.ids :=
  (replays_absorb now r {} found).append (.of_others (by simp [Others, Notice.isEntry]) _)

theorem replays_script (now : Instant) (s : Script) (r : Registry) (p : Pass)
    (listing : List Instance) :
    Replays r.ids (s.pass now r p listing).2.notices (s.pass now r p listing).2.state.ids := by
  induction listing generalizing s r p with
  | nil => exact .nil _
  | cons i rest ih => exact (r.replays_run _).append (ih _ _ _)

end Health

namespace Gateway

/-- That the log of a gateway leads from ids to those of its registry. -/
def Logs (ids : Finset String) (g : Gateway) : Prop := Replays ids g.log.reverse g.registry.ids

namespace Logs

variable {ids : Finset String} {g g' : Gateway}

/-! ### Moves -/

/-- What leaves the registry and the log as they are. -/
theorem aside (h : Logs ids g) (hregistry : g'.registry = g.registry) (hlog : g'.log = g.log) :
    Logs ids g' := by
  rw [Logs, hregistry, hlog]
  exact h

theorem say (h : Logs ids g) {notices : List Notice}
    (hnotices : Replays g.registry.ids notices g'.registry.ids)
    (hlog : g'.log = notices.reverse ++ g.log) : Logs ids g' := by
  rw [Logs, hlog, List.reverse_append, List.reverse_reverse]
  exact Replays.append h hnotices

theorem say_from (h : Logs ids g) {speakers : List Speaker} {notices : List Notice}
    (hfrom : From speakers notices) (hsilent : .registry ∉ speakers)
    (hlog : g'.log = notices.reverse ++ g.log) (hregistry : g'.registry = g.registry) :
    Logs ids g' := by
  refine h.say ?_ hlog
  rw [hregistry]
  exact .of_others (.of_from hfrom hsilent) _

theorem say_one (h : Logs ids g) {n : Notice} (hn : n.speaker ≠ .registry)
    (hlog : g'.log = n :: g.log) (hregistry : g'.registry = g.registry) : Logs ids g' := by
  have hfrom : From [n.speaker] [n] := by simp [From]
  exact h.say_from hfrom (by simpa using hn.symm) hlog hregistry

theorem withRegistry {α : Type} (h : Logs ids g) {f : Registry → Outcome Registry α}
    (hf : Replays g.registry.ids (f g.registry).notices (f g.registry).state.ids) :
    Logs ids (g.withRegistry f).1 := h.say hf rfl

theorem withHub {α : Type} (h : Logs ids g) {f : Hub → Outcome Hub α}
    (hf : From [.hub] (f g.hub).notices) : Logs ids (g.withHub f).1 :=
  h.say_from hf (by decide) rfl rfl

theorem heed (h : Logs ids g) (c : Feed.Call) : Logs ids (g.heed c) := by
  cases c with
  | change c =>
    cases c with
    | register q => exact h.withRegistry (Registry.replays_register q)
    | deregister id => exact h.withRegistry (Registry.replays_deregister id)
    | fold id healthy => exact h.withRegistry (Registry.replays_fold id healthy)
    | foldProbed copy healthy => exact h.withRegistry (Registry.replays_foldProbed copy healthy)
  | subscribe => exact h.withHub (g.hub.from_subscribe _)
  | unsubscribe client => exact h.withHub (g.hub.from_unsubscribe client)
  | handle client text => exact h.withHub (g.hub.from_handle _ _ client text)
  | send client m => exact h.withHub (g.hub.from_push client _)
  | broadcast => exact h.withHub (g.hub.from_broadcast _ _)
  | close => exact h.withHub g.hub.from_close
  | receive client limit => exact h.aside rfl rfl
  | hangUp client => exact h.aside rfl rfl

theorem flush (h : Logs ids g) : Logs ids g.flush := h.aside rfl rfl

/-! ### The tasks -/

theorem beginTick (h : Logs ids g) (t : Task) (moment : Nat) :
    Logs ids (Gateway.beginTick t moment g).1 := by
  cases t with
  | broadcast => exact ((h.aside rfl rfl : Logs ids (g.atMoment moment)).heed .broadcast).flush
  | health => exact h.aside rfl rfl
  | drill => exact h.say (Health.replays_script _ _ _ _ _) rfl

theorem finishTick (h : Logs ids g) (t : Task) (moment : Nat) :
    Logs ids (Gateway.finishTick t moment g) := by
  cases t with
  | broadcast => exact h.aside rfl rfl
  | health => exact h.say (Health.replays_settle _ _ _) rfl
  | drill => exact h.say (Health.replays_settle _ _ _) rfl

theorem workUntil (h : Logs ids g) (until? : Option Task) (target : Nat) :
    Logs ids (g.workUntil until? target) := by
  have hworked := Agenda.advance_induct (w := work) (p := Logs ids)
    (fun t moment _ hg => hg.beginTick t moment) (fun t moment _ hg => hg.finishTick t moment)
    until? target g.agenda g h
  exact hworked.aside rfl rfl

theorem passUntil (h : Logs ids g) (target : Nat) : Logs ids (g.passUntil target) :=
  (h.workUntil none target).aside rfl rfl

theorem sleep (h : Logs ids g) (millis : Nat) : Logs ids (g.sleep millis) := h.passUntil _

theorem startTask (h : Logs ids g) (t : Task) : Logs ids (g.startTask t) := by
  unfold Gateway.startTask
  split
  · exact h
  · exact h.say_one (by simp [Notice.speaker]) rfl rfl

theorem dropTask (h : Logs ids g) (t : Task) : Logs ids (g.dropTask t) := by
  cases t <;> exact h.aside rfl rfl

theorem stopTask (h : Logs ids g) (t : Task) (grace : Nat) : Logs ids (g.stopTask t grace) := by
  unfold Gateway.stopTask
  split
  · exact h
  · rename_i c _
    split
    · exact (h.dropTask t).say_one (by simp [Notice.speaker]) rfl rfl
    · split
      · exact (h.dropTask t).say_one (by simp [Notice.speaker]) rfl rfl
      · rename_i last _
        have hsignalled : Logs ids (g.withClock t (c.signal g.elapsed)) := h.aside rfl rfl
        have hworked := hsignalled.workUntil (some t) last
        dsimp only
        split
        · exact (hworked.dropTask t).say_one (by simp [Notice.speaker]) rfl rfl
        · exact ((hworked.dropTask t).passUntil _).say_one (by simp [Notice.speaker]) rfl rfl

theorem closeHub (h : Logs ids g) (grace : Nat) : Logs ids (g.closeHub grace) :=
  ((h.stopTask .broadcast grace).heed .close).flush

/-! ### Sockets -/

theorem openSocket (h : Logs ids g) : Logs ids g.openSocket.1 := by
  have hsubscribed := h.heed .subscribe
  unfold Gateway.openSocket
  dsimp only
  split
  · exact hsubscribed.aside rfl rfl
  · exact hsubscribed.say_one (by simp [Notice.speaker]) rfl rfl

theorem connect (h : Logs ids g) (closing : Bool) : Logs ids (Api.connect g closing).1 := by
  unfold Api.connect
  split
  · cases closing with
    | false => exact h.openSocket
    | true => exact (h.closeHub 0).openSocket
  · exact h

theorem closeFrame (h : Logs ids g) (n : Nat) : Logs ids (g.closeFrame n) := by
  unfold Gateway.closeFrame
  split
  · rename_i client _
    have hclosed : Logs ids (g.updateSocket n fun s => { s with isOpen := false }) :=
      h.aside rfl rfl
    exact (hclosed.heed (.hangUp client)).heed (.unsubscribe client)
  · exact h

theorem breakSocket (h : Logs ids g) (n : Nat) : Logs ids (g.breakSocket n) := by
  unfold Gateway.breakSocket
  split
  · rename_i client _
    have hclosed : Logs ids
        (g.updateSocket n fun s => { s with inbox := [], isOpen := false }) := h.aside rfl rfl
    have hsaid : From [.socket]
        ((if g.hasQueued client then [.writeFailed client] else []) ++ [.socketBroken client]) := by
      split <;> simp [From, Notice.speaker]
    have hbroken : Logs ids (Gateway.say _ _) := hclosed.say_from hsaid (by decide) rfl rfl
    exact (hbroken.heed (.hangUp client)).heed (.unsubscribe client)
  · exact h

theorem textFrame (h : Logs ids g) (n : Nat) (text : String) : Logs ids (g.textFrame n text) := by
  unfold Gateway.textFrame
  split
  · exact h.heed (.handle _ text)
  · exact h

theorem pingFrame (h : Logs ids g) (n : Nat) (payload : Bytes) :
    Logs ids (g.pingFrame n payload) := by
  unfold Gateway.pingFrame
  split
  · exact h.aside rfl rfl
  · exact h

theorem takeFrames (h : Logs ids g) (n : Nat) : Logs ids (g.takeFrames n).1 := by
  unfold Gateway.takeFrames
  split
  · exact h.aside rfl rfl
  · exact h

/-! ### Passes in the foreground -/

theorem settlePass (h : Logs ids g) (p : Pass) : Logs ids (g.settlePass p).1 :=
  h.withRegistry (Health.replays_settle _ _ _)

theorem checkByScript (h : Logs ids g) : Logs ids g.checkByScript.1 := by
  have hbegun : Logs ids g.beginDrillPass.1 := h.say (Health.replays_script _ _ _ _ _) rfl
  exact (hbegun.sleep _).settlePass _

theorem checkByNetwork (h : Logs ids g) : Logs ids g.checkByNetwork.1 := by
  have hbegun : Logs ids g.beginHealthPass.1 := h.aside rfl rfl
  exact (hbegun.sleep _).settlePass _

/-! ### Requests -/

theorem settleExchange (h : Logs ids g) (n : Nat) (l : Lease) (target : String) (j : Journey)
    (patience : Option Nat) : Logs ids (Api.settleExchange g n l target j patience).1 := by
  unfold Api.settleExchange
  split
  · exact (h.sleep _).say_from (Proxy.from_cancel _ _ _) (by decide) rfl rfl
  · have hslept := h.sleep j.elapsed
    cases j.result with
    | ok reply => exact hslept.aside rfl rfl
    | error t => exact hslept.say_one (by simp [Notice.speaker]) rfl rfl

theorem forward (h : Logs ids g) (service path : String) (r : Http.Request)
    (patience : Option Nat) : Logs ids (Api.forward g service path r patience).1 := by
  unfold Api.forward
  dsimp only
  split
  · exact h.aside rfl rfl
  · exact h.aside rfl rfl
  · let said := ((g.proxy.start service g.nanos).1.engage (g.proxy.start service g.nanos).2 g.nanos
      g.draw (g.registry.healthy service)).notices
    have hsaid : From [.balancer, .proxy] said := Proxy.from_engage _ _ _ _ _
    split
    · exact h.say_from hsaid (by decide) rfl rfl
    · rename_i lease _
      let more := Notice.forwarding service lease.chosen.id r.method
        (Target.url lease.chosen path r.query)
      have hmore : From [.balancer, .proxy] [more] := by simp [more, From, Notice.speaker]
      refine settleExchange ?_ _ _ _ _ _
      refine h.say_from (hsaid.append hmore) (by decide) ?_ rfl
      rw [List.reverse_append]
      rfl

theorem registerService (h : Logs ids g) (r : Http.Request) :
    Logs ids (Api.registerService g r).1 := by
  unfold Api.registerService
  split
  · exact h
  · rename_i q _
    have hregistered := h.heed (.change (.register q))
    dsimp only
    split <;> exact hregistered

theorem serveRoute (h : Logs ids g) (route : Api.Route) (r : Http.Request)
    (patience : Option Nat) : Logs ids (Api.serveRoute g route r patience).1 := by
  cases route with
  | proxyRoot name => exact h.forward _ _ _ _
  | proxyPath name rest => exact h.forward _ _ _ _
  | services =>
    simp only [Api.serveRoute]
    split
    · exact h.registerService r
    · exact h
  | service id =>
    simp only [Api.serveRoute]
    split
    · exact h.heed (.change (.deregister (Api.decoded id)))
    · exact h
  | _ => exact h

theorem respond (h : Logs ids g) (r : Http.Request) (patience : Option Nat) :
    Logs ids (Api.respond g r patience).1 := by
  unfold Api.respond
  dsimp only
  split
  · split <;> exact h
  · rename_i route _
    split
    · exact h
    · split
      · exact h
      · split
        · exact h
        · exact h.serveRoute route r patience

/-! ### All deeds -/

/-- Every deed but one keeps the log. -/
theorem perform (h : Logs ids g) {d : Deed} (hd : d ≠ .takeLog) : Logs ids (g.perform d) := by
  cases d with
  | takeLog => exact absurd rfl hd
  | call c => exact h.heed c
  | broadcast => exact (h.heed .broadcast).flush
  | connect closing => exact h.connect closing
  | text n text => exact h.textFrame n text
  | ping n payload => exact h.pingFrame n payload
  | hangUp n => exact h.closeFrame n
  | vanish n => exact h.breakSocket n
  | look n => exact h.takeFrames n
  | flush => exact h.flush
  | request r patience => exact h.respond r patience
  | takeLease service => exact h.say_from (Balancer.from_select _ _ _ _) (by decide) rfl rfl
  | start t => exact h.startTask t
  | stop t grace => exact h.stopTask t grace
  | startBackground => exact (h.startTask .health).startTask .broadcast
  | closeHub grace => exact h.closeHub grace
  | shutdown deadline =>
    exact ((h.closeHub _).stopTask .health _).say_one (by simp [Notice.speaker]) rfl rfl
  | sleep millis => exact h.sleep millis
  | checkByScript => exact h.checkByScript
  | checkByNetwork => exact h.checkByNetwork
  | _ => exact h.aside rfl rfl

end Logs

/-! ### Runs of deeds -/

/-- All that the log of a gateway holds in a run of deeds: what is taken from it on the way, and
what is left in it. -/
def told (g : Gateway) (ds : List Deed) : List Notice :=
  observed perform (fun g d => match d with | .takeLog => g.takeLog.2 | _ => []) g ds ++
    (g.run ds).takeLog.2

theorem told_takeLog (g : Gateway) (ds : List Deed) :
    g.told (.takeLog :: ds) = g.log.reverse ++ g.takeLog.1.told ds :=
  List.append_assoc ..

theorem told_cons {d : Deed} (hd : d ≠ .takeLog) (g : Gateway) (ds : List Deed) :
    g.told (d :: ds) = (g.perform d).told ds := by
  cases d with
  | takeLog => exact absurd rfl hd
  | _ => rfl

theorem replays_told {ids : Finset String} {g : Gateway} (h : Logs ids g) (ds : List Deed) :
    Replays ids (g.told ds) (g.run ds).registry.ids := by
  induction ds generalizing g ids with
  | nil => exact h
  | cons d ds ih =>
    by_cases hd : d = .takeLog
    · subst hd
      rw [told_takeLog]
      -- a log that has been emptied begins with the ids of the moment
      have hempty : Logs g.registry.ids g.takeLog.1 := .nil _
      exact Replays.append h (ih hempty)
    · rw [told_cons hd]
      exact ih (h.perform hd)

/-- While a registry changes and passes fold their results between the changes, the notices tell at
every moment which ids there are: an entry says whether it replaces another, what goes was there,
and what is refused or ignored tells of none. The same holds of the log of a gateway, whatever is
done with it. -/
theorem log_replays_to_ids (threshold : UInt32) (es : List (Instant × Rounds.Event)) :
    let w := (Rounds.start threshold).run es
    Notice.Tracks ((Rounds.start threshold).told es) w.registry.list.keys.toFinset ∧
    (∀ e, (w.echo? e).all Registry.Echo.isIdle = true → ∀ n ∈ w.tells e, n.isEntry = false) ∧
    ∀ (settings : Settings) (base : Int) (ticksFirst : Task → Nat → Bool) (ds : List Deed),
      let g := new settings base ticksFirst
      Notice.Tracks (g.told ds) (g.run ds).registry.list.keys.toFinset := by
  intro w
  refine ⟨((Rounds.start threshold).replays_run es).tracks, fun e h => Rounds.others_of_idle h,
    fun settings base ticksFirst ds => ?_⟩
  intro g
  have hstart : Logs ∅ g := .nil _
  exact (replays_told hstart ds).tracks

/-- A registration that replaces another makes the result of a probe stale, and the next result
evicts. -/
theorem log_replays_to_ids_evicted :
    let q (id : String) := (Registration.new "db" "10.0.0.1" 5432).withId id
    let t : Instant := ⟨0, 0⟩
    let before : List (Instant × Rounds.Event) :=
      [(t, .change (.register (q "db-1"))), (t, .change (.register (q "db-2"))),
        (t, .begin fun _ => .unhealthy "down"), (t, .change (.register (q "db-1")))]
    let stale := (t, Rounds.Event.turn 0)
    let w := (Rounds.start 1).run before
    let told := (Rounds.start 1).told (before ++ [stale, (t, .turn 0)])
    (w.echo? stale).all Registry.Echo.isIdle = true ∧
      (∀ n ∈ w.tells stale, n.isEntry = false) ∧
      told = told.take 2 ++ .registered "db-1" "db" "10.0.0.1" 5432 true :: told.drop 3 ∧
      "db-1" ∈ (told.take 2).foldl Notice.replay ∅ ∧
      told.foldl Notice.replay ∅ = {"db-1"} := by
  intro q t before stale w told
  have idle : (w.echo? stale).all Registry.Echo.isIdle = true := by decide +kernel
  have split : told = told.take 2 ++ .registered "db-1" "db" "10.0.0.1" 5432 true :: told.drop 3 := by
    decide +kernel
  obtain ⟨-, hidle, -⟩ := log_replays_to_ids 1 before
  obtain ⟨htracks, -, -⟩ := log_replays_to_ids 1 (before ++ [stale, (t, .turn 0)])
  have left : ((Rounds.start 1).run
      (before ++ [stale, (t, .turn 0)])).registry.list.keys = ["db-1"] := by
    decide +kernel
  refine ⟨idle, hidle stale idle, split, (htracks.holds _ _ _ split).1 rfl, ?_⟩
  rw [htracks.comes, left]
  rfl

end Gateway

end Switchyard
