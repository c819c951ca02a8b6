import Switchyard.Proofs.Gateway.Closing
import Switchyard.Proofs.Gateway.Regularity

/-! The end of a gateway. It stops the updates and lets all subscribers go, and then it stops the
checks, both by one deadline. Between two deeds no update is under way, so the first takes no
time; and from then on nothing can be queued for anybody, so each subscriber is left with what was
queued for it before. -/
namespace Switchyard

namespace Gateway

variable {g g' : Gateway} {t : Task}

/-! ### Passing on -/

/-- A socket once what is ready for it has been passed on. -/
def passedOn (h : Hub) (u : Socket) : Socket :=
  match link u with
  | some client => { u with inbox := u.inbox ++ (ready h client).1, isOpen := !(ready h client).2 }
  | none => u

theorem passedOn_of_link {u : Socket} {client : Nat} (hu : link u = some client) (h : Hub) :
    passedOn h u =
      { u with inbox := u.inbox ++ (ready h client).1, isOpen := !(ready h client).2 } := by
  rw [passedOn, hu]

theorem passedOn_of_no_link {u : Socket} (hu : link u = none) (h : Hub) : passedOn h u = u := by
  rw [passedOn, hu]

theorem link_eq_some {u : Socket} {client : Nat} (h : link u = some client) :
    u = { subscriber := some client, inbox := u.inbox, isOpen := true } := by
  obtain ⟨subscriber, inbox, isOpen⟩ := u
  cases isOpen with
  | false => cases h
  | true =>
    cases h
    rfl

theorem ready_update_of_ne {c client : Nat} (hne : c ≠ client) (h : Hub)
    (f : Subscriber → Subscriber) : ready (h.update c f) client = ready h client := by
  rw [ready, ready, Hub.getElem?_update, if_neg hne]

theorem flushAll_of_no_link {u : Socket} (hu : link u = none) (h : Hub) (rest : List Socket) :
    flushAll h (u :: rest) = ((flushAll h rest).1, u :: (flushAll h rest).2) := by
  rw [flushAll]
  rintro client inbox rfl
  cases hu

theorem flushAll_of_link {u : Socket} {client : Nat} (hu : link u = some client) (h : Hub)
    (rest : List Socket) :
    flushAll h (u :: rest) =
      ((flushAll (h.update client fun s => { s with queue := [] }) rest).1,
        passedOn h u :: (flushAll (h.update client fun s => { s with queue := [] }) rest).2) := by
  rw [passedOn_of_link hu, link_eq_some hu, flushAll]

/-- Each open socket gets what is ready for its subscriber, and only those queues are emptied. -/
theorem flushAll_eq (h : Hub) {sockets : List Socket} (hapart : (sockets.filterMap link).Nodup) :
    (flushAll h sockets).2 = sockets.map (passedOn h) ∧
      ∀ client, (flushAll h sockets).1.subscribers[client]? = (h.subscribers[client]?).map fun s =>
        if client ∈ sockets.filterMap link then { s with queue := [] } else s := by
  induction sockets generalizing h with
  | nil =>
    refine ⟨rfl, fun client => ?_⟩
    rw [flushAll]
    cases h.subscribers[client]? <;> rfl
  | cons u rest ih =>
    cases hu : link u with
    | none =>
      rw [List.filterMap_cons_none hu] at hapart ⊢
      obtain ⟨hsockets, hhub⟩ := ih h hapart
      rw [flushAll_of_no_link hu, List.map_cons, passedOn_of_no_link hu, hsockets]
      exact ⟨rfl, hhub⟩
    | some c =>
      rw [List.filterMap_cons_some hu] at hapart ⊢
      obtain ⟨hnew, hapart⟩ := List.nodup_cons.1 hapart
      obtain ⟨hsockets, hhub⟩ := ih (h.update c fun s => { s with queue := [] }) hapart
      rw [flushAll_of_link hu, List.map_cons]
      constructor
      · rw [hsockets]
        -- The sockets behind serve others, whose queues are as they were.
        refine congrArg _ (List.map_congr_left fun v hv => ?_)
        cases hv' : link v with
        | none => rw [passedOn_of_no_link hv', passedOn_of_no_link hv']
        | some client =>
          have hne : c ≠ client := by
            rintro rfl
            exact hnew (List.mem_filterMap.2 ⟨v, hv, hv'⟩)
          rw [passedOn_of_link hv', passedOn_of_link hv', ready_update_of_ne hne]
      · intro client
        rw [hhub, Hub.getElem?_update]
        by_cases hc : c = client
        · subst hc
          rw [if_pos rfl, Option.map_map]
          cases h.subscribers[c]? with
          | none => rfl
          | some s => simp [hnew]
        · rw [if_neg hc]
          simp [Ne.symm hc]

theorem flushAll_of_links_nil (h : Hub) {sockets : List Socket}
    (hlinks : sockets.filterMap link = []) : flushAll h sockets = (h, sockets) := by
  induction sockets with
  | nil => rfl
  | cons u rest ih =>
    obtain ⟨hu, hrest⟩ := List.forall_mem_cons.1 (List.filterMap_eq_nil_iff.1 hlinks)
    rw [flushAll_of_no_link hu, ih (List.filterMap_eq_nil_iff.2 hrest)]

theorem flush_of_links_nil (h : g.links = []) : g.flush = g := by
  rw [flush, flushAll_of_links_nil g.hub h]

/-! ### Stopping -/

theorem dropTask_of_none (h : g.agenda.get .broadcast = none) : g.dropTask .broadcast = g := by
  have hset : g.agenda.set .broadcast none = g.agenda := by rw [← h]; rfl
  rw [dropTask, hset]

/-- Nobody waits for a task that has exited. -/
theorem workUntil_of_exited (h : g.agenda.isRunning t = false) (target : Nat) :
    g.workUntil (some t) target = g := by
  have hdone : Agenda.advance work (some t) target g.agenda g = (g.agenda, g) := by
    rw [Agenda.advance, if_pos]
    simp only [Option.any_some, h, Bool.not_false]
  rw [workUntil, hdone]

/-- Between two ticks a task exits as soon as it is told to stop. -/
theorem isExited_signal {c : Clock} (hidle : ∀ ends next, c.phase ≠ .running ends next)
    (now : Nat) : (c.signal now).isExited = true := by
  rw [Clock.isExited_iff, Clock.signal]
  cases hphase : c.phase with
  | waiting deadline late => exact ⟨now, rfl⟩
  | running ends next => exact absurd hphase (hidle ends next)
  | exited moment => exact ⟨moment, rfl⟩

/-- Between two deeds the updates are stopped at once. -/
theorem stopTask_of_idle (h : ¬ g.IsUnderway .broadcast) (grace : Nat) :
    ∃ notices, g.stopTask .broadcast grace = (g.dropTask .broadcast).say notices := by
  unfold stopTask
  split
  · rename_i hnone
    exact ⟨[], by rw [dropTask_of_none hnone]; rfl⟩
  · rename_i c hc
    split
    · exact ⟨_, rfl⟩
    · split
      · exact ⟨_, rfl⟩
      · rename_i last hlast
        have hout : (c.signal g.elapsed).isExited = true :=
          isExited_signal (fun ends next hphase => h ⟨c, ends, next, hc, hphase⟩) g.elapsed
        have hget : (g.withClock .broadcast (c.signal g.elapsed)).agenda.get .broadcast =
            some (c.signal g.elapsed) := rfl
        have hstays : (g.withClock .broadcast (c.signal g.elapsed)).workUntil
            (some .broadcast) last = g.withClock .broadcast (c.signal g.elapsed) := by
          refine workUntil_of_exited ?_ last
          rw [Agenda.isRunning, hget, Option.any_some, hout]
          rfl
        rw [withClock] at hstays hget
        dsimp only
        rw [hstays, hget, Option.any_some, if_pos hout]
        exact ⟨_, rfl⟩

/-- Without updates nothing is queued for anybody, and nothing passed on. -/
structure Undisturbed (g g' : Gateway) : Prop where
  hub : g'.hub = g.hub
  sockets : g'.sockets = g.sockets

theorem Undisturbed.trans {g'' : Gateway} (h : Undisturbed g g') (h' : Undisturbed g' g'') :
    Undisturbed g g'' :=
  ⟨h'.hub.trans h.hub, h'.sockets.trans h.sockets⟩

theorem undisturbed_dropTask (g : Gateway) (t : Task) : Undisturbed g (g.dropTask t) := by
  cases t <;> exact ⟨rfl, rfl⟩

theorem undisturbed_beginTick (h : t ≠ .broadcast) (moment : Nat) (g : Gateway) :
    Undisturbed g (beginTick t moment g).1 := by
  cases t with
  | broadcast => exact absurd rfl h
  | health => exact ⟨rfl, rfl⟩
  | drill => exact ⟨rfl, rfl⟩

theorem undisturbed_finishTick (t : Task) (moment : Nat) (g : Gateway) :
    Undisturbed g (finishTick t moment g) := by
  cases t <;> exact ⟨rfl, rfl⟩

theorem undisturbed_workUntil (hnone : g.agenda.get .broadcast = none) (until? : Option Task)
    (target : Nat) : Undisturbed g (g.workUntil until? target) := by
  have hadvance := Agenda.advance_rec work until? target
    (P := fun a s _ s' => a.get .broadcast = none → Undisturbed s s')
    (fun a s _ _ => ⟨rfl, rfl⟩) ?_ ?_ g.agenda g hnone
  · exact ⟨hadvance.hub, hadvance.sockets⟩
  · intro a s t moment c deadline late a' s' hdue _ _ ih hnone
    have hne := Agenda.ne_of_get hnone hdue.clock
    exact (undisturbed_beginTick (Ne.symm hne) moment s).trans
      (ih ((Agenda.get_set_of_ne hne _ _).trans hnone))
  · intro a s t moment c next a' s' hdue _ ih hnone
    have hne := Agenda.ne_of_get hnone hdue.clock
    exact (undisturbed_finishTick t moment s).trans
      (ih ((Agenda.get_set_of_ne hne _ _).trans hnone))

theorem undisturbed_stopTask (hnone : g.agenda.get .broadcast = none) (t : Task) (grace : Nat) :
    Undisturbed g (g.stopTask t grace) := by
  have hstopped := g.stopped t grace
  have hset {c : Clock} (hc : g.agenda.get t = some c) :
      (g.withClock t (c.signal g.elapsed)).agenda.get .broadcast = none :=
    (Agenda.get_set_of_ne (Agenda.ne_of_get hnone hc) _ _).trans hnone
  have hworked {c : Clock} (hc : g.agenda.get t = some c) (last : Nat) : Undisturbed g
      (((g.withClock t (c.signal g.elapsed)).workUntil (some t) last).dropTask t) := by
    have hsignal : Undisturbed g (g.withClock t (c.signal g.elapsed)) := ⟨rfl, rfl⟩
    exact (hsignal.trans (undisturbed_workUntil (hset hc) (some t) last)).trans
      (undisturbed_dropTask _ t)
  generalize g.stopTask t grace = g' at hstopped ⊢
  cases hstopped with
  | absent => exact ⟨rfl, rfl⟩
  | atOnce notices => exact (g.undisturbed_dropTask t).trans ⟨rfl, rfl⟩
  | @inTime c hc last _ notices => exact (hworked hc last).trans ⟨rfl, rfl⟩
  | @aborted c hc last _ notices =>
    have hdropped : (((g.withClock t (c.signal g.elapsed)).workUntil (some t) last).dropTask
        t).agenda.get .broadcast = none := by
      rw [agenda_dropTask, Agenda.get_set_of_ne (Agenda.ne_of_get hnone hc)]
      exact Agenda.get_advance_of_none _ _ _ _ (hset hc)
    have hpassed := undisturbed_workUntil hdropped none (g.elapsed + grace)
    exact (hworked hc last).trans ⟨hpassed.hub, hpassed.sockets⟩

/-! ### Letting go -/

/-- What is left of a regular gateway once its hub has been closed: it is the same moment, the
open sockets have got what was queued and the end, and everybody else keeps what was queued. -/
structure LetGo (g g' : Gateway) : Prop where
  sockets : g'.sockets = g.sockets.map (passedOn g.hub.close.state)
  queues : ∀ client, g'.hub.subscribers[client]? = (g.hub.subscribers[client]?).map fun s =>
    if client ∈ g.links then { s.leave with queue := [] } else s.leave

theorem letGo_closeHub (h : g.Regular) (grace : Nat) :
    LetGo g (g.closeHub grace) ∧ (g.closeHub grace).elapsed = g.elapsed ∧
      (g.closeHub grace).agenda.get .broadcast = none := by
  obtain ⟨notices, hstopped⟩ := stopTask_of_idle h.idle grace
  obtain ⟨hsockets, hhub⟩ := flushAll_eq g.hub.close.state h.apart
  have hclosed : g.closeHub grace =
      (((g.dropTask .broadcast).say notices).withHub fun h => h.close).1.flush := by
    rw [closeHub, hstopped]
  rw [hclosed]
  refine ⟨⟨hsockets, fun client => ?_⟩, rfl, rfl⟩
  refine (hhub client).trans ?_
  rw [Hub.getElem?_close, Option.map_map]
  cases g.hub.subscribers[client]? <;> rfl

/-- Somebody who is not in the set gets what is queued and then the end. -/
theorem ready_of_left {h : Hub} {client : Nat} {s : Subscriber}
    (hs : h.subscribers[client]? = some s) :
    ready h.close.state client = (s.queue.map Frame.text ++ [.close], true) := by
  rw [ready, Hub.getElem?_close, hs]
  rfl

/-- When the hub has been closed no socket is open. -/
theorem LetGo.links (h : LetGo g g') (hg : g.Regular) : g'.links = [] := by
  refine List.filterMap_eq_nil_iff.2 fun v hv => ?_
  rw [h.sockets] at hv
  obtain ⟨u, hu, rfl⟩ := List.mem_map.1 hv
  cases hlink : link u with
  | none => rw [passedOn_of_no_link hlink, hlink]
  | some client =>
    obtain ⟨s, hs⟩ := hg.served client (List.mem_filterMap.2 ⟨u, hu, hlink⟩)
    rw [passedOn_of_link hlink, ready_of_left hs]
    rfl

/-- Where nobody is let in, no socket is opened. -/
theorem Comes.links_of_closed {s : Scope} (h : Comes s g g') (hclosed : g.hub.Closed)
    (hlinks : g.links = []) : g'.links = [] := by
  have nil {l : List Nat} {g : Gateway} (hg : g.links = []) (hl : l.Sublist g.links) : l = [] :=
    List.sublist_nil.1 (hg ▸ hl)
  induction h with
  | refl => exact hlinks
  | call _ c _ ih => exact ih
  | rest _ same ih => exact nil ih same.links
  | join h accepting _ =>
    have hnever := (closed_of_reaches h.reaches hclosed).refusing
    cases hnever.symm.trans accepting
  | pass _ target ih => exact nil ih (links_advance none target _ _)
  | @start g' _ t _ ih =>
    unfold startTask
    split <;> exact ih
  | @stop g' _ t grace _ ih => exact nil ih (g'.links_stopTask t grace)

theorem links_run_of_closed (hclosed : g.hub.Closed) (hlinks : g.links = []) (ds : List Deed) :
    (g.run ds).links = [] := by
  induction ds generalizing g with
  | nil => exact hlinks
  | cons d ds ih =>
    have hcomes := Comes.perform g d
    exact ih (closed_of_reaches hcomes.reaches hclosed) (hcomes.links_of_closed hclosed hlinks)

/-! ### The end -/

/-- What the end leaves of a regular gateway. -/
structure Over (g g' : Gateway) : Prop extends LetGo g g' where
  broadcast : g'.agenda.get .broadcast = none
  health : g'.agenda.get .health = none
  forward : g.elapsed ≤ g'.elapsed

theorem over_shutdown (h : g.Regular) (deadline : Nat) : Over g (g.shutdown deadline).1 := by
  obtain ⟨hlet, hnow, hnone⟩ := letGo_closeHub h (deadline - g.elapsed)
  have hregular := (Comes.refl.closeHub (s := { stops := [.broadcast] }) (g := g)
    (deadline - g.elapsed) List.mem_cons_self).regular h
  have hstill := undisturbed_stopTask hnone .health
    (deadline - (g.closeHub (deadline - g.elapsed)).elapsed)
  have hforward := (hregular.1.stopTask .health
    (deadline - (g.closeHub (deadline - g.elapsed)).elapsed)).2
  refine ⟨⟨hstill.sockets.trans hlet.sockets, fun client => ?_⟩, ?_, get_stopTask _ _ _,
    Nat.le_trans hregular.2 hforward⟩
  · exact (congrArg (fun h : Hub => h.subscribers[client]?) hstill.hub).trans (hlet.queues client)
  · exact (Comes.refl.stop (s := { stops := [.health] }) .health _ List.mem_cons_self).get_of_none
      List.not_mem_nil hnone

/-- The end comes by its deadline, or at once when that is past. -/
theorem elapsed_shutdown_le (g : Gateway) (deadline : Nat) :
    (g.shutdown deadline).1.elapsed ≤ max g.elapsed deadline := by
  have hfirst : (g.closeHub (deadline - g.elapsed)).elapsed ≤
      g.elapsed + (deadline - g.elapsed) := g.elapsed_stopTask_le .broadcast _
  have hsecond : (g.shutdown deadline).1.elapsed ≤
      (g.closeHub (deadline - g.elapsed)).elapsed +
        (deadline - (g.closeHub (deadline - g.elapsed)).elapsed) :=
    (g.closeHub (deadline - g.elapsed)).elapsed_stopTask_le .health _
  omega

/-- Where everything has come to its end, there is nothing left to stop. -/
theorem shutdown_of_over (hclosed : g.hub.Closed) (hbroadcast : g.agenda.get .broadcast = none)
    (hhealth : g.agenda.get .health = none) (hlinks : g.links = []) (deadline : Nat) :
    g.shutdown deadline = (g.say [.hubClosed 0, .backgroundStopped], 0) := by
  have hclose (grace : Nat) : g.closeHub grace = g.say [.hubClosed 0] := by
    have hstop : g.stopTask .broadcast grace = g := by rw [stopTask, hbroadcast]
    have hlet : (g.withHub fun h => h.close).1 = g.say [.hubClosed 0] := by
      rw [withHub, hclosed.close_eq]
    rw [closeHub, hstop, hlet]
    exact flush_of_links_nil hlinks
  have hstop (grace : Nat) : (g.say [.hubClosed 0]).stopTask .health grace =
      g.say [.hubClosed 0] := by
    have hget : (g.say [.hubClosed 0]).agenda.get .health = none := hhealth
    rw [stopTask, hget]
  rw [shutdown, hclose, hstop]
  exact congrArg _ (Nat.sub_self _)

/-- A subscriber that is receiving: what it gets, and when it has come to the end. -/
structure Receives (g : Gateway) (client : Nat) (queue : List String) (limit : Nat) : Prop where
  texts : (g.receive client limit).2 = queue.take limit
  rest : ∃ s, (g.receive client limit).1.hub.subscribers[client]? = some s ∧
    s.queue = queue.drop limit ∧ (s.isEnded = true ↔ queue.length ≤ limit)

theorem receives_of_left {client : Nat} {s : Subscriber}
    (hs : g.hub.subscribers[client]? = some s.leave) (limit : Nat) :
    Receives g client s.queue limit := by
  have hget := g.hub.getElem?_receive client client limit
  rw [if_pos rfl, hs] at hget
  refine ⟨?_, _, hget, rfl, ?_⟩
  · rw [receive, Hub.receive_of_present g.hub hs]
    rfl
  · simp [Subscriber.isEnded, Subscriber.leave]

/-- The end of a gateway comes by its deadline, or at once when that is past, whatever the gateway
is at, and leaves a closed hub. Every subscriber gets exactly what was queued for it, and then the
end. From then on neither task runs or ticks until it is started again, and another end takes no
time and changes nothing. -/
theorem ends_by_deadline (settings : Settings) (base : Int) (ticksFirst : Task → Nat → Bool)
    (ds : List Deed) (deadline : Nat) :
    (∀ g : Gateway, (g.shutdown deadline).1.elapsed ≤ max g.elapsed deadline) ∧
    let g := (new settings base ticksFirst).run ds
    let g' := (g.shutdown deadline).1
    (g.elapsed ≤ g'.elapsed ∧ g'.elapsed ≤ max g.elapsed deadline ∧
      (g.shutdown deadline).2 = g'.elapsed - g.elapsed) ∧
    g'.hub.Closed ∧
    (∀ (client : Nat) (s : Subscriber), g.hub.subscribers[client]? = some s → client ∉ g.links →
      ∀ limit, Receives g' client s.queue limit) ∧
    (∀ (n : Nat) (u : Socket) (client : Nat), g.sockets[n]? = some u → link u = some client →
      ∃ s, g.hub.subscribers[client]? = some s ∧ g'.sockets[n]? = some
        { u with inbox := u.inbox ++ (s.queue.map Frame.text ++ [Frame.close]), isOpen := false }) ∧
    (∀ t, t = .broadcast ∨ t = .health → ∀ later : List Deed,
      (∀ d ∈ later, t ∉ d.scope.starts) → (g'.run later).agenda.isRunning t = false ∧
        ∃ es, History g' later es ∧ ∀ e ∈ es, e.ticks t = false) ∧
    ∀ later : List Deed,
      (∀ d ∈ later, .broadcast ∉ d.scope.starts ∧ .health ∉ d.scope.starts) →
      ∀ again, (g'.run later).shutdown again =
        ((g'.run later).say [.hubClosed 0, .backgroundStopped], 0) := by
  refine ⟨fun g => g.elapsed_shutdown_le deadline, ?_⟩
  intro g g'
  have hregular : g.Regular := regular_run (regular_new settings base ticksFirst) ds
  have hover : Over g g' := over_shutdown hregular deadline
  have hclosed : g'.hub.Closed := closed_shutdown (gauge_run settings base ticksFirst ds) deadline
  have hstopped : ∀ t, t = .broadcast ∨ t = .health → g'.agenda.get t = none := by
    rintro t (rfl | rfl)
    · exact hover.broadcast
    · exact hover.health
  -- A task without a clock stays without one, and so do the deeds that do not start it.
  have hquiet : ∀ t, t = .broadcast ∨ t = .health → ∀ later : List Deed,
      (∀ d ∈ later, t ∉ d.scope.starts) → (g'.run later).agenda.get t = none ∧
        ∃ es, History g' later es ∧ ∀ e ∈ es, e.ticks t = false := by
    intro t ht later hlater
    obtain ⟨es, hes⟩ := g'.exists_history later
    obtain ⟨hnone, hticks⟩ := happen_of_stopped hes.fits (hstopped t ht) (hes.not_start hlater)
    exact ⟨hes.leads ▸ hnone, es, hes, hticks⟩
  refine ⟨⟨hover.forward, g.elapsed_shutdown_le deadline, rfl⟩, hclosed,
    fun client s hs hclient limit => ?_, fun n u client hu hlink => ?_,
    fun t ht later hlater => ?_, fun later hlater again => ?_⟩
  · have hqueue := hover.queues client
    rw [hs, Option.map_some, if_neg hclient] at hqueue
    exact receives_of_left hqueue limit
  · obtain ⟨s, hs⟩ := hregular.served client
      (List.mem_filterMap.2 ⟨u, List.mem_of_getElem? hu, hlink⟩)
    refine ⟨s, hs, ?_⟩
    rw [hover.sockets, List.getElem?_map, hu, Option.map_some, passedOn_of_link hlink,
      ready_of_left hs]
    rfl
  · obtain ⟨hnone, hhistory⟩ := hquiet t ht later hlater
    refine ⟨?_, hhistory⟩
    rw [Agenda.isRunning, hnone]
    rfl
  · have hbroadcast := (hquiet .broadcast (.inl rfl) later fun d hd => (hlater d hd).1).1
    have hhealth := (hquiet .health (.inr rfl) later fun d hd => (hlater d hd).2).1
    have hlinks : (g'.run later).links = [] :=
      links_run_of_closed hclosed (hover.links hregular) later
    exact shutdown_of_over (closed_of_reaches (run_reaches g' later) hclosed) hbroadcast hhealth
      hlinks again

/-- An end while a check is under way, which is dropped at the deadline, with subscribers of both
kinds; and another one a minute later. -/
theorem ends_by_deadline_twice :
    let later := [Deed.sleep 60000]
    let g := (new {} 0).run slowCheck
    let g' := (g.shutdown 32000).1
    (g.agenda.isRunning .health = true ∧ g.healthPass.probed.length = 1 ∧ g.links = [0] ∧
      g'.elapsed = 32000 ∧ .taskAborted "health_check" ∈ g'.log) ∧
    (∀ d ∈ later, Task.broadcast ∉ d.scope.starts ∧ Task.health ∉ d.scope.starts) ∧
      (g'.run later).shutdown 0 = ((g'.run later).say [.hubClosed 0, .backgroundStopped], 0) := by
  intro later g g'
  have hlater : ∀ d ∈ later, Task.broadcast ∉ d.scope.starts ∧ Task.health ∉ d.scope.starts := by
    intro d hd
    obtain rfl := List.mem_singleton.1 hd
    exact ⟨List.not_mem_nil, List.not_mem_nil⟩
  obtain ⟨-, -, -, -, -, -, hagain⟩ := ends_by_deadline {} 0 (fun _ _ => false) slowCheck 32000
  exact ⟨by decide +kernel, hlater, hagain _ hlater 0⟩

end Gateway

end Switchyard
