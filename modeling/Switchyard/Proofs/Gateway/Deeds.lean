import Switchyard.Proofs.Api.Proxied
import Switchyard.Proofs.Gateway.Events

/-! Everything that can be done with a gateway, and what it comes to. Each deed is put together
from a few moves: calls of the registry and of the hub, starting and stopping a task, letting time
pass, and what concerns none of these. So what holds of the moves holds of every deed. -/
namespace Switchyard

namespace Gateway

open Registry (Change)

/-! ### Deeds -/

/-- Does what a call says. -/
def heed (g : Gateway) : Feed.Call → Gateway
  | .change (.register q) => (g.register q).1
  | .change (.deregister id) => (g.deregister id).1
  | .change (.fold id healthy) => (g.fold id healthy).1
  | .change (.foldProbed copy healthy) => (g.foldProbed copy healthy).1
  | .subscribe => g.subscribe.1
  | .unsubscribe client => (g.unsubscribe client).1
  | .handle client text => g.handle client text
  | .send client m => (g.send client m).1
  | .broadcast => g.announce.1
  | .close => (g.withHub fun h => h.close).1
  | .receive client limit => (g.receive client limit).1
  | .hangUp client => g.hangUp client

/-- Takes a lease that is held outside the exchanges. -/
def takeLease (g : Gateway) (service : String) : Gateway :=
  let o := g.proxy.balancer.select service g.draw (g.registry.healthy service)
  { g with proxy := { g.proxy with balancer := o.state }, draw := g.draw + 1 }.say o.notices

/-- What can be done with a gateway, by its callers and its surroundings. -/
inductive Deed where
  | call (c : Feed.Call)
  | broadcast
  | connect (closing : Bool)
  | text (n : Nat) (text : String)
  | ping (n : Nat) (payload : Bytes)
  | hangUp (n : Nat)
  | vanish (n : Nat)
  | look (n : Nat)
  | flush
  | request (r : Http.Request) (patience : Option Nat)
  | readResponse (n : Nat)
  | takeLease (service : String)
  | giveBack (l : Lease)
  | start (t : Task)
  | stop (t : Task) (grace : Nat)
  | startBackground
  | closeHub (grace : Nat)
  | shutdown (deadline : Nat)
  | sleep (millis : Nat)
  | checkByScript
  | checkByNetwork
  | script (s : Script)
  | network (n : Network)
  | takeArrivals
  | takeLog

def perform (g : Gateway) : Deed → Gateway
  | .call c => g.heed c
  | .broadcast => g.broadcast.1
  | .connect closing => (Api.connect g closing).1
  | .text n text => g.textFrame n text
  | .ping n payload => g.pingFrame n payload
  | .hangUp n => g.closeFrame n
  | .vanish n => g.breakSocket n
  | .look n => (g.takeFrames n).1
  | .flush => g.flush
  | .request r patience => (Api.respond g r patience).1
  | .readResponse n => Api.finishExchange g n
  | .takeLease service => g.takeLease service
  | .giveBack l => { g with proxy := g.proxy.release l }
  | .start t => g.startTask t
  | .stop t grace => g.stopTask t grace
  | .startBackground => g.startBackground
  | .closeHub grace => g.closeHub grace
  | .shutdown deadline => (g.shutdown deadline).1
  | .sleep millis => g.sleep millis
  | .checkByScript => g.checkByScript.1
  | .checkByNetwork => g.checkByNetwork.1
  | .script s => { g with script := s }
  | .network n => { g with network := n }
  | .takeArrivals => g.takeArrivals.1
  | .takeLog => g.takeLog.1

def run (g : Gateway) (ds : List Deed) : Gateway := ds.foldl perform g

@[simp] theorem run_nil (g : Gateway) : g.run [] = g := rfl

@[simp] theorem run_cons (g : Gateway) (d : Deed) (ds : List Deed) :
    g.run (d :: ds) = (g.perform d).run ds := rfl

/-! ### Scopes -/

/-- What a deed may bring about by itself: changes of the registry, and which tasks it starts and
stops. -/
structure Scope where
  changes : Bool := false
  starts : List Task := []
  stops : List Task := []

/-- Whether an event may belong to a deed of some scope. Ticks belong to none in particular. -/
def Event.Within (s : Scope) : Event → Prop
  | .call (.change _) => s.changes = true
  | .start t => t ∈ s.starts
  | .signal t | .drop t => t ∈ s.stops
  | _ => True

def Deed.scope : Deed → Scope
  | .call (.change _) | .checkByScript | .checkByNetwork => { changes := true }
  | .request r _ => { changes := (Api.forwardedAs? r).isNone }
  | .connect closing => { stops := if closing then [.broadcast] else [] }
  | .start t => { starts := [t] }
  | .startBackground => { starts := [.health, .broadcast] }
  | .stop t _ => { stops := [t] }
  | .closeHub _ => { stops := [.broadcast] }
  | .shutdown _ => { stops := [.broadcast, .health] }
  | _ => {}

/-! ### Moves -/

/-- The subscriber that a socket serves, as long as it is open. -/
def link (u : Socket) : Option Nat := if u.isOpen then u.subscriber else none

/-- The subscribers that have open sockets. -/
def links (g : Gateway) : List Nat := g.sockets.filterMap link

/-- A gateway that differs in nothing that concerns the registry, the hub, the tasks and the
moment, and has no socket open that was not. -/
structure Same (g g' : Gateway) : Prop where
  registry : g'.registry = g.registry
  hub : g'.hub = g.hub
  agenda : g'.agenda = g.agenda
  healthPass : g'.healthPass = g.healthPass
  drillPass : g'.drillPass = g.drillPass
  elapsed : g'.elapsed = g.elapsed
  links : g'.links.Sublist g.links

/-- What concerns neither the sockets nor any of those. -/
theorem Same.of_sockets {g g' : Gateway} (hregistry : g'.registry = g.registry)
    (hhub : g'.hub = g.hub) (hagenda : g'.agenda = g.agenda)
    (hhealth : g'.healthPass = g.healthPass) (hdrill : g'.drillPass = g.drillPass)
    (helapsed : g'.elapsed = g.elapsed) (hsockets : g'.sockets = g.sockets) : Same g g' :=
  ⟨hregistry, hhub, hagenda, hhealth, hdrill, helapsed, by
    simp only [Gateway.links, hsockets, List.Sublist.refl]⟩

theorem same_say (g : Gateway) (notices : List Notice) : Same g (g.say notices) :=
  .of_sockets rfl rfl rfl rfl rfl rfl rfl

/-- To do what a call says is the call, and notices. -/
theorem same_heed (g : Gateway) (c : Feed.Call) : Same (g.after (.call c)) (g.heed c) := by
  cases c with
  | change c => cases c <;> exact .of_sockets rfl rfl rfl rfl rfl rfl rfl
  | _ => exact .of_sockets rfl rfl rfl rfl rfl rfl rfl

/-- The gateway with a socket for a new subscriber. -/
def joined (g : Gateway) : Gateway :=
  { g.after (.call .subscribe) with
    sockets := g.sockets ++ [{ subscriber := some g.hub.subscribers.length }] }

/-- What moves of some scope lead to. -/
inductive Comes (s : Scope) (g : Gateway) : Gateway → Prop where
  | refl : Comes s g g
  | call {g' : Gateway} (h : Comes s g g') (c : Feed.Call) (hc : (Event.call c).Within s) :
      Comes s g (g'.after (.call c))
  | rest {g' g'' : Gateway} (h : Comes s g g') (same : Same g' g'') : Comes s g g''
  | join {g' : Gateway} (h : Comes s g g') (accepting : g'.hub.accepting = true) :
      Comes s g g'.joined
  | pass {g' : Gateway} (h : Comes s g g') (target : Nat) : Comes s g (g'.passUntil target)
  | start {g' : Gateway} (h : Comes s g g') (t : Task) (ht : t ∈ s.starts) :
      Comes s g (g'.startTask t)
  | stop {g' : Gateway} (h : Comes s g g') (t : Task) (grace : Nat) (ht : t ∈ s.stops) :
      Comes s g (g'.stopTask t grace)

namespace Comes

variable {s : Scope} {g g' g'' : Gateway}

theorem of_same (same : Same g g') : Comes s g g' := refl.rest same

/-- What concerns none of the moves at all. -/
theorem aside (h : Comes s g g') (hregistry : g''.registry = g'.registry)
    (hhub : g''.hub = g'.hub) (hagenda : g''.agenda = g'.agenda)
    (hhealth : g''.healthPass = g'.healthPass) (hdrill : g''.drillPass = g'.drillPass)
    (helapsed : g''.elapsed = g'.elapsed) (hsockets : g''.sockets = g'.sockets) : Comes s g g'' :=
  h.rest (.of_sockets hregistry hhub hagenda hhealth hdrill helapsed hsockets)

/-! ### Calls -/

theorem heed (h : Comes s g g') (c : Feed.Call) (hc : (Event.call c).Within s) :
    Comes s g (g'.heed c) :=
  (h.call c hc).rest (same_heed g' c)

/-- Results of probes are folded by calls. -/
theorem absorb (hs : s.changes = true) (h : Comes s g g') (t : Report) (found : List Probed) :
    Comes s g { g' with registry := (Health.absorb g'.now g'.registry t found).state } := by
  induction found generalizing g' t with
  | nil => exact h
  | cons p rest ih =>
    exact ih (h.call (.change (.foldProbed p.copy p.verdict.isHealthy)) hs) _

theorem runAt (hs : s.changes = true) (h : Comes s g g') (changes : List Change) :
    Comes s g { g' with registry := (g'.registry.runAt g'.now changes).1 } := by
  induction changes generalizing g' with
  | nil => exact h
  | cons c rest ih => exact ih (h.call (.change c) hs)

theorem script (hs : s.changes = true) (h : Comes s g g') (cues : Script) (p : Pass)
    (listing : List Instance) :
    Comes s g { g' with registry := (cues.pass g'.now g'.registry p listing).2.state } := by
  induction listing generalizing g' cues p with
  | nil => exact h
  | cons i rest ih => exact ih (h.runAt hs _) _ _

/-! ### Sockets -/

theorem takes (h : Comes s g g') (clients : List (Nat × Nat)) :
    Comes s g { g' with hub := clients.foldl (fun hub p => (hub.receive p.1 p.2).1) g'.hub } := by
  induction clients generalizing g' with
  | nil => exact h
  | cons p rest ih => exact ih (h.call (.receive p.1 p.2) trivial)

end Comes

/-- To pass everything on is to receive everything. -/
theorem update_nil_eq_receive (h : Hub) (client : Nat) :
    ∃ limit, h.update client (fun u => { u with queue := [] }) = (h.receive client limit).1 := by
  cases hs : h.subscribers[client]? with
  | none =>
    refine ⟨0, ?_⟩
    rw [Hub.receive, hs, Hub.update, List.modify_eq_self]
    exact List.getElem?_eq_none_iff.1 hs
  | some u =>
    refine ⟨u.queue.length, ?_⟩
    rw [Hub.receive_of_present h hs, Hub.update, Hub.update, List.modify_eq_set, List.modify_eq_set,
      hs]
    simp

/-- To pass on what is ready opens no socket. -/
theorem flushAll_spec (h : Hub) (sockets : List Socket) :
    (∃ clients : List (Nat × Nat), (flushAll h sockets).1 =
      clients.foldl (fun hub p => (hub.receive p.1 p.2).1) h) ∧
      ((flushAll h sockets).2.filterMap link).Sublist (sockets.filterMap link) := by
  induction sockets generalizing h with
  | nil => exact ⟨⟨[], rfl⟩, .slnil⟩
  | cons u rest ih =>
    unfold flushAll
    split
    · rename_i client inbox
      obtain ⟨limit, hlimit⟩ := update_nil_eq_receive h client
      obtain ⟨⟨clients, hclients⟩, hlinks⟩ := ih (h.update client fun u => { u with queue := [] })
      refine ⟨⟨(client, limit) :: clients, ?_⟩, ?_⟩
      · rw [List.foldl_cons, ← hlimit]
        exact hclients
      · dsimp only
        cases (ready h client).2 with
        | false => exact hlinks.cons_cons client
        | true => exact hlinks.cons client
    · obtain ⟨⟨clients, hclients⟩, hlinks⟩ := ih h
      refine ⟨⟨clients, hclients⟩, ?_⟩
      dsimp only
      rw [List.filterMap_cons, List.filterMap_cons]
      cases link u with
      | none => exact hlinks
      | some client => exact hlinks.cons_cons client

theorem sublist_modify {f : Socket → Socket} (hf : ∀ u, link (f u) = none ∨ link (f u) = link u)
    (sockets : List Socket) (n : Nat) :
    ((sockets.modify n f).filterMap link).Sublist (sockets.filterMap link) := by
  induction sockets generalizing n with
  | nil =>
    simp only [List.modify_nil, List.Sublist.refl]
  | cons u rest ih =>
    cases n with
    | zero =>
      rw [List.modify_zero_cons, List.filterMap_cons, List.filterMap_cons]
      rcases hf u with hnone | hsame
      · rw [hnone]
        cases link u with
        | none => exact .refl _
        | some client => exact .cons client (.refl _)
      · simp only [hsame, List.Sublist.refl]
    | succ n =>
      rw [List.modify_succ_cons, List.filterMap_cons, List.filterMap_cons]
      cases link u with
      | none => exact ih n
      | some client => exact (ih n).cons_cons client

/-- A socket that is changed is closed or stays as it was. -/
theorem same_updateSocket (g : Gateway) (n : Nat) {f : Socket → Socket}
    (hf : ∀ u, link (f u) = none ∨ link (f u) = link u) : Same g (g.updateSocket n f) :=
  ⟨rfl, rfl, rfl, rfl, rfl, rfl, sublist_modify hf g.sockets n⟩

namespace Comes

variable {s : Scope} {g g' g'' : Gateway}

theorem flush (h : Comes s g g') : Comes s g g'.flush := by
  obtain ⟨⟨clients, hclients⟩, hlinks⟩ := flushAll_spec g'.hub g'.sockets
  refine (h.takes clients).rest ⟨rfl, ?_, rfl, rfl, rfl, rfl, hlinks⟩
  exact hclients

theorem openSocket (h : Comes s g g') : Comes s g g'.openSocket.1 := by
  unfold Gateway.openSocket
  cases ha : g'.hub.accepting with
  | true =>
    have hsubscribe : g'.hub.subscribe g'.registry.list =
        ⟨(g'.hub.subscribe g'.registry.list).state, .ok g'.hub.subscribers.length,
          [.subscribed g'.hub.subscribers.length]⟩ := by
      rw [Hub.subscribe, if_pos ha]
    have hanswer : g'.subscribe.2 = .ok g'.hub.subscribers.length := by
      rw [Gateway.subscribe, withHub, hsubscribe]
    simp only [hanswer]
    exact (h.join ha).aside rfl rfl rfl rfl rfl rfl rfl
  | false =>
    have hanswer : g'.subscribe.2 = .error .shuttingDown := by
      rw [Gateway.subscribe, withHub, Hub.subscribe, if_neg (by rw [ha]; nofun)]
    simp only [hanswer]
    refine (h.heed .subscribe trivial).rest ⟨rfl, rfl, rfl, rfl, rfl, rfl, ?_⟩
    show (List.filterMap link (g'.sockets ++ [_])).Sublist (g'.sockets.filterMap link)
    rw [List.filterMap_append]
    exact (List.append_nil _).symm ▸ .refl _

theorem closeHub (h : Comes s g g') (grace : Nat) (hs : .broadcast ∈ s.stops) :
    Comes s g (g'.closeHub grace) :=
  ((h.stop .broadcast grace hs).heed .close trivial).flush

theorem connect (closing : Bool) (hs : closing = true → .broadcast ∈ s.stops) :
    Comes s g (Api.connect g closing).1 := by
  unfold Api.connect
  split
  · cases closing with
    | false => exact refl.openSocket
    | true => exact (refl.closeHub 0 (hs rfl)).openSocket
  · exact refl

theorem closeFrame (n : Nat) : Comes s g (g.closeFrame n) := by
  unfold Gateway.closeFrame
  split
  · rename_i client _
    have hclosed := of_same (s := s) (g.same_updateSocket n
      (f := fun u => { u with isOpen := false }) fun _ => .inl rfl)
    exact (hclosed.heed (.hangUp client) trivial).heed (.unsubscribe client) trivial
  · exact refl

theorem breakSocket (n : Nat) : Comes s g (g.breakSocket n) := by
  unfold Gateway.breakSocket
  split
  · rename_i client _
    have hclosed := of_same (s := s) (g.same_updateSocket n
      (f := fun u => { u with inbox := [], isOpen := false }) fun _ => .inl rfl)
    exact ((hclosed.rest (same_say _ _)).heed (.hangUp client) trivial).heed (.unsubscribe client)
      trivial
  · exact refl

theorem textFrame (n : Nat) (text : String) : Comes s g (g.textFrame n text) := by
  unfold Gateway.textFrame
  split
  · exact refl.heed (.handle _ text) trivial
  · exact refl

theorem pingFrame (n : Nat) (payload : Bytes) : Comes s g (g.pingFrame n payload) := by
  unfold Gateway.pingFrame
  split
  · exact of_same (g.same_updateSocket n fun _ => .inr rfl)
  · exact refl

theorem takeFrames (n : Nat) : Comes s g (g.takeFrames n).1 := by
  unfold Gateway.takeFrames
  split
  · exact of_same (g.same_updateSocket n fun _ => .inr rfl)
  · exact refl

/-! ### Passes in the foreground -/

theorem settlePass (hs : s.changes = true) (h : Comes s g g') (p : Pass) :
    Comes s g (g'.settlePass p).1 :=
  (h.absorb hs {} p.probed).aside rfl rfl rfl rfl rfl rfl rfl

theorem checkByScript (hs : s.changes = true) : Comes s g g.checkByScript.1 := by
  have hbegun : Comes s g g.beginDrillPass.1 :=
    (refl.script hs g.script {} g.registry.list.values).aside rfl rfl rfl rfl rfl rfl rfl
  exact (hbegun.pass _).settlePass hs _

theorem checkByNetwork (hs : s.changes = true) : Comes s g g.checkByNetwork.1 := by
  have hbegun : Comes s g g.beginHealthPass.1 := refl.aside rfl rfl rfl rfl rfl rfl rfl
  exact (hbegun.pass _).settlePass hs _

/-! ### Requests -/

theorem settleExchange (h : Comes s g g') (n : Nat) (l : Lease) (target : String) (j : Journey)
    (patience : Option Nat) : Comes s g (Api.settleExchange g' n l target j patience).1 := by
  unfold Api.settleExchange
  split
  · exact (h.pass _).aside rfl rfl rfl rfl rfl rfl rfl
  · have hslept := h.pass (g'.elapsed + j.elapsed)
    cases j.result <;> exact hslept.aside rfl rfl rfl rfl rfl rfl rfl

theorem forward (service path : String) (r : Http.Request) (patience : Option Nat) :
    Comes s g (Api.forward g service path r patience).1 := by
  unfold Api.forward
  dsimp only
  split
  · exact refl.aside rfl rfl rfl rfl rfl rfl rfl
  · exact refl.aside rfl rfl rfl rfl rfl rfl rfl
  · split
    · exact refl.aside rfl rfl rfl rfl rfl rfl rfl
    · refine settleExchange ?_ _ _ _ _ _
      exact refl.aside rfl rfl rfl rfl rfl rfl rfl

theorem registerService (hs : s.changes = true) (r : Http.Request) :
    Comes s g (Api.registerService g r).1 := by
  unfold Api.registerService
  split
  · exact refl
  · rename_i q _
    have hregistered : Comes s g (g.register q).1 := refl.heed (.change (.register q)) hs
    dsimp only
    split <;> exact hregistered

/-- Only a request that is not forwarded can change the registry by itself. -/
theorem respond (r : Http.Request) (patience : Option Nat)
    (hs : Api.forwardedAs? r = none → s.changes = true) :
    Comes s g (Api.respond g r patience).1 := by
  unfold Api.respond
  dsimp only
  split
  · split <;> exact refl
  · rename_i route hroute
    split
    · exact refl
    · rename_i hmethod
      split
      · exact refl
      · split
        · exact refl
        · rename_i hlegible
          have hplain : ¬ (r.method = "OPTIONS" ∨ route.illegible?.isSome = true) := by
            rw [hlegible]
            simpa using hmethod
          -- What is answered here, and not forwarded, is on none of the two proxied routes.
          have hnone (h : ∀ name rest, route ≠ .proxyRoot name ∧ route ≠ .proxyPath name rest) :
              Api.forwardedAs? r = none := by
            simp only [Api.forwardedAs?, hroute, if_neg hplain]
            cases route with
            | proxyRoot name => exact absurd rfl (h name "").1
            | proxyPath name rest => exact absurd rfl (h name rest).2
            | _ => rfl
          cases route with
          | proxyRoot name => exact forward _ _ _ _
          | proxyPath name rest => exact forward _ _ _ _
          | services =>
            simp only [Api.serveRoute]
            split
            · exact registerService (hs (hnone (by simp))) r
            · exact refl
          | service id =>
            simp only [Api.serveRoute]
            split
            · exact refl.heed (.change (.deregister (Api.decoded id))) (hs (hnone (by simp)))
            · exact refl
          | _ => exact refl

/-! ### All deeds -/

/-- Every deed is put together from moves of its scope. -/
theorem perform (g : Gateway) (d : Deed) : Comes d.scope g (g.perform d) := by
  cases d with
  | call c =>
    refine refl.heed c ?_
    cases c <;> trivial
  | broadcast => exact (refl.heed .broadcast trivial).flush
  | connect closing => exact connect closing fun hc => by simp [Deed.scope, hc]
  | text n text => exact textFrame n text
  | ping n payload => exact pingFrame n payload
  | hangUp n => exact closeFrame n
  | vanish n => exact breakSocket n
  | look n => exact takeFrames n
  | flush => exact refl.flush
  | request r patience => exact respond r patience fun h => by simp [Deed.scope, h]
  | start t => exact refl.start t (by simp [Deed.scope])
  | stop t grace => exact refl.stop t grace (by simp [Deed.scope])
  | startBackground =>
    exact (refl.start .health (by simp [Deed.scope])).start .broadcast (by simp [Deed.scope])
  | closeHub grace => exact refl.closeHub grace (by simp [Deed.scope])
  | shutdown deadline =>
    exact ((refl.closeHub _ (by simp [Deed.scope])).stop .health _ (by simp [Deed.scope])).rest
      (same_say _ _)
  | sleep millis => exact refl.pass _
  | checkByScript => exact checkByScript rfl
  | checkByNetwork => exact checkByNetwork rfl
  | _ => exact refl.aside rfl rfl rfl rfl rfl rfl rfl

end Comes

end Gateway

end Switchyard
