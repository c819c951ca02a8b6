import Switchyard.Proofs.Hub.Laws
import Switchyard.Proofs.Runs
import Switchyard.Registry.Store

/-! A hub on a registry, and what each call means to one subscriber: the message that the
call has for it, what the hub accepts of that, and what the subscriber receives. `fate` says
what a call can do to a subscriber. -/
namespace Switchyard

open Registry (Change)

/-- A hub and the registry that it shows to its subscribers. -/
structure Feed where
  registry : Registry
  hub : Hub

namespace Feed

/-- What can happen to a feed. -/
inductive Call where
  | change (c : Change)
  | subscribe
  | unsubscribe (client : Nat)
  | handle (client : Nat) (text : String)
  | send (client : Nat) (m : ServerMessage)
  | broadcast
  | close
  | receive (client limit : Nat)
  | hangUp (client : Nat)

def start (threshold : UInt32) (capacity : Nat) : Feed := ⟨{ threshold }, Hub.new capacity⟩

def step (f : Feed) (e : Instant × Call) : Feed :=
  match e.2 with
  | .change c => { f with registry := (c.run e.1 f.registry).1 }
  | .subscribe => { f with hub := (f.hub.subscribe f.registry.list).state }
  | .unsubscribe client => { f with hub := (f.hub.unsubscribe client).state }
  | .handle client text =>
    { f with hub := (f.hub.handle e.1 f.registry.list client text).state }
  | .send client m => { f with hub := (f.hub.send client m).state }
  | .broadcast => { f with hub := (f.hub.broadcast e.1 f.registry.list).state }
  | .close => { f with hub := f.hub.close.state }
  | .receive client limit => { f with hub := (f.hub.receive client limit).1 }
  | .hangUp client => { f with hub := f.hub.hangUp client }

def run (f : Feed) (calls : List (Instant × Call)) : Feed := calls.foldl step f

@[simp] theorem run_nil (f : Feed) : f.run [] = f := rfl

@[simp] theorem run_cons (f : Feed) (e : Instant × Call) (rest : List (Instant × Call)) :
    f.run (e :: rest) = (f.step e).run rest := rfl

theorem run_append (f : Feed) (before after : List (Instant × Call)) :
    f.run (before ++ after) = (f.run before).run after := List.foldl_append

/-! ### What a call means to one subscriber -/

/-- Whether a call takes a subscriber out of the set. -/
def Call.dismisses (client : Nat) : Call → Bool
  | unsubscribe c => c == client
  | close => true
  | _ => false

/-- The message that a call has for a subscriber in the set. -/
def addressed (f : Feed) (now : Instant) (client : Nat) : Call → Option ServerMessage
  | .handle c text =>
    if c = client then
      match ClientMessage.decoder.read text with
      | .error _ => none
      | .ok m => some (m.reply now f.registry.list)
    else none
  | .send c m => if c = client then some m else none
  | .broadcast => some (.serviceUpdate f.registry.list now)
  | _ => none

/-- What the hub accepts for a subscriber in a call: the directory for a newcomer, and for
a member with room the message that the call has for it. -/
def accepts (f : Feed) (now : Instant) (client : Nat) : Call → List ServerMessage
  | .subscribe =>
    if f.hub.accepting = true ∧ client = f.hub.subscribers.length then
      [.serviceList f.registry.list]
    else []
  | c =>
    if (f.hub.member? client).any (·.ready f.hub.capacity) then
      (f.addressed now client c).toList
    else []

/-- What a subscriber receives in a call. -/
def hands (f : Feed) (client : Nat) : Call → List String
  | .receive c limit => if c = client then (f.hub.receive c limit).2 else []
  | _ => []

/-- All that the hub accepts for a subscriber in a run. -/
def accepted (f : Feed) (client : Nat) (calls : List (Instant × Call)) : List ServerMessage :=
  observed step (fun f e => f.accepts e.1 client e.2) f calls

/-- All that a subscriber receives in a run. -/
def received (f : Feed) (client : Nat) (calls : List (Instant × Call)) : List String :=
  observed step (fun f e => f.hands client e.2) f calls

theorem accepted_cons (f : Feed) (client : Nat) (e : Instant × Call)
    (rest : List (Instant × Call)) :
    f.accepted client (e :: rest) =
      f.accepts e.1 client e.2 ++ (f.step e).accepted client rest := rfl

theorem received_cons (f : Feed) (client : Nat) (e : Instant × Call)
    (rest : List (Instant × Call)) :
    f.received client (e :: rest) = f.hands client e.2 ++ (f.step e).received client rest := rfl

theorem accepted_append (f : Feed) (client : Nat) (before after : List (Instant × Call)) :
    f.accepted client (before ++ after) =
      f.accepted client before ++ (f.run before).accepted client after :=
  observed_append _ _ f before after

theorem received_append (f : Feed) (client : Nat) (before after : List (Instant × Call)) :
    f.received client (before ++ after) =
      f.received client before ++ (f.run before).received client after :=
  observed_append _ _ f before after

/-! ### One call -/

/-- What a call can do to a subscriber, with what is accepted for it and what it receives. -/
inductive Fate (f : Feed) (now : Instant) (c : Call) (client : Nat) (s : Subscriber) :
    Subscriber → List ServerMessage → List String → Prop where
  | kept (quiet : s.member = true → f.addressed now client c = none ∧ ¬ c.dismisses client) :
      Fate f now c client s s [] []
  | queued (m : ServerMessage) (sent : f.addressed now client c = some m)
      (member : s.member = true) (room : s.ready f.hub.capacity = true) :
      Fate f now c client s { s with queue := s.queue ++ [m.encode] } [m] []
  | refused (m : ServerMessage) (sent : f.addressed now client c = some m)
      (member : s.member = true) (full : ¬ s.ready f.hub.capacity = true) :
      Fate f now c client s s.leave [] []
  | dismissed (out : c.dismisses client = true) : Fate f now c client s s.leave [] []
  | drained (limit : Nat) (call : c = .receive client limit) :
      Fate f now c client s { s with queue := s.queue.drop limit } [] (s.queue.take limit)
  | hungUp (call : c = .hangUp client) :
      Fate f now c client s { s with receiving := false, queue := [] } [] []

/-- That a subscriber is still there after a call and has met one of its fates. -/
def Fated (f : Feed) (now : Instant) (client : Nat) (s : Subscriber) (c : Call) : Prop :=
  ∃ s', (f.step (now, c)).hub.subscribers[client]? = some s' ∧
    Fate f now c client s s' (f.accepts now client c) (f.hands client c)

section

variable {f : Feed} {now : Instant} {c : Call} {client : Nat} {s : Subscriber}

theorem not_dismisses_of_addressed {m : ServerMessage}
    (sent : f.addressed now client c = some m) : ¬ c.dismisses client := by
  cases c with
  | unsubscribe given => cases sent
  | close => cases sent
  | _ => exact nofun

theorem accepts_of_addressed {m : ServerMessage} (sent : f.addressed now client c = some m) :
    f.accepts now client c =
      if (f.hub.member? client).any (·.ready f.hub.capacity) then [m] else [] := by
  cases c with
  | subscribe => cases sent
  | _ => simp only [accepts, sent, Option.toList_some]

theorem accepts_of_unaddressed (hs : f.hub.subscribers[client]? = some s)
    (quiet : f.addressed now client c = none) : f.accepts now client c = [] := by
  have hlt : client < f.hub.subscribers.length := (List.getElem?_eq_some_iff.1 hs).1
  cases c with
  | subscribe => exact if_neg fun h => Nat.ne_of_lt hlt h.2
  | _ => simp only [accepts, quiet, Option.toList_none, ite_self]

theorem hands_of_addressed {m : ServerMessage} (sent : f.addressed now client c = some m) :
    f.hands client c = [] := by
  cases c with
  | receive given limit => cases sent
  | _ => rfl

/-- A message for a subscriber is queued for it, or makes it leave, or finds it outside. -/
theorem fate_of_addressed (hs : f.hub.subscribers[client]? = some s) {m : ServerMessage}
    (sent : f.addressed now client c = some m) :
    Fate f now c client s (s.offer f.hub.capacity m.encode) (f.accepts now client c)
      (f.hands client c) := by
  rw [hands_of_addressed sent, accepts_of_addressed sent, Hub.member?, hs, Option.filter_some,
    Subscriber.offer]
  by_cases hm : s.member = true
  · rw [if_pos hm, if_pos hm, Option.any_some]
    by_cases hr : s.ready f.hub.capacity = true
    · rw [if_pos hr, if_pos hr]
      exact .queued m sent hm hr
    · rw [if_neg hr, if_neg hr]
      exact .refused m sent hm hr
  · rw [if_neg hm, if_neg hm]
    exact .kept fun h => absurd h hm

/-- A call that has nothing for a subscriber and leaves it where it is. -/
theorem fate_of_quiet (hs : f.hub.subscribers[client]? = some s)
    (quiet : f.addressed now client c = none) (stays : ¬ c.dismisses client)
    (nothing : f.hands client c = []) :
    Fate f now c client s s (f.accepts now client c) (f.hands client c) := by
  rw [accepts_of_unaddressed hs quiet, nothing]
  exact .kept fun _ => ⟨quiet, stays⟩

end

variable (f : Feed) (now : Instant) (client : Nat)

theorem fate_subscribe {s : Subscriber} (hs : f.hub.subscribers[client]? = some s) :
    Fated f now client s .subscribe := by
  have hlt : client < f.hub.subscribers.length := (List.getElem?_eq_some_iff.1 hs).1
  refine ⟨s, ?_, fate_of_quiet hs rfl nofun rfl⟩
  exact (Hub.getElem?_subscribe f.hub client f.registry.list).trans
    ((if_neg fun h => Nat.ne_of_lt hlt h.2).trans hs)

theorem fate_unsubscribe {s : Subscriber} (hs : f.hub.subscribers[client]? = some s)
    (given : Nat) : Fated f now client s (.unsubscribe given) := by
  have hget : (f.step (now, .unsubscribe given)).hub.subscribers[client]? = _ :=
    Hub.getElem?_unsubscribe f.hub client given
  by_cases heq : given = client
  · rw [if_pos heq, hs] at hget
    refine ⟨s.leave, hget, ?_⟩
    rw [accepts_of_unaddressed hs rfl]
    exact .dismissed (beq_iff_eq.2 heq)
  · rw [if_neg heq, hs] at hget
    exact ⟨s, hget, fate_of_quiet hs rfl (fun h => heq (beq_iff_eq.1 h)) rfl⟩

theorem fate_handle {s : Subscriber} (hs : f.hub.subscribers[client]? = some s)
    (given : Nat) (text : String) : Fated f now client s (.handle given text) := by
  have hstate : (f.step (now, .handle given text)).hub = _ :=
    Hub.handle_state f.hub now f.registry.list given text
  rw [Fated, hstate]
  cases hread : ClientMessage.decoder.read text with
  | error e =>
    refine ⟨s, hs, fate_of_quiet hs ?_ nofun rfl⟩
    simp only [addressed, hread, ite_self]
  | ok m =>
    by_cases heq : given = client
    · have sent : f.addressed now client (.handle given text) =
          some (m.reply now f.registry.list) := by
        simp only [addressed, hread, if_pos heq]
      refine ⟨_, ?_, fate_of_addressed hs sent⟩
      exact (Hub.getElem?_push ..).trans (by rw [if_pos heq, hs, Option.map_some])
    · refine ⟨s, (Hub.getElem?_push ..).trans ((if_neg heq).trans hs), ?_⟩
      exact fate_of_quiet hs (if_neg heq) nofun rfl

theorem fate_send {s : Subscriber} (hs : f.hub.subscribers[client]? = some s)
    (given : Nat) (m : ServerMessage) : Fated f now client s (.send given m) := by
  have hget : (f.step (now, .send given m)).hub.subscribers[client]? = _ :=
    Hub.getElem?_push f.hub client given m.encode
  by_cases heq : given = client
  · rw [if_pos heq, hs] at hget
    exact ⟨_, hget, fate_of_addressed hs (if_pos heq)⟩
  · rw [if_neg heq, hs] at hget
    exact ⟨s, hget, fate_of_quiet hs (if_neg heq) nofun rfl⟩

theorem fate_broadcast {s : Subscriber} (hs : f.hub.subscribers[client]? = some s) :
    Fated f now client s .broadcast := by
  have hget : (f.step (now, .broadcast)).hub.subscribers[client]? = _ :=
    Hub.getElem?_broadcast f.hub client now f.registry.list
  rw [hs] at hget
  exact ⟨_, hget, fate_of_addressed hs rfl⟩

theorem fate_close {s : Subscriber} (hs : f.hub.subscribers[client]? = some s) :
    Fated f now client s .close := by
  have hget : (f.step (now, .close)).hub.subscribers[client]? = _ :=
    Hub.getElem?_close f.hub client
  rw [hs] at hget
  refine ⟨s.leave, hget, ?_⟩
  rw [accepts_of_unaddressed hs rfl]
  exact .dismissed rfl

theorem fate_receive {s : Subscriber} (hs : f.hub.subscribers[client]? = some s)
    (given limit : Nat) : Fated f now client s (.receive given limit) := by
  have hget : (f.step (now, .receive given limit)).hub.subscribers[client]? = _ :=
    Hub.getElem?_receive f.hub client given limit
  by_cases heq : given = client
  · subst heq
    rw [if_pos rfl, hs] at hget
    refine ⟨_, hget, ?_⟩
    have hands : f.hands given (.receive given limit) = s.queue.take limit := by
      rw [hands, if_pos rfl, Hub.receive_of_present f.hub hs]
    rw [accepts_of_unaddressed hs rfl, hands]
    exact .drained limit rfl
  · rw [if_neg heq, hs] at hget
    exact ⟨s, hget, fate_of_quiet hs rfl nofun (if_neg heq)⟩

theorem fate_hangUp {s : Subscriber} (hs : f.hub.subscribers[client]? = some s) (given : Nat) :
    Fated f now client s (.hangUp given) := by
  have hget : (f.step (now, .hangUp given)).hub.subscribers[client]? = _ :=
    Hub.getElem?_hangUp f.hub client given
  by_cases heq : given = client
  · subst heq
    rw [if_pos rfl, hs] at hget
    refine ⟨_, hget, ?_⟩
    rw [accepts_of_unaddressed hs rfl]
    exact .hungUp rfl
  · rw [if_neg heq, hs] at hget
    exact ⟨s, hget, fate_of_quiet hs rfl nofun rfl⟩

/-- Every call leaves every subscriber to one of its fates. -/
theorem fate {s : Subscriber} (hs : f.hub.subscribers[client]? = some s) (c : Call) :
    Fated f now client s c := by
  cases c with
  | change c => exact ⟨s, hs, fate_of_quiet hs rfl nofun rfl⟩
  | subscribe => exact fate_subscribe f now client hs
  | unsubscribe given => exact fate_unsubscribe f now client hs given
  | handle given text => exact fate_handle f now client hs given text
  | send given m => exact fate_send f now client hs given m
  | broadcast => exact fate_broadcast f now client hs
  | close => exact fate_close f now client hs
  | receive given limit => exact fate_receive f now client hs given limit
  | hangUp given => exact fate_hangUp f now client hs given

theorem step_capacity (e : Instant × Call) : (f.step e).hub.capacity = f.hub.capacity := by
  obtain ⟨now, c⟩ := e
  cases c with
  | subscribe =>
    show (f.hub.subscribe f.registry.list).state.capacity = _
    unfold Hub.subscribe
    split <;> rfl
  | unsubscribe given => exact Hub.unsubscribe_capacity f.hub given
  | handle given text =>
    have hstate : (f.step (now, .handle given text)).hub = _ :=
      Hub.handle_state f.hub now f.registry.list given text
    rw [hstate]
    split
    · rfl
    · exact Hub.push_capacity ..
  | send given m => exact Hub.push_capacity f.hub given m.encode
  | broadcast => exact Hub.pushAll_capacity ..
  | receive given limit => exact Hub.receive_capacity f.hub given limit
  | _ => rfl

theorem run_capacity (calls : List (Instant × Call)) :
    (f.run calls).hub.capacity = f.hub.capacity := by
  induction calls generalizing f with
  | nil => rfl
  | cons e rest ih => exact (ih (f.step e)).trans (step_capacity f e)

namespace Fate

variable {f : Feed} {now : Instant} {c : Call} {client : Nat} {s s' : Subscriber}
  {a : List ServerMessage} {t : List String}

/-- A member stays one unless the call takes it out or has a message that it cannot take. -/
theorem member_iff (h : Fate f now c client s s' a t) :
    s'.member = true ↔ s.member = true ∧ ¬ c.dismisses client ∧
      (f.addressed now client c = none ∨ s.ready f.hub.capacity = true) := by
  cases h with
  | kept quiet => exact ⟨fun h => ⟨h, (quiet h).2, .inl (quiet h).1⟩, fun h => h.1⟩
  | queued m sent member room =>
    exact ⟨fun _ => ⟨member, not_dismisses_of_addressed sent, .inr room⟩, fun _ => member⟩
  | refused m sent member full =>
    refine ⟨nofun, fun h => ?_⟩
    rcases h.2.2 with h | h
    · rw [sent] at h
      cases h
    · exact absurd h full
  | dismissed out => exact ⟨nofun, fun h => absurd out h.2.1⟩
  | drained limit call =>
    subst call
    exact ⟨fun h => ⟨h, nofun, .inl rfl⟩, fun h => h.1⟩
  | hungUp call =>
    subst call
    exact ⟨fun h => ⟨h, nofun, .inl rfl⟩, fun h => h.1⟩

/-- What is received leaves the queue at its front, and what is accepted joins its end. -/
theorem conserves (h : Fate f now c client s s' a t) (hr : s'.receiving = true) :
    s.receiving = true ∧ t ++ s'.queue = s.queue ++ a.map ServerMessage.encode := by
  cases h with
  | kept quiet => exact ⟨hr, (List.append_nil _).symm⟩
  | queued m sent member room => exact ⟨hr, rfl⟩
  | refused m sent member full => exact ⟨hr, (List.append_nil _).symm⟩
  | dismissed out => exact ⟨hr, (List.append_nil _).symm⟩
  | drained limit call =>
    exact ⟨hr, (List.take_append_drop limit s.queue).trans (List.append_nil _).symm⟩
  | hungUp call => cases hr

theorem bounded (h : Fate f now c client s s' a t)
    (hs : s.queue.length ≤ f.hub.capacity) : s'.queue.length ≤ f.hub.capacity := by
  cases h with
  | queued m sent member room =>
    simp only [Subscriber.ready, Bool.and_eq_true, decide_eq_true_eq] at room
    rw [List.length_append, List.length_singleton]
    omega
  | drained limit call =>
    rw [List.length_drop]
    omega
  | hungUp call => exact Nat.zero_le _
  | _ => exact hs

theorem outside (h : Fate f now c client s s' a t) (hm : s.member = false) :
    s'.member = false ∧ a = [] := by
  cases h with
  | queued m sent member room => exact absurd (hm.symm.trans member) nofun
  | refused => exact ⟨rfl, rfl⟩
  | dismissed => exact ⟨rfl, rfl⟩
  | _ => exact ⟨hm, rfl⟩

end Fate

end Feed

end Switchyard
