import Switchyard.Proofs.Hub.Feed

/-! Delivery by the hub over a run. The messages that the hub accepts for a subscriber, from
the directory of the moment it arrived, are those that it has received and those that still
wait in its queue, in one order. The first message that it refuses is the last that it is
offered. -/
namespace Switchyard.Feed

variable (f : Feed) (now : Instant) (client : Nat)

/-! ### Runs -/

/-- What a run has made of a subscriber. -/
structure Ran (f : Feed) (client : Nat) (s : Subscriber) (calls : List (Instant × Call))
    (s' : Subscriber) : Prop where
  present : (f.run calls).hub.subscribers[client]? = some s'
  conserves : s'.receiving = true → s.receiving = true ∧
    f.received client calls ++ s'.queue =
      s.queue ++ (f.accepted client calls).map ServerMessage.encode
  bounded : s.queue.length ≤ f.hub.capacity → s'.queue.length ≤ f.hub.capacity
  outside : s.member = false → s'.member = false ∧ f.accepted client calls = []

theorem exists_ran {s : Subscriber} (hs : f.hub.subscribers[client]? = some s)
    (calls : List (Instant × Call)) : ∃ s', Ran f client s calls s' := by
  induction calls generalizing f s with
  | nil =>
    exact ⟨s, hs, fun hr => ⟨hr, (List.append_nil _).symm⟩, fun h => h, fun hm => ⟨hm, rfl⟩⟩
  | cons e rest ih =>
    obtain ⟨mid, hmid, first⟩ := fate f e.1 client hs e.2
    obtain ⟨s', more⟩ := ih (f.step e) hmid
    refine ⟨s', more.present, fun hr => ?_, fun hq => ?_, fun hm => ?_⟩
    · obtain ⟨hr, hrest⟩ := more.conserves hr
      obtain ⟨hr, hfirst⟩ := first.conserves hr
      refine ⟨hr, ?_⟩
      rw [received_cons, accepted_cons, List.append_assoc, hrest, ← List.append_assoc, hfirst,
        List.map_append, List.append_assoc]
    · have hq := more.bounded ((step_capacity f e).symm ▸ first.bounded hq)
      rwa [step_capacity] at hq
    · obtain ⟨hm, hnone⟩ := first.outside hm
      obtain ⟨hm, hrest⟩ := more.outside hm
      exact ⟨hm, by rw [accepted_cons, hnone, hrest, List.append_nil]⟩

/-! ### Arrivals -/

/-- Only a subscription brings a subscriber. -/
theorem absent_step {c : Call} (hs : f.hub.subscribers[client]? = none) (hc : c ≠ .subscribe) :
    (f.step (now, c)).hub.subscribers[client]? = none := by
  cases c with
  | change c => exact hs
  | subscribe => exact absurd rfl hc
  | unsubscribe given =>
    refine (Hub.getElem?_unsubscribe f.hub client given).trans ?_
    rw [hs, Option.map_none, ite_self]
  | handle given text =>
    have hstate : (f.step (now, .handle given text)).hub = _ :=
      Hub.handle_state f.hub now f.registry.list given text
    rw [hstate]
    split
    · exact hs
    · refine (Hub.getElem?_push ..).trans ?_
      rw [hs, Option.map_none, ite_self]
  | send given m =>
    refine (Hub.getElem?_push f.hub client given m.encode).trans ?_
    rw [hs, Option.map_none, ite_self]
  | broadcast =>
    refine (Hub.getElem?_broadcast f.hub client now f.registry.list).trans ?_
    rw [hs, Option.map_none]
  | close =>
    refine (Hub.getElem?_close f.hub client).trans ?_
    rw [hs, Option.map_none]
  | receive given limit =>
    refine (Hub.getElem?_receive f.hub client given limit).trans ?_
    rw [hs, Option.map_none, ite_self]
  | hangUp given =>
    refine (Hub.getElem?_hangUp f.hub client given).trans ?_
    rw [hs, Option.map_none, ite_self]

theorem accepts_of_absent {c : Call} (hs : f.hub.subscribers[client]? = none)
    (hc : c ≠ .subscribe) : f.accepts now client c = [] := by
  have hm : f.hub.member? client = none := by rw [Hub.member?, hs]; rfl
  cases c with
  | subscribe => exact absurd rfl hc
  | _ => simp only [accepts, hm, Option.any_none, Bool.false_eq_true, ↓reduceIte]

theorem hands_of_absent (hs : f.hub.subscribers[client]? = none) (c : Call) :
    f.hands client c = [] := by
  cases c with
  | receive given limit =>
    by_cases heq : given = client
    · subst heq
      simp only [hands, Hub.receive, hs, ite_self]
    · exact if_neg heq
  | _ => rfl

/-- What a subscription brings under a number that was not given. -/
theorem subscribe_of_absent (hs : f.hub.subscribers[client]? = none) :
    (f.step (now, .subscribe)).hub.subscribers[client]? = none ∧
        f.accepts now client .subscribe = [] ∨
      (f.step (now, .subscribe)).hub.subscribers[client]? =
          some { queue := [(ServerMessage.serviceList f.registry.list).encode] } ∧
        f.accepts now client .subscribe = [.serviceList f.registry.list] := by
  have hget : (f.step (now, .subscribe)).hub.subscribers[client]? = _ :=
    Hub.getElem?_subscribe f.hub client f.registry.list
  rw [hget, accepts]
  by_cases h : f.hub.accepting = true ∧ client = f.hub.subscribers.length
  · exact .inr ⟨if_pos h, if_pos h⟩
  · exact .inl ⟨(if_neg h).trans hs, if_neg h⟩

/-- The run up to the arrival of a subscriber, and from there on. -/
structure Arrival (f : Feed) (client : Nat) (calls before : List (Instant × Call))
    (now : Instant) (after : List (Instant × Call)) : Prop where
  split : calls = before ++ (now, .subscribe) :: after
  unheard : f.accepted client before = [] ∧ f.received client before = []
  greeted : (f.run before).accepts now client .subscribe =
    [.serviceList (f.run before).registry.list]
  present : ((f.run before).step (now, .subscribe)).hub.subscribers[client]? =
    some { queue := [(ServerMessage.serviceList (f.run before).registry.list).encode] }

theorem exists_arrival {s : Subscriber} (habsent : f.hub.subscribers[client]? = none)
    (calls : List (Instant × Call)) (hs : (f.run calls).hub.subscribers[client]? = some s) :
    ∃ before now after, Arrival f client calls before now after := by
  induction calls generalizing f with
  | nil =>
    rw [run_nil, habsent] at hs
    cases hs
  | cons e rest ih =>
    obtain ⟨now, c⟩ := e
    have hhands := hands_of_absent f client habsent c
    -- a call that leaves the number free joins the part before the arrival
    have later (hnone : (f.step (now, c)).hub.subscribers[client]? = none)
        (hnot : f.accepts now client c = []) :
        ∃ before now' after, Arrival f client ((now, c) :: rest) before now' after := by
      obtain ⟨before, now', after, split, ⟨haccepted, hreceived⟩, greeted, present⟩ :=
        ih (f.step (now, c)) hnone hs
      refine ⟨(now, c) :: before, now', after, ?_, ⟨?_, ?_⟩, greeted, present⟩
      · rw [split, List.cons_append]
      · rw [accepted_cons, haccepted, hnot, List.append_nil]
      · rw [received_cons, hreceived, hhands, List.append_nil]
    by_cases hc : c = .subscribe
    · subst hc
      rcases subscribe_of_absent f now client habsent with ⟨hnone, hnot⟩ | ⟨hsome, hlist⟩
      · exact later hnone hnot
      · exact ⟨[], now, rest, rfl, ⟨rfl, rfl⟩, hlist, hsome⟩
    · exact later (absent_step f now client habsent hc) (accepts_of_absent f now client habsent hc)

/-- The run that has brought a subscriber, cut at its arrival. -/
theorem exists_ran_from_arrival (threshold : UInt32) (capacity : Nat)
    (calls : List (Instant × Call)) {s : Subscriber}
    (hs : ((start threshold capacity).run calls).hub.subscribers[client]? = some s) :
    ∃ before now after, calls = before ++ (now, .subscribe) :: after ∧
      let services := ((start threshold capacity).run before).registry.list
      let arrived := (start threshold capacity).run (before ++ [(now, .subscribe)])
      (start threshold capacity).accepted client calls =
        .serviceList services :: arrived.accepted client after ∧
      (start threshold capacity).received client calls = arrived.received client after ∧
      Ran arrived client { queue := [(ServerMessage.serviceList services).encode] } after s := by
  obtain ⟨before, now, after, split, ⟨haccepted, hreceived⟩, greeted, present⟩ :=
    exists_arrival (start threshold capacity) client rfl calls hs
  refine ⟨before, now, after, split, ?_⟩
  intro services arrived
  have harrived : arrived = ((start threshold capacity).run before).step (now, .subscribe) :=
    run_append _ before _
  have hpresent : arrived.hub.subscribers[client]? = _ := harrived ▸ present
  obtain ⟨s', ran⟩ := exists_ran arrived client hpresent after
  have heq : s' = s := by
    rw [split, run_append, run_cons, ← harrived, ran.present] at hs
    exact Option.some.inj hs
  refine ⟨?_, ?_, heq ▸ ran⟩
  · rw [split, accepted_append, haccepted, accepted_cons, greeted, ← harrived]
    rfl
  · rw [split, received_append, hreceived, received_cons, ← harrived]
    rfl

/-- After any calls, for every subscriber that has arrived: while its receiver is held, what
it has received and what is queued for it are the messages that were accepted for it; they
begin with the directory of its arrival; the queue is never longer than the room of the hub;
a member stays one unless it is taken out or a message for it finds no room or no receiver;
one that is outside is sent nothing more, and all that waits for it can still be received;
and what is sent is answered by whether it was accepted. -/
theorem delivers_in_order (threshold : UInt32) (capacity : Nat) (calls : List (Instant × Call))
    (client : Nat) (s : Subscriber) :
    let f := (start threshold capacity).run calls
    f.hub.subscribers[client]? = some s →
    (s.receiving = true →
      (start threshold capacity).received client calls ++ s.queue =
        ((start threshold capacity).accepted client calls).map ServerMessage.encode) ∧
    (∃ before now after, calls = before ++ (now, .subscribe) :: after ∧
      (start threshold capacity).accepted client calls =
        .serviceList ((start threshold capacity).run before).registry.list ::
          ((start threshold capacity).run (before ++ [(now, .subscribe)])).accepted client after) ∧
    s.queue.length ≤ max capacity 1 ∧
    (∀ now c, ∃ s', (f.step (now, c)).hub.subscribers[client]? = some s' ∧
      (s'.member = true ↔ s.member = true ∧ ¬ c.dismisses client ∧
        (f.addressed now client c = none ∨ s.ready (max capacity 1) = true))) ∧
    (s.member = false → ∀ later, ∃ s', (f.run later).hub.subscribers[client]? = some s' ∧
      s'.member = false ∧ f.accepted client later = [] ∧
      (s'.receiving = true → f.received client later ++ s'.queue = s.queue)) ∧
    (f.hub.receive client s.queue.length).2 = s.queue ∧
    ∀ m, (f.hub.send client m).answer = (s.member && s.ready (max capacity 1)) := by
  intro f hs
  have hcapacity : f.hub.capacity = max capacity 1 := run_capacity _ calls
  obtain ⟨before, now, after, split, haccepted, hreceived, ran⟩ :=
    exists_ran_from_arrival client threshold capacity calls hs
  refine ⟨fun hr => ?_, ⟨before, now, after, split, haccepted⟩, ?_, fun now c => ?_,
    fun hm later => ?_, ?_, fun m => ?_⟩
  · rw [haccepted, hreceived]
    exact (ran.conserves hr).2
  · have hq := ran.bounded (by rw [run_capacity]; exact Nat.le_max_right capacity 1)
    rwa [run_capacity] at hq
  · obtain ⟨s', hs', h⟩ := fate f now client hs c
    exact ⟨s', hs', hcapacity ▸ h.member_iff⟩
  · obtain ⟨s', more⟩ := exists_ran f client hs later
    obtain ⟨hm', hnone⟩ := more.outside hm
    refine ⟨s', more.present, hm', hnone, fun hr => ?_⟩
    rw [(more.conserves hr).2, hnone, List.map_nil, List.append_nil]
  · rw [Hub.receive_of_present f.hub hs, List.take_length]
  · rw [Hub.send, Hub.push_answer, Hub.member?, hs, hcapacity, Option.filter_some]
    cases s.member <;> rfl

/-- The second of two updates finds no room; the first is still there to be received. -/
theorem delivers_in_order_refused :
    let calls : List (Instant × Call) := [(⟨0, 0⟩, .subscribe), (⟨1, 0⟩, .receive 0 1),
      (⟨2, 0⟩, .broadcast), (⟨3, 0⟩, .broadcast)]
    let update := ServerMessage.serviceUpdate ∅ ⟨2, 0⟩
    ∃ s, ((start 0 1).run calls).hub.subscribers[0]? = some s ∧ s.member = false ∧
      s.queue = [update.encode] ∧
      (start 0 1).received 0 calls ++ s.queue =
        [ServerMessage.serviceList ∅, update].map ServerMessage.encode := by
  intro calls update
  have hs : ((start 0 1).run calls).hub.subscribers[0]? =
      some { queue := [update.encode], member := false } := rfl
  obtain ⟨hreceived, -⟩ := delivers_in_order 0 1 calls 0 _ hs
  refine ⟨_, hs, rfl, rfl, (hreceived rfl).trans ?_⟩
  rfl

end Switchyard.Feed
