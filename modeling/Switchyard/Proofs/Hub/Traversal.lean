import Switchyard.Proofs.Hub.Membership

/-! The broadcasts of the hub. A broadcast goes through the subscribers one by one, and takes out
those that cannot be served on its way. What becomes of each of them is decided by its own queue
and its own receiver, so neither the order nor the company makes a difference. -/
namespace Switchyard.Hub

open Subscriber (leave offer)

variable {h h' : Hub} {c client : Nat} {clients rest : List Nat}

/-! ### One text -/

/-- Whether a text for a subscriber would be accepted. -/
def serves (h : Hub) (client : Nat) : Bool := (h.member? client).any (·.ready h.capacity)

/-- Whether a text for a subscriber would end its membership. -/
def refuses (h : Hub) (client : Nat) : Bool := (h.member? client).any (!·.ready h.capacity)

theorem serves_eq (h : Hub) (client : Nat) :
    h.serves client = (h.subscribers[client]?).any fun s => s.member && s.ready h.capacity := by
  rw [serves, member?]
  cases h.subscribers[client]? with
  | none => rfl
  | some s => cases hm : s.member <;> simp [hm]

/-- A text concerns the set only if it is refused, and then the gauge follows. -/
theorem push_frame (h : Hub) (c : Nat) (text : String) :
    (h.push c text).state.accepting = h.accepting ∧
      (h.push c text).state.gauge = if h.refuses c then h.gauge.lower else h.gauge := by
  cases hm : h.member? c with
  | none => simp [push_of_not_member h hm, refuses, hm]
  | some s =>
    by_cases hr : s.ready h.capacity = true
    · simp [push_of_ready h hm hr, refuses, hm, hr, update]
    · rw [(push_of_not_ready h hm hr text).1]
      simp [unsubscribe, refuses, hm, hr, update]

theorem member?_push_of_ne (h : Hub) (text : String) (hne : c ≠ client) :
    (h.push c text).state.member? client = h.member? client := by
  rw [member?, getElem?_push, if_neg hne, member?]

/-! ### Several subscribers -/

/-- A hub is as another one for the subscribers that a text is still to be queued for. -/
structure Agrees (h h' : Hub) (clients : List Nat) : Prop where
  capacity : h'.capacity = h.capacity
  member? : ∀ c ∈ clients, h'.member? c = h.member? c

namespace Agrees

theorem refl (h : Hub) (clients : List Nat) : Agrees h h clients := ⟨rfl, fun _ _ => rfl⟩

theorem serves_eq (ha : Agrees h h' clients) (hc : c ∈ clients) : h'.serves c = h.serves c := by
  simp only [Hub.serves, ha.member? c hc, ha.capacity]

theorem refuses_eq (ha : Agrees h h' clients) (hc : c ∈ clients) : h'.refuses c = h.refuses c := by
  simp only [Hub.refuses, ha.member? c hc, ha.capacity]

theorem notices_eq (ha : Agrees h h' clients) (hc : c ∈ clients) (text : String) :
    (h'.push c text).notices = (h.push c text).notices := by
  have hm := ha.member? c hc
  cases hc : h.member? c with
  | none => rw [push_of_not_member h hc, push_of_not_member h' (hm.trans hc)]
  | some s =>
    simp only [push, hm, hc, ha.capacity]
    cases s.rejection? h.capacity with
    | none => rfl
    | some why => simp only [expel, unsubscribe, hm, hc]

/-- Whoever has had the text concerns none of the others. -/
theorem tail (ha : Agrees h h' (c :: rest)) (hc : c ∉ rest) (text : String) :
    Agrees h (h'.push c text).state rest where
  capacity := (push_capacity h' c text).trans ha.capacity
  member? d hd := by
    have hne : c ≠ d := fun heq => hc (heq ▸ hd)
    rw [member?_push_of_ne h' text hne]
    exact ha.member? d (List.mem_cons_of_mem c hd)

end Agrees

/-- Each of the subscribers is counted as if it were the only one. -/
theorem pushAll_answer (ha : Agrees h h' clients) (hnodup : clients.Nodup) (text : String) :
    (h'.pushAll text clients).answer = clients.countP h.serves := by
  induction clients generalizing h' with
  | nil => rfl
  | cons c rest ih =>
    obtain ⟨hc, hrest⟩ := List.nodup_cons.1 hnodup
    have hfirst : (h'.push c text).answer = h.serves c :=
      (push_answer h' c text).trans (ha.serves_eq List.mem_cons_self)
    rw [pushAll, ih (ha.tail hc text) hrest, hfirst, List.countP_cons, Nat.add_comm]

/-- And so are the notices that are given. -/
theorem pushAll_notices (ha : Agrees h h' clients) (hnodup : clients.Nodup) (text : String) :
    (h'.pushAll text clients).notices = clients.flatMap fun c => (h.push c text).notices := by
  induction clients generalizing h' with
  | nil => rfl
  | cons c rest ih =>
    obtain ⟨hc, hrest⟩ := List.nodup_cons.1 hnodup
    rw [pushAll, ih (ha.tail hc text) hrest, ha.notices_eq List.mem_cons_self, List.flatMap_cons]

/-- The gauge is lowered once for each that has to leave. -/
theorem pushAll_frame (ha : Agrees h h' clients) (hnodup : clients.Nodup) (text : String) :
    (h'.pushAll text clients).state.accepting = h'.accepting ∧
      (h'.pushAll text clients).state.gauge = lowerBy h'.gauge (clients.countP h.refuses) := by
  induction clients generalizing h' with
  | nil => exact ⟨rfl, rfl⟩
  | cons c rest ih =>
    obtain ⟨hc, hrest⟩ := List.nodup_cons.1 hnodup
    obtain ⟨haccepting, hgauge⟩ := push_frame h' c text
    obtain ⟨haccepting', hgauge'⟩ := ih (ha.tail hc text) hrest
    refine ⟨haccepting'.trans haccepting, ?_⟩
    rw [pushAll, hgauge', hgauge, ha.refuses_eq List.mem_cons_self, List.countP_cons]
    split <;> rfl

/-! ### All of them -/

/-- A text for all subscribers of the set, in any order. -/
theorem pushAll_of_members {order : List Nat} (horder : order.Perm h.members) (text : String) :
    h.pushAll text order =
      ⟨{ h with
          subscribers := h.subscribers.map (offer h.capacity text)
          gauge := lowerBy h.gauge (h.members.countP h.refuses) },
        h.members.countP h.serves, order.flatMap fun c => (h.push c text).notices⟩ := by
  have hnodup : order.Nodup := horder.nodup_iff.2 (nodup_members h)
  have hself := Agrees.refl h order
  have hanswer := pushAll_answer hself hnodup text
  have hnotices := pushAll_notices hself hnodup text
  obtain ⟨haccepting, hgauge⟩ := pushAll_frame hself hnodup text
  have hcapacity := pushAll_capacity h text order
  have hsubscribers : (h.pushAll text order).state.subscribers =
      h.subscribers.map (offer h.capacity text) := by
    apply List.ext_getElem?
    intro client
    rw [getElem?_pushAll h client text hnodup, List.getElem?_map]
    split
    · rfl
    · rename_i hnot
      -- whoever is not in the set stays as it is
      have hm : h.member? client = none := by
        rw [horder.mem_iff, mem_members] at hnot
        exact Option.eq_none_iff_forall_ne_some.2 fun s hs => hnot ⟨s, hs⟩
      cases hs : h.subscribers[client]? with
      | none => rfl
      | some s =>
        rw [Option.map_some, Subscriber.offer_of_not_member _ _
          (not_member_of_member?_eq_none h client hs hm)]
  rw [horder.countP_eq] at hanswer hgauge
  generalize h.pushAll text order = o at *
  obtain ⟨⟨capacity, accepting, subscribers, gauge⟩, answer, notices⟩ := o
  simp_all

theorem broadcast_eq (h : Hub) (now : Instant) (services : Keyed Instance) :
    let text := (ServerMessage.serviceUpdate services now).encode
    h.broadcast now services =
      ⟨{ h with
          subscribers := h.subscribers.map (offer h.capacity text)
          gauge := lowerBy h.gauge (h.members.countP h.refuses) },
        h.members.countP h.serves, (h.members.flatMap fun c => (h.push c text).notices) ++
          [.updateSent (h.members.countP h.serves)]⟩ := by
  simp only [broadcast, pushAll_of_members (List.Perm.refl h.members)]

theorem countP_range_getElem? {α : Type} (p : α → Bool) (l : List α) :
    (List.range l.length).countP (fun i => (l[i]?).any p) = l.countP p := by
  induction l with
  | nil => rfl
  | cons a rest ih =>
    rw [List.length_cons, List.range_succ_eq_map, List.countP_cons, List.countP_map,
      List.countP_cons, ← ih]
    rfl

theorem offer_member (capacity : Nat) (text : String) (s : Subscriber) :
    (offer capacity text s).member = (s.member && s.ready capacity) := by
  unfold offer
  cases hm : s.member with
  | false => simp [hm]
  | true =>
    cases s.ready capacity with
    | false => rfl
    | true => simp

/-- As many accept a broadcast as are left in the set. -/
theorem broadcast_answer (h : Hub) (now : Instant) (services : Keyed Instance) :
    (h.broadcast now services).answer = (h.broadcast now services).state.memberCount := by
  have hleft : (h.broadcast now services).state.memberCount =
      h.subscribers.countP fun s => s.member && s.ready h.capacity := by
    rw [broadcast_eq, memberCount, List.countP_map]
    simp only [Function.comp_def, offer_member]
  have hserved : h.members.countP h.serves =
      (List.range h.subscribers.length).countP h.serves := by
    rw [members, List.countP_filter]
    refine List.countP_congr fun client _ => ?_
    simp only [serves, Bool.and_eq_true, and_iff_left_iff_imp]
    intro hs
    obtain ⟨s, hm, -⟩ := (Option.any_eq_true _ _).1 hs
    rw [hm]
    rfl
  calc (h.broadcast now services).answer
      = h.members.countP h.serves := by rw [broadcast_eq]
    _ = (List.range h.subscribers.length).countP h.serves := hserved
    _ = h.subscribers.countP fun s => s.member && s.ready h.capacity := by
      rw [funext (serves_eq h), countP_range_getElem?]
    _ = (h.broadcast now services).state.memberCount := hleft.symm

/-- What a broadcast makes of a member: it has the text queued and stays just when its receiver is
there and its queue has room, and leaves with its queue as it was otherwise. -/
theorem offer_of_member (capacity : Nat) (text : String) {s : Subscriber} (hm : s.member = true) :
    let s' := offer capacity text s
    s'.receiving = s.receiving ∧
      (s'.member = true ∧ s'.queue = s.queue ++ [text] ↔
        s.receiving = true ∧ s.queue.length < capacity) ∧
      (¬ (s.receiving = true ∧ s.queue.length < capacity) →
        s'.member = false ∧ s'.queue = s.queue) := by
  intro s'
  have hready : s.ready capacity = true ↔ s.receiving = true ∧ s.queue.length < capacity := by
    simp [Subscriber.ready]
  rw [← hready]
  by_cases hr : s.ready capacity = true
  · have hs' : s' = { s with queue := s.queue ++ [text] } := by
      simp only [s', offer, if_pos hm, if_pos hr]
    rw [hs']
    exact ⟨rfl, ⟨fun _ => hr, fun _ => ⟨hm, rfl⟩⟩, fun hnot => absurd hr hnot⟩
  · have hs' : s' = s.leave := by simp only [s', offer, if_pos hm, if_neg hr]
    rw [hs']
    exact ⟨rfl, ⟨fun h => absurd h.1 Bool.false_ne_true, fun h => absurd h hr⟩, fun _ => ⟨rfl, rfl⟩⟩

/-- A broadcast has one text for all. In whatever order it goes through the set, it leaves the same
hub and serves as many; a member has the text queued and stays just when its receiver is there and
its queue has room, and leaves with its queue as it was otherwise; nobody else is concerned; and as
many are served as are left in the set. What becomes of a subscriber is the same in every hub of
that room which has one like it, whoever else is there. -/
theorem broadcasts_to_each_alone (h : Hub) (now : Instant) (services : Keyed Instance) :
    let text := (ServerMessage.serviceUpdate services now).encode
    let o := h.broadcast now services
    (∀ order : List Nat, order.Nodup → (∀ client, client ∈ order ↔ (h.member? client).isSome) →
      let o' := h.pushAll text order
      o'.state = o.state ∧ o'.answer = o.answer ∧
        (o'.notices ++ [Notice.updateSent o'.answer]).Perm o.notices) ∧
    (∀ (client : Nat) (s : Subscriber), h.member? client = some s →
      ∃ s', o.state.subscribers[client]? = some s' ∧ s'.receiving = s.receiving ∧
        (s'.member = true ∧ s'.queue = s.queue ++ [text] ↔
          s.receiving = true ∧ s.queue.length < h.capacity) ∧
        (¬ (s.receiving = true ∧ s.queue.length < h.capacity) →
          s'.member = false ∧ s'.queue = s.queue)) ∧
    (∀ client, h.member? client = none →
      o.state.subscribers[client]? = h.subscribers[client]?) ∧
    (o.state.capacity = h.capacity ∧ o.state.accepting = h.accepting) ∧
    o.answer = o.state.memberCount ∧
    ∀ (h' : Hub) (client client' : Nat), h'.capacity = h.capacity →
      h'.subscribers[client']? = h.subscribers[client]? →
      (h'.broadcast now services).state.subscribers[client']? =
        o.state.subscribers[client]? := by
  intro text o
  have ho : o = _ := broadcast_eq h now services
  have hget (client : Nat) : o.state.subscribers[client]? =
      h.subscribers[client]?.map (offer h.capacity text) := getElem?_broadcast h client now services
  refine ⟨fun order hnodup hall => ?_, fun client s hm => ?_, fun client hm => ?_, ?_,
    broadcast_answer h now services, fun h' client client' hcapacity hsame => ?_⟩
  · have horder : order.Perm h.members := by
      refine (List.perm_ext_iff_of_nodup hnodup (nodup_members h)).2 fun client => ?_
      rw [hall, mem_members, Option.isSome_iff_exists]
    intro o'
    have ho' : o' = _ := pushAll_of_members horder text
    rw [ho, ho']
    exact ⟨rfl, rfl, (horder.flatMap_right _).append_right _⟩
  · obtain ⟨hs, hmember⟩ := (member?_eq_some_iff h client).1 hm
    refine ⟨offer h.capacity text s, ?_, offer_of_member h.capacity text hmember⟩
    rw [hget, hs, Option.map_some]
  · rw [hget]
    cases hs : h.subscribers[client]? with
    | none => rfl
    | some s =>
      rw [Option.map_some, Subscriber.offer_of_not_member _ _
        (not_member_of_member?_eq_none h client hs hm)]
  · rw [ho]
    exact ⟨rfl, rfl⟩
  · rw [hget, getElem?_broadcast, hsame, hcapacity]

/-- One of three subscribers has room. Backwards through the set it is still the one that is
served, and so it is where it is alone. -/
theorem broadcasts_to_each_alone_backwards :
    let slow : Subscriber := { queue := ["first"] }
    let gone : Subscriber := { receiving := false }
    let h : Hub := { capacity := 1, subscribers := [slow, {}, gone], gauge := ⟨3⟩ }
    let alone : Hub := { capacity := 1, subscribers := [{}], gauge := ⟨1⟩ }
    let text := (ServerMessage.serviceUpdate ∅ ⟨0, 0⟩).encode
    (h.pushAll text [2, 1, 0]).state = (h.broadcast ⟨0, 0⟩ ∅).state ∧
      (h.broadcast ⟨0, 0⟩ ∅).answer = 1 ∧
      (∃ s, (h.broadcast ⟨0, 0⟩ ∅).state.subscribers[1]? = some s ∧ s.member = true ∧
        s.queue = [text]) ∧
      (alone.broadcast ⟨0, 0⟩ ∅).state.subscribers[0]? =
        (h.broadcast ⟨0, 0⟩ ∅).state.subscribers[1]? := by
  intro slow gone h alone text
  obtain ⟨horder, hmember, -, -, hcount, hlike⟩ := broadcasts_to_each_alone h ⟨0, 0⟩ ∅
  obtain ⟨s, hs, -, hserved, -⟩ := hmember 1 {} rfl
  obtain ⟨hm, hq⟩ := hserved.2 ⟨rfl, by decide⟩
  have hall : ∀ client, client ∈ [2, 1, 0] ↔ (h.member? client).isSome := by
    intro client
    match client with
    | 0 | 1 | 2 => simp [h, slow, gone, member?]
    | n + 3 => simp [h, member?]
  refine ⟨(horder [2, 1, 0] (by decide) hall).1, ?_, ⟨s, hs, hm, hq⟩, hlike alone 1 0 rfl rfl⟩
  rw [hcount]
  rfl

end Switchyard.Hub
