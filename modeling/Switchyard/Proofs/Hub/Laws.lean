import Mathlib.Tactic.Common
import Switchyard.Hub.Broadcast

/-! One law for each operation of the hub: what it makes of the subscriber of one number.
A text concerns the subscribers that it is addressed to and no other, and what becomes of
each of them depends on its own queue alone. -/
namespace Switchyard

namespace Subscriber

/-- The subscriber out of the set. What is queued for it stays. -/
def leave (s : Subscriber) : Subscriber := { s with member := false }

/-- Whether a text finds the receiver, and room in the queue. -/
def ready (capacity : Nat) (s : Subscriber) : Bool := s.receiving && s.queue.length < capacity

/-- The subscriber after a text was addressed to it: a member has it queued, or leaves. -/
def offer (capacity : Nat) (text : String) (s : Subscriber) : Subscriber :=
  if s.member then
    if s.ready capacity then { s with queue := s.queue ++ [text] } else s.leave
  else s

theorem rejection?_eq_none_iff (s : Subscriber) (capacity : Nat) :
    s.rejection? capacity = none ↔ s.ready capacity = true := by
  unfold rejection? ready
  cases s.receiving with
  | false => simp
  | true =>
    by_cases h : capacity ≤ s.queue.length
    · simp [h]
    · simp [h, Nat.lt_of_not_le h]

theorem leave_of_not_member {s : Subscriber} (h : s.member = false) : s.leave = s := by
  cases s
  cases h
  rfl

theorem offer_of_not_member {s : Subscriber} (capacity : Nat) (text : String)
    (h : s.member = false) : s.offer capacity text = s := by
  rw [offer, h]
  rfl

end Subscriber

/-- The answer to a message of a subscriber. -/
def ClientMessage.reply (now : Instant) (services : Keyed Instance) :
    ClientMessage → ServerMessage
  | ping => .pong now
  | getServices => .serviceList services

namespace Hub

open Subscriber (leave offer)

variable (h : Hub) (client : Nat)

/-! ### Membership -/

theorem member?_eq_some_iff {s : Subscriber} :
    h.member? client = some s ↔ h.subscribers[client]? = some s ∧ s.member = true := by
  rw [member?, Option.filter_eq_some_iff]

theorem not_member_of_member?_eq_none {s : Subscriber} (hs : h.subscribers[client]? = some s)
    (hm : h.member? client = none) : s.member = false := by
  rw [member?, hs, Option.filter_some] at hm
  cases hb : s.member with
  | false => rfl
  | true => rw [hb] at hm; cases hm

theorem getElem?_update (c : Nat) (f : Subscriber → Subscriber) :
    (h.update c f).subscribers[client]? =
      if c = client then h.subscribers[client]?.map f else h.subscribers[client]? := by
  rw [update, List.getElem?_modify]
  split
  · rfl
  · exact Option.map_id'

theorem getElem?_subscribe (services : Keyed Instance) :
    (h.subscribe services).state.subscribers[client]? =
      if h.accepting = true ∧ client = h.subscribers.length then
        some { queue := [(ServerMessage.serviceList services).encode] }
      else h.subscribers[client]? := by
  unfold subscribe
  cases ha : h.accepting with
  | false => simp
  | true =>
    simp only [↓reduceIte, true_and]
    split
    · rename_i heq
      rw [heq, List.getElem?_concat_length]
    · rename_i hne
      rcases Nat.lt_or_gt_of_ne hne with hlt | hgt
      · exact List.getElem?_append_left hlt
      · rw [List.getElem?_eq_none (by simp; omega), List.getElem?_eq_none (by omega)]

theorem getElem?_unsubscribe (c : Nat) :
    (h.unsubscribe c).state.subscribers[client]? =
      if c = client then h.subscribers[client]?.map leave else h.subscribers[client]? := by
  unfold unsubscribe
  split
  · exact getElem?_update h client c leave
  · rename_i hm
    split
    · rename_i heq
      subst heq
      cases hs : h.subscribers[c]? with
      | none => rfl
      | some s =>
        rw [Option.map_some,
          Subscriber.leave_of_not_member (not_member_of_member?_eq_none h c hs hm)]
    · rfl

theorem getElem?_close :
    h.close.state.subscribers[client]? = h.subscribers[client]?.map leave :=
  List.getElem?_map

/-! ### Messages -/

theorem push_of_not_member {c : Nat} (hm : h.member? c = none) (text : String) :
    h.push c text = ⟨h, false, []⟩ := by
  simp only [push, hm]

theorem push_of_ready {c : Nat} {s : Subscriber} (hm : h.member? c = some s)
    (hr : s.ready h.capacity = true) (text : String) :
    h.push c text = ⟨h.update c fun s => { s with queue := s.queue ++ [text] }, true, []⟩ := by
  simp only [push, hm, (s.rejection?_eq_none_iff h.capacity).2 hr]

theorem push_of_not_ready {c : Nat} {s : Subscriber} (hm : h.member? c = some s)
    (hr : ¬ s.ready h.capacity = true) (text : String) :
    (h.push c text).state = (h.unsubscribe c).state ∧ (h.push c text).answer = false := by
  cases hw : s.rejection? h.capacity with
  | none => exact absurd ((s.rejection?_eq_none_iff h.capacity).1 hw) hr
  | some why => simp only [push, hm, hw, expel, and_self]

/-- The answer says whether the text was queued. -/
theorem push_answer (c : Nat) (text : String) :
    (h.push c text).answer = (h.member? c).any (·.ready h.capacity) := by
  cases hm : h.member? c with
  | none => rw [push_of_not_member h hm]; rfl
  | some s =>
    rw [Option.any_some]
    by_cases hr : s.ready h.capacity = true
    · rw [push_of_ready h hm hr, hr]
    · rw [(push_of_not_ready h hm hr text).2, Bool.eq_false_iff.2 hr]

theorem getElem?_push (c : Nat) (text : String) :
    (h.push c text).state.subscribers[client]? =
      if c = client then h.subscribers[client]?.map (offer h.capacity text)
      else h.subscribers[client]? := by
  cases hm : h.member? c with
  | none =>
    rw [push_of_not_member h hm]
    split
    · rename_i heq
      subst heq
      cases hs : h.subscribers[c]? with
      | none => rfl
      | some s =>
        rw [Option.map_some,
          Subscriber.offer_of_not_member _ _ (not_member_of_member?_eq_none h c hs hm)]
    · rfl
  | some s =>
    obtain ⟨hs, hmember⟩ := (member?_eq_some_iff h c).1 hm
    by_cases hr : s.ready h.capacity = true
    · rw [push_of_ready h hm hr, getElem?_update]
      split
      · rename_i heq
        subst heq
        rw [hs, Option.map_some, Option.map_some, offer, if_pos hmember, if_pos hr]
      · rfl
    · rw [(push_of_not_ready h hm hr text).1, getElem?_unsubscribe]
      split
      · rename_i heq
        subst heq
        rw [hs, Option.map_some, Option.map_some, offer, if_pos hmember, if_neg hr]
      · rfl

theorem unsubscribe_capacity (c : Nat) : (h.unsubscribe c).state.capacity = h.capacity := by
  unfold unsubscribe
  split <;> rfl

theorem push_capacity (c : Nat) (text : String) :
    (h.push c text).state.capacity = h.capacity := by
  cases hm : h.member? c with
  | none => rw [push_of_not_member h hm]
  | some s =>
    by_cases hr : s.ready h.capacity = true
    · rw [push_of_ready h hm hr]
      rfl
    · rw [(push_of_not_ready h hm hr text).1, unsubscribe_capacity]

theorem pushAll_capacity (text : String) (clients : List Nat) :
    (h.pushAll text clients).state.capacity = h.capacity := by
  induction clients generalizing h with
  | nil => rfl
  | cons c rest ih => exact (ih _).trans (push_capacity h c text)

/-- A text for several subscribers reaches each of them once, whoever else refuses it. -/
theorem getElem?_pushAll (text : String) {clients : List Nat} (hnodup : clients.Nodup) :
    (h.pushAll text clients).state.subscribers[client]? =
      if client ∈ clients then h.subscribers[client]?.map (offer h.capacity text)
      else h.subscribers[client]? := by
  induction clients generalizing h with
  | nil => rfl
  | cons c rest ih =>
    obtain ⟨hc, hrest⟩ := List.nodup_cons.1 hnodup
    show ((h.push c text).state.pushAll text rest).state.subscribers[client]? = _
    rw [ih _ hrest, getElem?_push, push_capacity]
    by_cases heq : c = client
    · subst heq
      rw [if_neg hc, if_pos rfl, if_pos List.mem_cons_self]
    · have hmem : client ∈ c :: rest ↔ client ∈ rest := by
        simp only [List.mem_cons, Ne.symm heq, false_or]
      rw [if_neg heq, if_congr hmem rfl rfl]

theorem mem_members : client ∈ h.members ↔ ∃ s, h.member? client = some s := by
  rw [members, List.mem_filter, Option.isSome_iff_exists, List.mem_range]
  refine and_iff_right_of_imp fun ⟨s, hm⟩ => ?_
  exact (List.getElem?_eq_some_iff.1 ((member?_eq_some_iff h client).1 hm).1).1

theorem nodup_members : h.members.Nodup := List.nodup_range.filter _

theorem getElem?_broadcast (now : Instant) (services : Keyed Instance) :
    (h.broadcast now services).state.subscribers[client]? =
      h.subscribers[client]?.map
        (offer h.capacity (ServerMessage.serviceUpdate services now).encode) := by
  refine (getElem?_pushAll h client _ (nodup_members h)).trans ?_
  split
  · rfl
  · rename_i hnot
    have hm : h.member? client = none :=
      Option.eq_none_iff_forall_ne_some.2 fun s hm => hnot ((mem_members h client).2 ⟨s, hm⟩)
    cases hs : h.subscribers[client]? with
    | none => rfl
    | some s =>
      rw [Option.map_some,
        Subscriber.offer_of_not_member _ _ (not_member_of_member?_eq_none h client hs hm)]

/-- What is handled is a message with an answer, or nothing. -/
theorem handle_state (now : Instant) (services : Keyed Instance) (c : Nat) (text : String) :
    (h.handle now services c text).state =
      match ClientMessage.decoder.read text with
      | .error _ => h
      | .ok m => (h.send c (m.reply now services)).state := by
  unfold handle
  cases ClientMessage.decoder.read text with
  | error e => rfl
  | ok m => cases m <;> rfl

/-! ### Receiving -/

theorem receive_of_present {c : Nat} {s : Subscriber} (hs : h.subscribers[c]? = some s)
    (limit : Nat) :
    h.receive c limit =
      (h.update c fun s => { s with queue := s.queue.drop limit }, s.queue.take limit) := by
  simp only [receive, hs]

theorem getElem?_receive (c limit : Nat) :
    (h.receive c limit).1.subscribers[client]? =
      if c = client then
        h.subscribers[client]?.map fun s => { s with queue := s.queue.drop limit }
      else h.subscribers[client]? := by
  cases hs : h.subscribers[c]? with
  | none =>
    simp only [receive, hs]
    split
    · rename_i heq
      rw [← heq, hs]
      rfl
    · rfl
  | some s => rw [receive_of_present h hs, getElem?_update]

theorem receive_capacity (c limit : Nat) : (h.receive c limit).1.capacity = h.capacity := by
  unfold receive
  split <;> rfl

theorem getElem?_hangUp (c : Nat) :
    (h.hangUp c).subscribers[client]? =
      if c = client then
        h.subscribers[client]?.map fun s => { s with receiving := false, queue := [] }
      else h.subscribers[client]? :=
  getElem?_update h client c _

end Hub

end Switchyard
