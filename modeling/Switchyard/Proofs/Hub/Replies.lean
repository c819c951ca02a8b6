import Switchyard.Gateway.State
import Switchyard.Proofs.Hub.Membership
import Switchyard.Proofs.Json.Decoding

/-! The frames of the clients. A frame that stands for a message is answered to its sender; one
that stands for none is passed over. Nobody else notices either of them. -/
namespace Switchyard

namespace ClientMessage

open Json.Decoder (bare bare_eq_ok)

/-- The values that stand for a message: an object that has its name for the only field `type`,
whatever else it holds, or an array of the name and nothing else. -/
inductive Written (m : ClientMessage) : Json → Prop where
  | object (before after : List (String × Json)) (others : ∀ f ∈ before ++ after, f.1 ≠ "type") :
    m.Written (.obj (before ++ ("type", .str m.kind) :: after))
  | array : m.Written (.arr [.str m.kind])

/-- That a text stands for a message. -/
def Says (m : ClientMessage) (text : String) : Prop :=
  ∃ j, Json.parse? text = some j ∧ m.Written j

theorem decoder_eq_ok_iff {m : ClientMessage} {j : Json} :
    decoder j = .ok m ↔ j.isWhole Json.maxDepth = true ∧ m.Written j := by
  rw [decoder, Json.Decoder.tagged_eq_ok_iff]
  refine and_congr_right fun _ => ?_
  constructor
  · rintro ⟨tag, content, d, htagged, hd, hm⟩
    have hnamed : tag = m.kind ∧ d = bare m := by
      split at hd
      · cases hd
        cases bare_eq_ok hm
        exact ⟨rfl, rfl⟩
      · cases hd
        cases bare_eq_ok hm
        exact ⟨rfl, rfl⟩
      · cases hd
    obtain ⟨rfl, rfl⟩ := hnamed
    cases htagged with
    | object before after others => exact .object before after others
    | array rest =>
      cases rest with
      | nil => exact .array
      | cons j rest => cases hm
  · intro hm
    obtain ⟨content, htagged, hcontent⟩ :
        ∃ content, Json.Decoder.Tagged m.kind j content ∧ bare m content = .ok m := by
      cases hm with
      | object before after others => exact ⟨_, .object before after others, rfl⟩
      | array => exact ⟨_, .array [], rfl⟩
    refine ⟨m.kind, content, bare m, htagged, ?_, hcontent⟩
    cases m <;> rfl

/-- What is read as a message is what stands for it. -/
theorem read_eq_ok_iff {m : ClientMessage} {text : String} :
    decoder.read text = .ok m ↔ m.Says text := by
  rw [Json.Decoder.read_eq_ok_iff, Says]
  refine exists_congr fun j => ?_
  rw [decoder_eq_ok_iff, Json.parse?_eq_some_iff, and_assoc]

end ClientMessage

namespace Hub

open Subscriber (leave)

variable (h : Hub) (now : Instant) (services : Keyed Instance) (client : Nat) {text : String}

/-! ### Frames -/

/-- A frame that stands for a message has its reply queued for the sender. -/
theorem handle_of_says {m : ClientMessage} (hm : m.Says text) :
    let o := h.push client (m.reply now services).encode
    h.handle now services client text = ⟨o.state, (), o.notices⟩ := by
  have hread := ClientMessage.read_eq_ok_iff.2 hm
  cases m <;> simp only [handle, hread, send, ClientMessage.reply]

/-- A frame that stands for none is passed over. -/
theorem handle_of_unreadable (hnone : ∀ m : ClientMessage, ¬ m.Says text) :
    h.handle now services client text = ⟨h, (), [.messageIgnored client]⟩ := by
  cases hread : ClientMessage.decoder.read text with
  | error e => simp only [handle, hread]
  | ok m => exact absurd (ClientMessage.read_eq_ok_iff.1 hread) (hnone m)

/-- A member that a text cannot be queued for leaves, and why is told. -/
theorem push_of_refused {s : Subscriber} (hs : h.member? client = some s)
    (hr : ¬ s.ready h.capacity = true) (text : String) :
    ∃ why, s.rejection? h.capacity = some why ∧
      h.push client text = ⟨{ h.update client leave with gauge := h.gauge.lower }, false,
        [.sendFailed client why, .unsubscribed client]⟩ := by
  cases hw : s.rejection? h.capacity with
  | none => exact absurd ((s.rejection?_eq_none_iff h.capacity).1 hw) hr
  | some why =>
    refine ⟨why, rfl, ?_⟩
    simp only [push, hs, hw, expel, unsubscribe]
    rfl

/-- Nobody else notices a frame. -/
theorem handle_frame (text : String) :
    let h' := (h.handle now services client text).state
    h'.accepting = h.accepting ∧ h'.capacity = h.capacity ∧
      ∀ other, other ≠ client → h'.subscribers[other]? = h.subscribers[other]? := by
  intro h'
  refine ⟨(h.releases_handle now services client text).accepting, ?_⟩
  have hh' : h' = _ := h.handle_state now services client text
  rw [hh']
  split
  · exact ⟨rfl, fun _ _ => rfl⟩
  · refine ⟨h.push_capacity client _, fun other hne => ?_⟩
    rw [send, getElem?_push, if_neg (Ne.symm hne)]

end Hub

namespace Gateway

open Subscriber (leave)

/-- A frame of a client causes one reply, to that client, if it stands for a message and the
client is a member whose receiver is there and whose queue has room: a pong for a ping, and what
is registered now for a request of the services. A member that the reply cannot be queued for
leaves and lowers the gauge, and that is all. Otherwise the frame is passed over: one that stands
for no message is noted in the log, and one from nobody not even there. In any case everything but
the hub and the log stays as it is, and in the hub everything but the sender and the gauge. -/
theorem frame_causes_one_reply_at_most (g : Gateway) (client : Nat) (text : String) :
    let g' := g.handle client text
    (∀ m : ClientMessage, ClientMessage.decoder.read text = .ok m ↔ m.Says text) ∧
    (∀ (m : ClientMessage) (s : Subscriber), m.Says text → g.hub.member? client = some s →
      (s.receiving = true ∧ s.queue.length < g.hub.capacity →
        g' = { g with hub := g.hub.update client fun s =>
          { s with queue := s.queue ++ [(m.reply g.now g.registry.list).encode] } }) ∧
      (¬ (s.receiving = true ∧ s.queue.length < g.hub.capacity) →
        ∃ why, s.rejection? g.hub.capacity = some why ∧
          g' = { g with
            hub := { g.hub.update client leave with gauge := g.hub.gauge.lower }
            log := .unsubscribed client :: .sendFailed client why :: g.log })) ∧
    ((∀ m : ClientMessage, ¬ m.Says text) →
      g' = { g with log := .messageIgnored client :: g.log }) ∧
    ((∃ m : ClientMessage, m.Says text) → g.hub.member? client = none → g' = g) ∧
    g' = { g with hub := g'.hub, log := g'.log } ∧
    g'.hub.accepting = g.hub.accepting ∧ g'.hub.capacity = g.hub.capacity ∧
    ∀ other, other ≠ client → g'.hub.subscribers[other]? = g.hub.subscribers[other]? := by
  intro g'
  have hg' : g' = (g.withHub fun h => h.handle g.now g.registry.list client text).1 := rfl
  refine ⟨fun _ => ClientMessage.read_eq_ok_iff, fun m s hm hs => ?_, fun hnone => ?_,
    fun ⟨m, hm⟩ hs => ?_, rfl, g.hub.handle_frame g.now g.registry.list client text⟩
  · have hready : s.receiving = true ∧ s.queue.length < g.hub.capacity ↔
        s.ready g.hub.capacity = true := by
      simp [Subscriber.ready]
    rw [hready, hg', withHub, g.hub.handle_of_says g.now g.registry.list client hm]
    constructor
    · intro hr
      rw [g.hub.push_of_ready hs hr]
      rfl
    · intro hr
      obtain ⟨why, hwhy, hpush⟩ := g.hub.push_of_refused client hs hr _
      rw [hpush]
      exact ⟨why, hwhy, rfl⟩
  · rw [hg', withHub, g.hub.handle_of_unreadable g.now g.registry.list client hnone]
    rfl
  · rw [hg', withHub, g.hub.handle_of_says g.now g.registry.list client hm,
      g.hub.push_of_not_member hs]
    rfl

/-- A request of the services with more in it than it needs: it is answered if there is room,
and takes its sender out of the set if there is none. -/
theorem frame_causes_one_reply_at_most_full :
    let text := "\x7b\"extra\": [true], \"type\": \"get_services\"\x7d"
    let slow : Subscriber := { queue := ["first"] }
    let g : Gateway := { Gateway.new {} 0 with
      hub := { capacity := 1, subscribers := [slow, {}], gauge := ⟨2⟩ } }
    (g.handle 1 text).hub.subscribers =
        [slow, { queue := [(ServerMessage.serviceList ∅).encode] }] ∧
      (g.handle 0 text).hub.subscribers = [slow.leave, {}] ∧ (g.handle 0 text).hub.gauge.count = 1 ∧
      g.handle 2 text = g ∧ (g.handle 1 "ping").hub.subscribers = g.hub.subscribers := by
  have hjson : Json.readChars "\x7b\"extra\": [true], \"type\": \"get_services\"\x7d".toList =
      (.obj [("extra", .arr [.bool true]), ("type", .str "get_services")], true) := rfl
  intro text slow g
  have hsays : ClientMessage.getServices.Says text :=
    ⟨_, Json.parse?_eq_some_iff.2 ⟨hjson, by decide⟩,
      .object [("extra", .arr [.bool true])] [] (by simp)⟩
  have hnone (m : ClientMessage) : ¬ m.Says "ping" := fun h => by
    have hbad : ClientMessage.decoder.read "ping" = .error .malformed := by rfl
    cases hbad.symm.trans (ClientMessage.read_eq_ok_iff.2 h)
  obtain ⟨-, hserved, -⟩ := frame_causes_one_reply_at_most g 1 text
  obtain ⟨-, hrefused, -⟩ := frame_causes_one_reply_at_most g 0 text
  obtain ⟨-, -, -, hnobody, -⟩ := frame_causes_one_reply_at_most g 2 text
  obtain ⟨-, -, hignored, -⟩ := frame_causes_one_reply_at_most g 1 "ping"
  obtain ⟨why, -, hleft⟩ := (hrefused .getServices slow hsays rfl).2 (by decide)
  refine ⟨?_, ?_, ?_, hnobody ⟨_, hsays⟩ rfl, ?_⟩
  · rw [(hserved .getServices {} hsays rfl).1 (by decide)]
    rfl
  · rw [hleft]
    rfl
  · rw [hleft]
    rfl
  · rw [hignored hnone]

end Gateway

end Switchyard
