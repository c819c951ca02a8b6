import Switchyard.Fault
import Switchyard.Hub.Message
import Switchyard.Metrics.Gauge
import Switchyard.Notice

/-! The hub sends every subscriber the directory. Each subscriber has a queue of its own
with bounded room; the first message that finds no room, or nobody to receive it, ends
the membership, and what is queued by then can still be received. Subscribers are
numbered in the order of their arrival. -/
namespace Switchyard

/-- One subscriber: what is queued for it, and who still holds the two ends of the queue. -/
structure Subscriber where
  queue : List String := []
  member : Bool := true
  receiving : Bool := true
deriving DecidableEq, Repr, Inhabited

namespace Subscriber

/-- What keeps a message out of the queue, if anything does. -/
def rejection? (s : Subscriber) (capacity : Nat) : Option Rejection :=
  if !s.receiving then some .gone
  else if capacity ≤ s.queue.length then some .full
  else none

/-- Whether the receiver will get nothing more once its queue is empty. -/
def isEnded (s : Subscriber) : Bool := !s.member && s.queue.isEmpty

end Subscriber

structure Hub where
  capacity : Nat
  accepting : Bool := true
  subscribers : List Subscriber := []
  gauge : Gauge := {}
deriving Inhabited

namespace Hub

/-- A hub whose queues have room for `capacity` messages, and for one at least. -/
def new (capacity : Nat) : Hub := { capacity := max capacity 1 }

def memberCount (h : Hub) : Nat := h.subscribers.countP (·.member)

/-- The subscriber of that number, if it is in the set. -/
def member? (h : Hub) (client : Nat) : Option Subscriber :=
  h.subscribers[client]?.filter (·.member)

def update (h : Hub) (client : Nat) (f : Subscriber → Subscriber) : Hub :=
  { h with subscribers := h.subscribers.modify client f }

/-! ### Membership -/

/-- Adds a subscriber, its queue starting with the directory; answers with its number. -/
def subscribe (h : Hub) (services : Keyed Instance) : Outcome Hub (Except Fault Nat) :=
  if h.accepting then
    let client := h.subscribers.length
    let s : Subscriber := { queue := [(ServerMessage.serviceList services).encode] }
    ⟨{ h with subscribers := h.subscribers ++ [s], gauge := h.gauge.raise }, .ok client,
      [.subscribed client]⟩
  else ⟨h, .error .shuttingDown, []⟩

/-- Takes a subscriber out of the set; answers whether it was in it. -/
def unsubscribe (h : Hub) (client : Nat) : Outcome Hub Bool :=
  match h.member? client with
  | some _ =>
    let left := h.update client fun s => { s with member := false }
    ⟨{ left with gauge := h.gauge.lower }, true, [.unsubscribed client]⟩
  | none => ⟨h, false, []⟩

/-- Takes out a subscriber that a message could not be queued for. -/
def expel (h : Hub) (client : Nat) (why : Rejection) : Outcome Hub Unit :=
  let o := h.unsubscribe client
  ⟨o.state, (), .sendFailed client why :: o.notices⟩

/-! ### Messages -/

/-- Queues a text for a subscriber; answers whether it was accepted. -/
def push (h : Hub) (client : Nat) (text : String) : Outcome Hub Bool :=
  match h.member? client with
  | none => ⟨h, false, []⟩
  | some s =>
    match s.rejection? h.capacity with
    | some why => let o := h.expel client why; ⟨o.state, false, o.notices⟩
    | none => ⟨h.update client fun s => { s with queue := s.queue ++ [text] }, true, []⟩

def send (h : Hub) (client : Nat) (m : ServerMessage) : Outcome Hub Bool := h.push client m.encode

/-- Answers a subscriber's message; a text that is none is ignored. -/
def handle (h : Hub) (now : Instant) (services : Keyed Instance) (client : Nat) (text : String) :
    Outcome Hub Unit :=
  match ClientMessage.decoder.read text with
  | .error _ => ⟨h, (), [.messageIgnored client]⟩
  | .ok .ping => let o := h.send client (.pong now); ⟨o.state, (), o.notices⟩
  | .ok .getServices => let o := h.send client (.serviceList services); ⟨o.state, (), o.notices⟩

/-- Queues a text for each of the clients; answers how many accepted it. -/
def pushAll (h : Hub) (text : String) : List Nat → Outcome Hub Nat
  | [] => ⟨h, 0, []⟩
  | client :: rest =>
    let o := h.push client text
    let more := o.state.pushAll text rest
    ⟨more.state, (if o.answer then 1 else 0) + more.answer, o.notices ++ more.notices⟩

/-- The numbers of the subscribers in the set. -/
def members (h : Hub) : List Nat :=
  (List.range h.subscribers.length).filter fun client => (h.member? client).isSome

/-- Sends the directory to every subscriber; answers how many accepted it. -/
def broadcast (h : Hub) (now : Instant) (services : Keyed Instance) : Outcome Hub Nat :=
  let o := h.pushAll (ServerMessage.serviceUpdate services now).encode h.members
  ⟨o.state, o.answer, o.notices ++ [.updateSent o.answer]⟩

/-! ### Receiving -/

/-- Takes the messages out of a subscriber's queue, at most `limit` of them. -/
def receive (h : Hub) (client : Nat) (limit : Nat) : Hub × List String :=
  match h.subscribers[client]? with
  | none => (h, [])
  | some s => (h.update client fun s => { s with queue := s.queue.drop limit }, s.queue.take limit)

/-- The receiver goes away. -/
def hangUp (h : Hub) (client : Nat) : Hub :=
  h.update client fun s => { s with receiving := false, queue := [] }

/-! ### The end -/

def lowerBy (g : Gauge) : Nat → Gauge
  | 0 => g
  | n + 1 => lowerBy g.lower n

/-- Lets all subscribers go and takes no more. -/
def close (h : Hub) : Outcome Hub Unit :=
  let closed := h.memberCount
  ⟨{ h with
      accepting := false
      subscribers := h.subscribers.map fun s => { s with member := false }
      gauge := lowerBy h.gauge closed }, (), [.hubClosed closed]⟩

end Hub

end Switchyard
