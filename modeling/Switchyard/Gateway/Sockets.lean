import Switchyard.Gateway.State

/-! Sockets. What the hub queues for a socket's subscriber goes straight on to the
client; when the hub lets the subscriber go the socket is closed. -/
namespace Switchyard.Gateway

/-- The frames that are ready for a subscriber, and whether they are the last. -/
def ready (h : Hub) (client : Nat) : List Frame × Bool :=
  match h.subscribers[client]? with
  | some s =>
    (s.queue.map Frame.text ++ (if s.member then [] else [.close]), !s.member)
  | none => ([], false)

/-- Passes on what is ready for each socket. -/
def flushAll (h : Hub) : List Socket → Hub × List Socket
  | [] => (h, [])
  | s :: rest =>
    match s with
    | { subscriber := some client, inbox, isOpen := true } =>
      let (frames, last) := ready h client
      let h := h.update client fun u => { u with queue := [] }
      let (h, more) := flushAll h rest
      (h, { subscriber := some client, inbox := inbox ++ frames, isOpen := !last } :: more)
    | _ =>
      let (h, more) := flushAll h rest
      (h, s :: more)

def flush (g : Gateway) : Gateway :=
  let (hub, sockets) := flushAll g.hub g.sockets
  { g with hub, sockets }

/-- Opens a socket; answers with its number. A hub that has closed meanwhile refuses it. -/
def openSocket (g : Gateway) : Gateway × Nat :=
  let (g, answer) := g.subscribe
  match answer with
  | .ok client =>
    ({ g with sockets := g.sockets ++ [{ subscriber := some client }] }, g.sockets.length)
  | .error f =>
    let refused : Socket := { subscriber := none, isOpen := false }
    ({ g with sockets := g.sockets ++ [refused] }.say [.subscriptionRefused f.message],
      g.sockets.length)

def updateSocket (g : Gateway) (n : Nat) (f : Socket → Socket) : Gateway :=
  { g with sockets := g.sockets.modify n f }

/-- The subscriber of an open socket. -/
def subscriber? (g : Gateway) (n : Nat) : Option Nat := do
  let s ← g.sockets[n]?
  if s.isOpen then s.subscriber else none

/-- A text comes in from the client. -/
def textFrame (g : Gateway) (n : Nat) (text : String) : Gateway :=
  match g.subscriber? n with
  | some client => g.handle client text
  | none => g

def pingFrame (g : Gateway) (n : Nat) (payload : Bytes) : Gateway :=
  match g.subscriber? n with
  | some _ => g.updateSocket n fun s => { s with inbox := s.inbox ++ [.pong payload] }
  | none => g

/-- The client closes the socket. -/
def closeFrame (g : Gateway) (n : Nat) : Gateway :=
  match g.subscriber? n with
  | some client =>
    let g := g.updateSocket n fun s => { s with isOpen := false }
    ((g.hangUp client).unsubscribe client).1
  | none => g

/-- Whether something is queued for a subscriber. -/
def hasQueued (g : Gateway) (client : Nat) : Bool :=
  (g.hub.subscribers[client]?).any fun s => !s.queue.isEmpty

/-- The client vanishes. What is queued for it cannot be written any more. -/
def breakSocket (g : Gateway) (n : Nat) : Gateway :=
  match g.subscriber? n with
  | some client =>
    let failures := if g.hasQueued client then [Notice.writeFailed client] else []
    let g := g.updateSocket n fun s => { s with inbox := [], isOpen := false }
    ((g.say (failures ++ [.socketBroken client])).hangUp client |>.unsubscribe client).1
  | none => g

/-- Everything the client of a socket has not looked at yet, and the end if it is over. -/
def takeFrames (g : Gateway) (n : Nat) : Gateway × List Frame :=
  match g.sockets[n]? with
  | some s =>
    (g.updateSocket n fun s => { s with inbox := [] },
      s.inbox ++ if s.isOpen then [] else [.finish])
  | none => (g, [])

end Switchyard.Gateway
