import Mathlib.Tactic.Common
import Switchyard.Proxy.Exchange

/-! What an event makes of an exchange. Most events are moves: a stage that the exchange comes
to, a lease that goes back, and a line in the traffic counts. `act_eq` says which move each
of them makes from which stage; an event that does not fit the stage changes nothing. -/
namespace Switchyard

/-- To modify an item is to store what it becomes. -/
theorem modify_eq_set {α : Type} [Inhabited α] {l : List α} {n : Nat} {a : α}
    (h : l[n]? = some a) (f : α → α) : l.modify n f = l.set n (f a) := by
  rw [List.modify_eq_set, h]
  rfl

namespace Stage

/-- The lease that an exchange holds. -/
def lease? : Stage → Option Lease
  | .reading | .over => none
  | .waiting l | .relaying l => some l

/-- Whether the caller still waits for the response. -/
def isOpen : Stage → Bool
  | .reading | .waiting _ => true
  | .relaying _ | .over => false

end Stage

namespace Proxy

/-! ### Moves -/

/-- How an exchange is closed in the traffic counts. -/
inductive Closing where
  | answered (status : Nat)
  | left
deriving DecidableEq

/-- The line in the traffic counts. -/
def Closing.book (service : String) (nanos : Nat) : Closing → Traffic → Traffic
  | answered status, t => t.ended service nanos status
  | left, t => t.cancelled service nanos

/-- What an event makes of an exchange. -/
structure Move where
  stage : Stage
  back : Option Lease := none
  closing : Option Closing := none

/-- The proxy after a move of the exchange `e`, which is number `n`. -/
def perform (p : Proxy) (n now : Nat) (e : Exchange) (m : Move) : Proxy where
  balancer := m.back.elim p.balancer p.balancer.release
  traffic := m.closing.elim p.traffic fun c => c.book e.service (age e now) p.traffic
  exchanges := p.exchanges.set n { e with stage := m.stage }

/-- What can happen to an exchange, apart from the choice of its instance. -/
inductive Act where
  | turnAway (f : Fault)
  | relay (status : Nat)
  | giveUp (f : Fault)
  | finish
  | cancel

/-- The move of an exchange that is at some stage. -/
def Act.move? : Act → Stage → Option Move
  | turnAway f, .reading => some { stage := .over, closing := some (.answered f.status) }
  | relay status, .waiting l =>
    some { stage := .relaying l, closing := some (.answered status) }
  | giveUp f, .waiting l =>
    some { stage := .over, back := some l, closing := some (.answered f.status) }
  | finish, .relaying l => some { stage := .over, back := some l }
  | cancel, .reading => some { stage := .over, closing := some .left }
  | cancel, .waiting l => some { stage := .over, back := some l, closing := some .left }
  | _, _ => none

/-- The proxy after an act on exchange number `n`. -/
def act (p : Proxy) (n now : Nat) : Act → Proxy
  | .turnAway f => p.turnAway n now f
  | .relay status => p.relay n now status
  | .giveUp f => p.giveUp n now f
  | .finish => p.finish n
  | .cancel => (p.cancel n now).state

variable {p : Proxy} {n now : Nat} {e : Exchange}

theorem stage?_eq (h : p.exchanges[n]? = some e) : p.stage? n = some e.stage := by
  rw [stage?, h]
  rfl

/-- What each act makes of each stage. -/
theorem act_eq (a : Act) (h : p.exchanges[n]? = some e) :
    p.act n now a = ((a.move? e.stage).map (p.perform n now e)).getD p := by
  have hstage := stage?_eq h
  have hset := modify_eq_set h
  cases a with
  | turnAway f =>
    simp only [act, turnAway, hstage]
    cases he : e.stage <;> simp [Act.move?, answered, moveTo, perform, Closing.book, h, hset]
  | relay status =>
    simp only [act, relay, hstage]
    cases he : e.stage <;> simp [Act.move?, answered, moveTo, perform, Closing.book, h, hset]
  | giveUp f =>
    simp only [act, giveUp, hstage]
    cases he : e.stage <;>
      simp [Act.move?, answered, moveTo, release, perform, Closing.book, h, hset]
  | finish =>
    simp only [act, finish, hstage]
    cases he : e.stage <;> simp [Act.move?, moveTo, release, perform, hset]
  | cancel =>
    simp only [act, cancel, h]
    cases he : e.stage <;> simp [Act.move?, moveTo, release, perform, Closing.book, hset]

/-- Nothing happens to an exchange that has not begun. -/
theorem act_of_none (a : Act) (h : p.exchanges[n]? = none) : p.act n now a = p := by
  have hstage : p.stage? n = none := by rw [stage?, h]; rfl
  cases a <;> simp [act, turnAway, relay, giveUp, finish, cancel, hstage, h]

/-- What a move can be: the lease stays with the exchange or goes back, and the exchange is
closed in the counts just when its caller stops waiting. -/
theorem move?_spec {a : Act} {s : Stage} {m : Move} (h : a.move? s = some m) :
    s.lease? = m.back.or m.stage.lease? ∧ (m.back = none ∨ m.stage.lease? = none) ∧
      m.closing.isSome = s.isOpen ∧ m.stage.isOpen = false := by
  cases a <;> cases s <;> simp only [Act.move?, reduceCtorEq, Option.some.injEq] at h <;>
    subst h <;> simp [Stage.lease?, Stage.isOpen]

/-! ### The choice of an instance -/

variable {draw : Nat} {healthy : List Instance}

theorem engage_of_some {i : Instance} (h : p.exchanges[n]? = some e) (he : e.stage = .reading)
    (hi : p.balancer.choose e.service draw healthy = some i) :
    (p.engage n now draw healthy).state =
        { p with
          balancer := (p.balancer.select e.service draw healthy).state
          exchanges := p.exchanges.set n { e with stage := .waiting ⟨i⟩ } } ∧
      (p.engage n now draw healthy).answer = .ok ⟨i⟩ := by
  have hset := modify_eq_set h
  obtain ⟨service, begun, stage⟩ := e
  cases he
  simp only at hi
  simp [engage, h, Balancer.select, hi, moveTo, hset]

theorem engage_of_none (h : p.exchanges[n]? = some e) (he : e.stage = .reading)
    (hi : p.balancer.choose e.service draw healthy = none) :
    (p.engage n now draw healthy).state =
        p.perform n now e
          { stage := .over,
            closing := some (.answered (Fault.serviceNotAvailable e.service).status) } ∧
      (p.engage n now draw healthy).answer = .error (.serviceNotAvailable e.service) := by
  have hset := modify_eq_set h
  obtain ⟨service, begun, stage⟩ := e
  cases he
  simp only at hi
  simp [engage, h, Balancer.select, hi, moveTo, answered, perform, Closing.book, hset]

theorem notices_engage_of_some {i : Instance} (h : p.exchanges[n]? = some e)
    (he : e.stage = .reading) (hi : p.balancer.choose e.service draw healthy = some i) :
    (p.engage n now draw healthy).notices =
      [.selected e.service i.id p.balancer.strategy.label] := by
  obtain ⟨service, begun, stage⟩ := e
  cases he
  simp only at hi
  simp [engage, h, Balancer.select, hi]

theorem notices_engage_of_none (h : p.exchanges[n]? = some e) (he : e.stage = .reading)
    (hi : p.balancer.choose e.service draw healthy = none) :
    (p.engage n now draw healthy).notices = [.noneHealthy e.service] := by
  obtain ⟨service, begun, stage⟩ := e
  cases he
  simp only at hi
  simp [engage, h, Balancer.select, hi]

/-- An instance is chosen for an exchange only while its body is read. -/
theorem engage_of_not_reading (now draw : Nat) (healthy : List Instance)
    (h : ∀ e, p.exchanges[n]? = some e → e.stage ≠ .reading) :
    ∃ f, p.engage n now draw healthy = ⟨p, .error f, []⟩ := by
  unfold engage
  split
  · rename_i service begun hread
    exact absurd rfl (h _ hread)
  · exact ⟨_, rfl⟩

end Proxy

end Switchyard
